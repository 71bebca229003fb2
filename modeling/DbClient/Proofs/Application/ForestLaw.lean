import DbClient.Proofs.Application.Runs

/-! The law of the handle forest between the operations of any application: stores, lists of children,
parent links and counters of wrappers are four views of the same trees. -/
namespace DbClient
namespace World
variable {w : World} {env id : Nat}

/-- The ids of the live nodes of an environment. -/
def liveIds (w : World) (env : Nat) : List Nat :=
  (w.nodes.rows.pairs.filter fun p => !p.2.released && p.2.env = env).map (·.1)

lemma mem_liveIds (hw : w.nodes.Lawful) : id ∈ w.liveIds env ↔ ∃ n, w.Live id n ∧ n.env = env := by
  unfold liveIds
  simp only [List.mem_map, List.mem_filter, Bool.and_eq_true, Bool.not_eq_true', decide_eq_true_eq]
  constructor
  · rintro ⟨⟨i, n⟩, ⟨hp, hr, he⟩, rfl⟩
    exact ⟨n, ⟨(Assoc.mem_pairs hw.nodup).mp hp, hr⟩, he⟩
  · rintro ⟨n, ⟨hn, hr⟩, he⟩
    exact ⟨(id, n), ⟨(Assoc.mem_pairs hw.nodup).mpr hn, hr, he⟩, rfl⟩

lemma nodup_liveIds (hw : w.nodes.Lawful) : (w.liveIds env).Nodup :=
  (List.filter_sublist.map _).nodup hw.nodup

/-- A store has one entry for each live node of its environment. -/
theorem Forest.storeLength (hw : w.Forest) (env : Nat) : w.storeLength env = (w.liveIds env).length := by
  rw [storeLength_eq]
  cases hs : w.store? env with
  | none =>
    have hnone : w.liveIds env = [] := List.eq_nil_iff_forall_not_mem.mpr fun id hid => by
      obtain ⟨n, hn, rfl⟩ := (mem_liveIds hw.table).mp hid
      have hk := hw.known id n hn
      rw [stored?_eq, hs] at hk
      cases hk
    rw [hnone]
    rfl
  | some s =>
    have hkeys := hw.keys env s hs
    have hget : ∀ h id, s.get? h = some id ↔ w.stored? env h = some id := fun h id => by
      rw [stored?_eq, hs, Option.bind_some]
    -- an entry is determined by its node, for the node has one native handle
    have hinj : ∀ p ∈ s.pairs, ∀ q ∈ s.pairs, p.2 = q.2 → p = q := by
      rintro ⟨h, id⟩ hp ⟨h', id'⟩ hq rfl
      obtain ⟨n, hn, -, rfl⟩ := hw.stored env h id ((hget h id).mp ((Assoc.mem_pairs hkeys).mp hp))
      obtain ⟨m, hm, -, rfl⟩ := hw.stored env h' id ((hget h' id).mp ((Assoc.mem_pairs hkeys).mp hq))
      rw [hn.unique hm]
    have hnodup : (s.pairs.map (·.2)).Nodup :=
      List.Nodup.map_on (fun p hp q hq => hinj p hp q hq) (List.Nodup.of_map _ hkeys)
    have hperm : (s.pairs.map (·.2)).Perm (w.liveIds env) := by
      refine (List.perm_ext_iff_of_nodup hnodup (nodup_liveIds hw.table)).mpr fun id => ?_
      rw [mem_liveIds hw.table, List.mem_map]
      constructor
      · rintro ⟨⟨h, id⟩, hp, rfl⟩
        obtain ⟨n, hn, he, -⟩ := hw.stored env h id ((hget h id).mp ((Assoc.mem_pairs hkeys).mp hp))
        exact ⟨n, hn, he⟩
      · rintro ⟨n, hn, rfl⟩
        exact ⟨(n.native, id), (Assoc.mem_pairs hkeys).mpr ((hget _ _).mpr (hw.known id n hn)), rfl⟩
    change s.pairs.length = _
    rw [← hperm.length_eq, List.length_map]

end World

namespace Application
open World

/-- The four views of the forest agree. -/
structure ForestLaw (a : Application) : Prop where
  /-- An environment has at most one live node for a native handle. -/
  unique : ∀ i n j m, a.world.Live i n → a.world.Live j m → n.env = m.env → n.native = m.native → i = j
  /-- The store of an environment knows the live node of each native handle, and nothing else. -/
  stored : ∀ env h id, a.world.stored? env h = some id ↔ ∃ n, a.world.Live id n ∧ n.env = env ∧ n.native = h
  /-- The length of the store is the number of live nodes. -/
  length : ∀ env, a.world.storeLength env = (a.world.liveIds env).length
  /-- A live node is listed once by its parent. -/
  listed : ∀ c m p, a.world.Live c m → m.parent = some p →
    ∃ n, a.world.Live p n ∧ n.children.count c = 1
  /-- No other node lists it, and no node lists one that has been released. -/
  unlisted : ∀ p n c, a.world.nodes.get? p = some n → c ∈ n.children →
    ∃ m, a.world.Live c m ∧ m.parent = some p
  /-- No node is above itself. -/
  acyclic : ∀ id, ¬Relation.TransGen (fun c p => a.world.parent? c = some p) id id
  /-- A node counts the wrappers that point at it, of which there are some as long as it is alive. -/
  holders : ∀ id n, a.world.Live id n → n.holders = a.wrappersOf id ∧ 1 ≤ n.holders

variable {t : Terms} {a : Application}

/-- The law of the handle forest holds in whatever way the client is used: over any native handles, kinds and
parents, and through any sequence of operations. -/
theorem Reachable.forestLaw (h : Reachable t a) : ForestLaw a := by
  have hs := h.fit.sound
  have hw := hs.forest
  have hlt : ∀ c p, Relation.TransGen (fun c p => a.world.parent? c = some p) c p → p < c := by
    intro c p hcp
    induction hcp with
    | single hp => exact hw.parent_lt hp
    | tail _ hp ih => exact Nat.lt_trans (hw.parent_lt hp) ih
  refine {
    unique := fun i n j m hi hj he hn => hw.unique hi hj he hn
    stored := fun env h id => ⟨hw.stored env h id, ?_⟩
    length := hw.storeLength
    listed := fun c m p hm hp => ?_
    unlisted := fun p n c hn hc => ?_
    acyclic := fun id hid => Nat.lt_irrefl id (hlt id id hid)
    holders := fun id n hn => ⟨?_, hs.held id n hn⟩ }
  · rintro ⟨n, hn, rfl, rfl⟩
    exact hw.known id n hn
  · obtain ⟨n, hn, hc⟩ := hw.parent_live hm.1 hp
    exact ⟨n, hn, List.count_eq_one_of_mem (hw.nodup_children hn.1) hc⟩
  · obtain ⟨-, m, hm, hp⟩ := hw.child hn hc
    exact ⟨m, hm, hp⟩
  · rw [hs.counted.count id n hn.1, count_held]

/-- A handle is wrapped below another one, copied, and goes with that while two wrappers of it are left. -/
theorem forestLaw_after_cascade :
    let a := play [.createEnvironment default, .wrap 0 ⟨7⟩ .connection none true .nothing,
      .wrap 0 ⟨9⟩ .statement (some (.handle ⟨some 1⟩)) true .nothing, .item (.handle ⟨some 2⟩) .clone,
      .release ⟨some 1⟩] start
    ForestLaw a ∧ a.world.storeLength 0 = 1 ∧ a.wrappersOf 2 = 2 := by
  refine ⟨Reachable.forestLaw (t := ⟨true, false⟩) (runs_play ?_), by decide +kernel, by decide +kernel⟩
  exact ⟨trivial, by decide +kernel, rfl, by decide +kernel, rfl, by decide +kernel, trivial,
    by decide +kernel, trivial, by decide +kernel, trivial⟩

end Application
end DbClient
