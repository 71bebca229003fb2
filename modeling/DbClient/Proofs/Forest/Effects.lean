import DbClient.Handle.Wrapper
import DbClient.Proofs.Forest.Release

/-! What a cascade leaves behind: the nodes of its tree retired, all others as they were but for the
children they lost, stores without the tree, and a trace of what was done in which order. -/
namespace DbClient

/-- The node without some of its children. -/
def Node.without (ids : List Nat) (n : Node) : Node := { n with children := n.children.filter (· ∉ ids) }

namespace World
variable {w w' : World} {id i j k p : Nat} {n m : Node} {ids : List Nat}

/-- The steps of the release of a node. -/
def steps (w : World) (id : Nat) : List ReleaseStep := ((w.nodes.get? id).map (Node.steps id)).getD []

/-- The call that the release of a node makes: destruction, if the node owns its native handle. -/
def destruction (w : World) (id : Nat) : List (Option Primitive × Address) :=
  ((w.nodes.get? id).map fun n => if n.owned then [(some Primitive.destroy, n.native)] else []).getD []

/-- What has been called on which handles. -/
def calls (w : World) : List (Option Primitive × Address) := w.library.calls.map fun c => (c.op, c.handle)

lemma calls_letGo (kind : HandleKind) (h : Address) (l : Library) :
    (l.letGo kind h).calls = l.calls ++ [⟨some .destroy, h, l.handles⟩] := by
  unfold Library.letGo Library.destroy Library.run Library.called
  dsimp only
  cases l.failures.get? .destroy with
  | some e => rfl
  | none =>
    dsimp only
    split
    · rename_i heq
      split at heq
      · cases heq
      · cases heq
        unfold Library.dropResultsets
        dsimp only
        split <;> rfl
    · rename_i heq
      split at heq
      · cases heq
        rfl
      · cases heq

namespace Forest

lemma get?_retireAll (hw : w.Forest) (hb : w.BottomUp ids) (k : Nat) : (retireAll ids w).nodes.get? k =
    if k ∈ ids then (w.nodes.get? k).map Node.retired else (w.nodes.get? k).map (Node.without ids) := by
  induction ids generalizing w with
  | nil =>
    have hid : Node.without [] = id := by
      funext n
      simp [Node.without]
    simp [hid]
  | cons j ids ih =>
    obtain ⟨n, hn, -, hw', hb'⟩ := hw.retire_first hb
    have hj := (List.nodup_cons.mp hb.nodup).1
    rw [retireAll_cons, ih hw' hb', hw.get?_retire hn]
    by_cases hjk : j = k
    · subst hjk
      simp [hj, hn.1, Node.without, Node.retired]
    · cases hk : w.nodes.get? k with
      | none => simp [hjk]
      | some m =>
        by_cases hmem : k ∈ ids
        · simp [hjk, hmem]
          rfl
        · simp [hjk, Ne.symm hjk, hmem, Node.without, Node.dropChild, Bool.and_comm]

/-- Which nodes are alive after releases. -/
lemma live_retireAll (hw : w.Forest) (hb : w.BottomUp ids) : (retireAll ids w).Live k m ↔
    k ∉ ids ∧ ∃ m', w.Live k m' ∧ m = m'.without ids := by
  unfold Live
  rw [hw.get?_retireAll hb]
  by_cases hk : k ∈ ids
  · obtain ⟨m', hm'⟩ := hb.live k hk
    simp only [hk, if_true, hm'.1, Option.map_some, Option.some.injEq, not_true, false_and, iff_false]
    rintro ⟨rfl, hr⟩
    cases hr
  · simp only [hk, if_false, Option.map_eq_some_iff, not_false_eq_true, true_and]
    constructor
    · rintro ⟨⟨m', hm', rfl⟩, hr⟩
      exact ⟨m', ⟨hm', hr⟩, rfl⟩
    · rintro ⟨m', ⟨hm', hr⟩, rfl⟩
      exact ⟨⟨m', hm', rfl⟩, hr⟩

lemma retireAll (hw : w.Forest) (hb : w.BottomUp ids) : (retireAll ids w).Forest :=
  (hw.retireAll_induction (P := fun _ => True) hb trivial fun _ _ _ _ _ _ _ => trivial).1

/-- The stores forget what has been released. -/
lemma stored?_retireAll (hw : w.Forest) (hb : w.BottomUp ids) (env : Nat) (a : Address) :
    (World.retireAll ids w).stored? env a = (w.stored? env a).filter (· ∉ ids) := by
  refine Option.ext fun k => ?_
  simp only [Option.filter_eq_some_iff, decide_eq_true_eq]
  constructor
  · intro hs
    obtain ⟨m, hm, he, ha⟩ := (hw.retireAll hb).stored env a k hs
    obtain ⟨hk, m', hm', rfl⟩ := (hw.live_retireAll hb).mp hm
    exact ⟨he ▸ ha ▸ hw.known k m' hm', hk⟩
  · rintro ⟨hs, hk⟩
    obtain ⟨m, hm, he, ha⟩ := hw.stored env a k hs
    have hl := (hw.retireAll hb).known k _ ((hw.live_retireAll hb).mpr ⟨hk, m, hm, rfl⟩)
    exact he ▸ ha ▸ hl

lemma releases_retireAll (hw : w.Forest) (hb : w.BottomUp ids) :
    (World.retireAll ids w).releases = w.releases ++ ids.flatMap w.steps := by
  induction ids generalizing w with
  | nil => simp
  | cons j ids ih =>
    obtain ⟨n, hn, -, hw', hb'⟩ := hw.retire_first hb
    have hj := (List.nodup_cons.mp hb.nodup).1
    have hrest : ids.flatMap (w.retire j).steps = ids.flatMap w.steps := by
      refine List.flatMap_congr fun i hi => ?_
      have hne : j ≠ i := fun e => hj (e ▸ hi)
      rw [steps, steps, hw.get?_retire hn, if_neg hne]
      cases w.nodes.get? i <;> rfl
    rw [retireAll_cons, ih hw' hb', (retire_around hn.1 (hw.linked.parent_ne hn.1)).2.2, hrest,
      List.flatMap_cons, List.append_assoc, steps, hn.1]
    rfl

lemma calls_retireAll (hw : w.Forest) (hb : w.BottomUp ids) :
    (World.retireAll ids w).calls = w.calls ++ ids.flatMap w.destruction := by
  induction ids generalizing w with
  | nil => simp
  | cons j ids ih =>
    obtain ⟨n, hn, -, hw', hb'⟩ := hw.retire_first hb
    have hj := (List.nodup_cons.mp hb.nodup).1
    have hrest : ids.flatMap (w.retire j).destruction = ids.flatMap w.destruction := by
      refine List.flatMap_congr fun i hi => ?_
      have hne : j ≠ i := fun e => hj (e ▸ hi)
      rw [destruction, destruction, hw.get?_retire hn, if_neg hne]
      cases w.nodes.get? i <;> rfl
    have hfirst : (w.retire j).calls = w.calls ++ w.destruction j := by
      rw [calls, (retire_around hn.1 (hw.linked.parent_ne hn.1)).1, destruction, hn.1]
      cases ho : n.owned with
      | false => simp [calls, ho]
      | true => simp [calls, calls_letGo, ho]
    rw [retireAll_cons, ih hw' hb', hrest, hfirst, List.flatMap_cons, List.append_assoc]

/-! ### Releases of siblings -/

lemma postorder_congr (hw : w.Forest) (hw' : w'.Forest) (h : w.Live id n)
    (same : ∀ k ∈ w.postorder id, w'.nodes.get? k = w.nodes.get? k) : w'.postorder id = w.postorder id := by
  have hi := hw.intact h (Nat.le_succ _)
  obtain ⟨hi', he⟩ := hi.congr same
  have h' : w'.Live id n := ⟨(same id (hw.self_mem_postorder h)).trans h.1, h.2⟩
  rw [hw'.postorder_eq_within h' hi', he]
  rfl

lemma parent?_retireAll (hw : w.Forest) (hb : w.BottomUp ids) (hk : k ∉ ids) :
    (World.retireAll ids w).parent? k = w.parent? k :=
  World.parent?_retireAll hw.linked (fun j hj => (hb.live j hj).imp fun _ h => h.1) hk

lemma bottomUp_siblings (hw : w.Forest) (hd : ids.Nodup) (hids : ∀ c ∈ ids, w.parent? c = some p) :
    w.BottomUp (ids.flatMap w.postorder) := by
  have hlive : ∀ c ∈ ids, ∃ m, w.Live c m := by
    intro c hc
    obtain ⟨m, hm, hmp⟩ := parent?_eq_some.mp (hids c hc)
    exact ⟨m, hw.live_of_parent hm hmp⟩
  have hdis : ∀ a ∈ ids, ∀ b ∈ ids, a ≠ b → ∀ k ∈ w.postorder a, k ∉ w.postorder b := by
    intro a ha b hb hab k hka hkb
    obtain ⟨m, hm⟩ := hlive a ha
    obtain ⟨m', hm'⟩ := hlive b hb
    exact hw.siblings_disjoint (hids a ha) (hids b hb) hab ((hw.mem_postorder hm).mp hka)
      ((hw.mem_postorder hm').mp hkb)
  refine ⟨List.nodup_flatMap.mpr ⟨fun c hc => ?_, hd.imp_of_mem ?_⟩, fun j hj => ?_, fun q hq k hk => ?_,
    List.pairwise_flatMap.mpr ⟨fun c hc => ?_, hd.imp_of_mem ?_⟩⟩
  · obtain ⟨m, hm⟩ := hlive c hc
    exact hw.nodup_postorder hm
  · exact fun ha hb hab k hka => hdis _ ha _ hb hab k hka
  · obtain ⟨c, hc, hjc⟩ := List.mem_flatMap.mp hj
    obtain ⟨m, hm⟩ := hlive c hc
    exact (hw.bottomUp hm).live j hjc
  · obtain ⟨c, hc, hqc⟩ := List.mem_flatMap.mp hq
    obtain ⟨m, hm⟩ := hlive c hc
    exact List.mem_flatMap.mpr ⟨c, hc, hw.closed hm q hqc k hk⟩
  · obtain ⟨m, hm⟩ := hlive c hc
    exact hw.postorder_pairwise hm
  · intro a b ha hb hab x hx y hy hxy
    obtain ⟨m, hm⟩ := hlive a ha
    exact hdis a ha b hb hab y (hw.closed hm x hx y hxy) hy

/-- The tree of a sibling is the same after the release of another sibling. -/
lemma postorder_sibling (hw : w.Forest) (hi : w.parent? i = some p) (hj : w.parent? j = some p)
    (hij : i ≠ j) : (World.retireAll (w.postorder i) w).postorder j = w.postorder j := by
  obtain ⟨n, hn, hnp⟩ := parent?_eq_some.mp hi
  obtain ⟨m, hm, hmp⟩ := parent?_eq_some.mp hj
  have hn' := hw.live_of_parent hn hnp
  have hm' := hw.live_of_parent hm hmp
  have hdis : ∀ k ∈ w.postorder j, k ∉ w.postorder i := fun k hkj hki =>
    hw.siblings_disjoint hi hj hij ((hw.mem_postorder hn').mp hki) ((hw.mem_postorder hm').mp hkj)
  refine hw.postorder_congr (hw.retireAll (hw.bottomUp hn')) hm' fun k hk => ?_
  rw [hw.get?_retireAll (hw.bottomUp hn'), if_neg (hdis k hk)]
  cases hg : w.nodes.get? k with
  | none => rfl
  | some q =>
    have hkeep : q.children.filter (· ∉ w.postorder i) = q.children := by
      refine List.filter_eq_self.mpr fun c hc => ?_
      simpa using hdis c (hw.closed hm' k hk c (hw.down k q c hg hc))
    rw [Option.map_some, Node.without, hkeep]

/-- Siblings are released one by one; none of them goes with another one. -/
theorem releaseEach (hw : w.Forest) (hd : ids.Nodup) (hids : ∀ c ∈ ids, w.parent? c = some p) :
    Wrapper.releaseEach ids w = (ids.length, World.retireAll (ids.flatMap w.postorder) w) := by
  induction ids generalizing w with
  | nil => rfl
  | cons c ids ih =>
    rw [List.nodup_cons] at hd
    have hcp := hids c List.mem_cons_self
    obtain ⟨n, hn, hnp⟩ := parent?_eq_some.mp hcp
    have hn' := hw.live_of_parent hn hnp
    have hne : ∀ d ∈ ids, c ≠ d := fun d hdm e => hd.1 (e ▸ hdm)
    have hout : ∀ d ∈ ids, d ∉ w.postorder c := by
      intro d hdm hdc
      have hdp := hids d (List.mem_cons_of_mem _ hdm)
      exact hw.siblings_disjoint hcp hdp (hne d hdm) ((hw.mem_postorder hn').mp hdc)
        Relation.ReflTransGen.refl
    have hstep := ih (hw.retireAll (hw.bottomUp hn')) hd.2 fun d hdm => by
      rw [hw.parent?_retireAll (hw.bottomUp hn') (hout d hdm)]
      exact hids d (List.mem_cons_of_mem _ hdm)
    have hlist : ids.flatMap (World.retireAll (w.postorder c) w).postorder = ids.flatMap w.postorder :=
      List.flatMap_congr fun d hdm =>
        hw.postorder_sibling hcp (hids d (List.mem_cons_of_mem _ hdm)) (hne d hdm)
    rw [Wrapper.releaseEach, hw.release hn']
    dsimp only
    rw [hstep, hlist, List.flatMap_cons, retireAll_append, List.length_cons]
    simp [Nat.add_comm]

end Forest
end World
end DbClient
