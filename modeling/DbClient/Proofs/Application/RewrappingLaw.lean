import DbClient.Proofs.Application.ReleasedLaw
import DbClient.Proofs.Ownership.Callbacks

/-! The law of wrapping in any application: what comes of wrapping a native handle, which may have a live node already,
may have had one, or may never have been seen; and what becomes of the owner and of the callback that were given with
it, whatever is done later. -/
namespace DbClient
open Act World

variable {w w' : World} {env id : Nat} {n : Node} {native : Address} {kind : HandleKind} {parent : Option Wrapper}
  {owned : Bool} {onRelease : ReleaseAction} {q : Option Nat}

/-! ### Calls -/

namespace Wrapper

lemma declines_wrap_null (hnull : native.isNull = true) :
    (wrap env native kind parent owned onRelease).Declines (.nullHandle kind) w := by
  rw [Declines, wrap, if_pos hnull]
  rfl

/-- A handle that has a live node, on which ownership may be asked for in vain. -/
lemma run_wrap_known (kind : HandleKind) (parent : Option Wrapper) (owned : Bool) (onRelease : ReleaseAction)
    (hnull : native.isNull = false) (hs : w.stored? env native = some id) (hl : w.Live id n) :
    (wrap env native kind parent owned onRelease).run w =
      if owned && !n.owned then (.error (.invalidState "acquire" .alreadyTransient), w)
      else (.ok ⟨some id⟩, (acquire id w).2) := by
  rw [wrap, if_neg (by simp [hnull]), run_bind, run_get]
  simp only [hs, Option.bind_some, liveNode?_eq_some.mpr ⟨rfl, hl⟩]
  split <;> rfl

/-- A handle without a live node, under a parent that is alive if there is one. -/
lemma run_wrap_new (kind : HandleKind) (owned : Bool) (onRelease : ReleaseAction) (hnull : native.isNull = false)
    (hs : w.stored? env native = none) (hq : w.LeadsTo parent q) :
    (wrap env native kind parent owned onRelease).run w =
      (.ok ⟨some w.nodes.next⟩, w.grow (Node.wrapping env native kind q owned onRelease)) := by
  rw [wrap, if_neg (by simp [hnull]), run_bind, run_get]
  simp only [hs, Option.bind_none]
  cases parent with
  | none =>
    obtain rfl : q = none := hq
    rfl
  | some p =>
    obtain ⟨i, m, hi, hm, rfl⟩ := hq
    simp only [liveNode?_eq_some.mpr ⟨hi, hm⟩]
    rfl

/-- A call that fails, or that gives a wrapper of a node which was there, has no use for its callback. -/
lemma run_wrap_unused (hw : w.Forest) (other : ReleaseAction)
    (hold : ∀ h v, (wrap env native kind parent owned onRelease).run w = (.ok h, v) →
      h.node ≠ some w.nodes.next) :
    (wrap env native kind parent owned other).run w = (wrap env native kind parent owned onRelease).run w := by
  cases hnull : native.isNull with
  | true => exact (declines_wrap_null hnull).trans (declines_wrap_null hnull).symm
  | false =>
    cases hs : w.stored? env native with
    | some id =>
      obtain ⟨n, hl, -, -⟩ := hw.stored env native id hs
      rw [run_wrap_known kind parent owned _ hnull hs hl, run_wrap_known kind parent owned _ hnull hs hl]
    | none =>
      have hnone : ∀ q, ¬w.LeadsTo parent q := fun q hq =>
        hold _ _ (run_wrap_new kind owned onRelease hnull hs hq) rfl
      cases parent with
      | none => exact absurd World.leadsTo_none (hnone none)
      | some p =>
        have hgone : p.isNull w = true := by
          by_contra hlive
          obtain ⟨i, m, hi, hm⟩ := isNull_eq_false.mp (Bool.eq_false_iff.mpr hlive)
          exact hnone (some i) ⟨i, m, hi, hm, rfl⟩
        exact (declines_wrap hgone kind owned other hnull hs).trans
          (declines_wrap hgone kind owned onRelease hnull hs).symm

end Wrapper

namespace World

/-- A node has one more wrapper. Nothing else of it has changed, nor has anything beside it. -/
structure Shares (id : Nat) (n : Node) (w w' : World) : Prop where
  node : w'.nodes.get? id = some { n with holders := n.holders + 1 }
  others : ∀ k, k ≠ id → w'.nodes.get? k = w.nodes.get? k
  rest : w' = { w with nodes := w'.nodes }

lemma shares_acquire (hl : w.Live id n) : Shares id n w (Wrapper.acquire id w).2 := by
  have hget : ∀ k, (Wrapper.acquire id w).2.nodes.get? k =
      if id = k then (w.nodes.get? k).map fun n => { n with holders := n.holders + 1 } else w.nodes.get? k := fun k =>
    Table.get?_modify w.nodes id k _
  refine ⟨?_, fun k hk => ?_, rfl⟩
  · rw [hget, if_pos rfl, hl.1]
    rfl
  · rw [hget, if_neg (Ne.symm hk)]

/-- There is a node that was not there before. It is the last child of its parent, and its store knows it. -/
structure AddsLeaf (new : Node) (w w' : World) : Prop where
  before : w.nodes.get? w.nodes.next = none
  node : w'.nodes.get? w.nodes.next = some new
  others : ∀ k, k ≠ w.nodes.next → w'.nodes.get? k = (w.nodes.get? k).map fun m =>
    if new.parent = some k then { m with children := m.children ++ [w.nodes.next] } else m
  stored : ∀ env h, w'.stored? env h = if new.env = env ∧ new.native = h then some w.nodes.next else w.stored? env h
  library : w'.library = w.library
  releases : w'.releases = w.releases

lemma Forest.addsLeaf_grow {node : Node} (hw : w.Forest) (hf : Fits node w) : AddsLeaf node w (w.grow node) where
  before := hw.table.get?_next
  node := hw.get?_grow_next hf
  others k hk := by
    rw [get?_grow (hw.parent_ne_next hf), if_neg (Ne.symm hk)]
    rfl
  stored := Forest.stored?_grow hf
  library := library_grow node w
  releases := releases_grow node w

/-- How often a callback has run: once when its node has been released since, and never before that. -/
lemma CallbacksOnRelease.count (h : CallbacksOnRelease w w') (hw : w.Traced) (hw' : w'.Traced) (hl : w.Live id n) :
    ∃ m, w'.nodes.get? id = some m ∧ m.owned = n.owned ∧ (m.released = false → m.onRelease = n.onRelease) ∧
      w'.releases.count (.action id) = if m.released = true ∧ n.onRelease ≠ .nothing then 1 else 0 := by
  obtain ⟨m, hm, hnm⟩ := h id n hl.1
  have hbefore : .action id ∉ w.releases := fun hrun => by
    obtain ⟨k, hk, hr⟩ := hw.past _ hrun
    obtain rfl := Option.some.inj (hl.1.symm.trans hk)
    exact absurd (hl.2.symm.trans hr) nofun
  have hran : .action id ∈ w'.releases ↔ m.released = true ∧ n.onRelease ≠ .nothing :=
    hnm.run.trans ((or_iff_right hbefore).trans (and_iff_right hl.2))
  refine ⟨m, hm, hnm.owned, hnm.callback, ?_⟩
  rw [List.Nodup.count hw'.nodup]
  simp only [hran]

end World

/-! ### Runs -/

namespace Application
variable {t : Terms} {a b : Application}

/-- The application wraps a handle in an environment that there is. -/
lemma world_after_wrap {e : EnvState} {p : Option Item} (he : a.world.envs.get? env = some e) :
    ((Operation.wrap env native kind p owned onRelease).after a).world =
      ((Wrapper.wrap env native kind (p.map Item.wrapper) owned onRelease).run a.world).2 := by
  change ((Operation.wrap env native kind p owned onRelease).perform.run a.world).2 = _
  rw [Operation.perform, run_get_bind, he]
  dsimp only
  rw [run_bind]
  split <;> rename_i hr <;> rw [hr]
  rfl

/-- Across each operation callbacks run as nodes are released. -/
theorem Step.callbacksOnRelease (h : Step t a b) (ha : a.Fit) : CallbacksOnRelease a.world b.world := by
  obtain ⟨op, hp, hr, rfl⟩ := h
  have hstep : op.Permitted ⟨false, true⟩ → CallbacksOnRelease a.world (op.after a).world := fun hp =>
    Path.callbacksOnRelease rfl (Step.path ⟨op, hp, hr, rfl⟩ ha) ha.sound
  cases op with
  | wrap env native kind parent owned onRelease =>
    cases he : a.world.envs.get? env with
    | none =>
      change CallbacksOnRelease a.world ((Operation.wrap env native kind parent owned onRelease).perform.run a.world).2
      rw [Operation.perform, run_get_bind, he]
      exact .refl _
    | some e =>
      have hhoused : a.world.Housed env := by
        rw [Housed, store?, he]
        rfl
      rw [world_after_wrap he]
      obtain ⟨r, v, hrun, hcases⟩ := Wrapper.wrap_cases ha.sound.forest env native kind (parent.map Item.wrapper)
        owned onRelease
      rw [hrun]
      obtain ⟨e, -, rfl, -⟩ | ⟨id, n, -, -, -, -, rfl⟩ | ⟨q, hu, hq, -, rfl⟩ := hcases
      · exact .refl _
      · exact .modifyNode (f := fun n => { n with holders := n.holders + 1 }) (fun _ => ⟨rfl, rfl, rfl⟩) id _
      · exact .grow ha.sound.forest (fits_wrapping hu hq hhoused)
  | library k =>
    cases k with
    | foreign f => exact .of_nodes rfl rfl
    | failNext op e => exact hstep fun _ => rfl
    | _ => exact hstep trivial
  | item i k => exact hstep (by cases k <;> exact hp)
  | _ => exact hstep trivial

/-- They do so along every run. -/
theorem Runs.callbacksOnRelease (h : Runs t a b) (ha : a.Fit) : CallbacksOnRelease a.world b.world := by
  induction h with
  | refl => exact .refl _
  | tail hr hs ih => exact ih.trans (hs.callbacksOnRelease (Runs.fit hr ha))

/-! ### The law -/

/-- What comes of wrapping native handles. -/
structure RewrappingLaw (t : Terms) (a : Application) : Prop where
  /-- The null handle cannot be wrapped, -/
  null : ∀ env native kind parent owned onRelease, native.isNull = true →
    (Wrapper.wrap env native kind parent owned onRelease).Declines (.nullHandle kind) a.world
  /-- nor can a handle that is not wrapped, under a parent that is released. -/
  orphan : ∀ env native kind p owned onRelease, native.isNull = false →
    (∀ id n, a.world.Live id n → ¬(n.env = env ∧ n.native = native)) → p.isNull a.world = true →
      (Wrapper.wrap env native kind (some p) owned onRelease).Declines (.nullHandle (p.kind a.world)) a.world
  /-- Ownership does not come to a node without it. -/
  transient : ∀ native kind parent onRelease id n, native.isNull = false → a.world.Live id n → n.native = native →
    n.owned = false → (Wrapper.wrap n.env native kind parent true onRelease).Declines
      (.invalidState "acquire" .alreadyTransient) a.world
  /-- In all other cases a handle that has a live node shares it, and it alone changes: it has one more wrapper. -/
  shared : ∀ native kind parent owned onRelease id n, native.isNull = false → a.world.Live id n → n.native = native →
    (owned = true → n.owned = true) →
      ∃ w', (Wrapper.wrap n.env native kind parent owned onRelease).run a.world = (.ok ⟨some id⟩, w') ∧
        Shares id n a.world w'
  /-- Any other handle gets a node, as the last child of its parent. -/
  fresh : ∀ env native kind parent owned onRelease q, native.isNull = false → (a.world.envs.get? env).isSome →
    (∀ id n, a.world.Live id n → ¬(n.env = env ∧ n.native = native)) → a.world.LeadsTo parent q →
      ∃ w', (Wrapper.wrap env native kind parent owned onRelease).run a.world = (.ok ⟨some a.world.nodes.next⟩, w') ∧
        AddsLeaf
          { native := native, kind := kind, owned := owned, holders := 1, released := false, parent := q,
            children := [], onRelease := onRelease, extra := none, env := env } a.world w'
  /-- A call that makes no node has no use for its callback: with any other one the same would have come of it. -/
  unused : ∀ env native kind parent owned onRelease other,
    (∀ h w', (Wrapper.wrap env native kind parent owned onRelease).run a.world = (.ok h, w') →
      h.node ≠ some a.world.nodes.next) →
      (Wrapper.wrap env native kind parent owned other).run a.world =
        (Wrapper.wrap env native kind parent owned onRelease).run a.world
  /-- Whatever is done later, a node keeps its owner, -/
  owner : ∀ b, Runs t a b → ∀ id n, a.world.nodes.get? id = some n →
    ∃ m, b.world.nodes.get? id = some m ∧ m.owned = n.owned
  /-- it keeps its callback until it is released, and runs it then, if it has one; -/
  callback : ∀ b, Runs t a b → ∀ id n, a.world.Live id n → ∃ m, b.world.nodes.get? id = some m ∧
    (m.released = false → m.onRelease = n.onRelease) ∧
      b.world.releases.count (.action id) = if m.released = true ∧ n.onRelease ≠ .nothing then 1 else 0
  /-- no node runs one twice. -/
  once : ∀ b, Runs t a b → ∀ id, b.world.releases.count (.action id) ≤ 1
  /-- So the callback that is given with a handle runs at most once, and only when the call has made a node, whose owner
  and callback are those that were given. -/
  given : ∀ env native kind parent owned onRelease h w' b,
    (Operation.wrap env native kind parent owned onRelease).Permitted t →
    a.Ready (.wrap env native kind parent owned onRelease) → (a.world.envs.get? env).isSome →
    (Wrapper.wrap env native kind (parent.map Item.wrapper) owned onRelease).run a.world = (.ok h, w') →
    h.node = some a.world.nodes.next → Runs t ((Operation.wrap env native kind parent owned onRelease).after a) b →
      ∃ m, b.world.nodes.get? a.world.nodes.next = some m ∧ m.owned = owned ∧
        (m.released = false → m.onRelease = onRelease) ∧
        b.world.releases.count (.action a.world.nodes.next) =
          if m.released = true ∧ onRelease ≠ .nothing then 1 else 0

/-- A handle without a live node is unknown to the store. -/
lemma stored?_eq_none (hw : w.Forest) (hno : ∀ id n, w.Live id n → ¬(n.env = env ∧ n.native = native)) :
    w.stored? env native = none := by
  cases hs : w.stored? env native with
  | none => rfl
  | some id =>
    obtain ⟨n, hl, he, hn⟩ := hw.stored env native id hs
    exact absurd ⟨he, hn⟩ (hno id n hl)

/-- The node that a call has made is as it was asked for. -/
lemma made_by_wrap {h : Wrapper} (hw : w.Forest) (he : w.Housed env)
    (hr : (Wrapper.wrap env native kind parent owned onRelease).run w = (.ok h, w'))
    (hnew : h.node = some w.nodes.next) :
    ∃ m, w'.Live w.nodes.next m ∧ m.owned = owned ∧ m.onRelease = onRelease := by
  obtain ⟨r, v, hrun, hcases⟩ := Wrapper.wrap_cases hw env native kind parent owned onRelease
  rw [hrun] at hr
  obtain ⟨rfl, rfl⟩ := Prod.mk.inj hr
  obtain ⟨e, he, -⟩ | ⟨id, n, -, hl, -, hok, -⟩ | ⟨q, hu, hq, -, rfl⟩ := hcases
  · cases he
  · obtain rfl := Except.ok.inj hok
    exact absurd (Option.some.inj hnew).symm (hw.not_next hl.1)
  · exact ⟨_, ⟨hw.get?_grow_next (fits_wrapping hu hq he), rfl⟩, rfl, rfl⟩

/-- The law of wrapping holds whenever an application is between two operations, however it has used handles before. -/
theorem Reachable.rewrappingLaw (h : Reachable t a) : RewrappingLaw t a := by
  have hs := h.fit.sound
  have hw := hs.forest
  have hhoused : ∀ {env}, (a.world.envs.get? env).isSome → a.world.Housed env := fun {env} he => by
    rwa [Housed, store?, Option.isSome_map]
  have hcallbacks : ∀ {b}, Runs t a b → CallbacksOnRelease a.world b.world := fun hr => hr.callbacksOnRelease h.fit
  exact {
    null := fun env native kind parent owned onRelease hnull => Wrapper.declines_wrap_null hnull
    orphan := fun env native kind p owned onRelease hnull hno hp =>
      Wrapper.declines_wrap hp kind owned onRelease hnull (stored?_eq_none hw hno)
    transient := fun native kind parent onRelease id n hnull hl hn ho => by
      rw [Declines, Wrapper.run_wrap_known kind parent true onRelease hnull (hn ▸ hw.known id n hl) hl,
        if_pos (by simp [ho])]
    shared := fun native kind parent owned onRelease id n hnull hl hn ho => by
      rw [Wrapper.run_wrap_known kind parent owned onRelease hnull (hn ▸ hw.known id n hl) hl,
        if_neg (by simpa using ho)]
      exact ⟨_, rfl, shares_acquire hl⟩
    fresh := fun env native kind parent owned onRelease q hnull he hno hq => by
      have hnone := stored?_eq_none hw hno
      exact ⟨_, Wrapper.run_wrap_new kind owned onRelease hnull hnone hq,
        hw.addsLeaf_grow (fits_wrapping hnone hq (hhoused he))⟩
    unused := fun env native kind parent owned onRelease other hold => Wrapper.run_wrap_unused hw other hold
    owner := fun b hr id n hn => by
      obtain ⟨m, hm, hnm⟩ := hcallbacks hr id n hn
      exact ⟨m, hm, hnm.owned⟩
    callback := fun b hr id n hl => by
      obtain ⟨m, hm, -, hc, hrun⟩ := (hcallbacks hr).count hs.traced (Runs.fit hr h.fit).sound.traced hl
      exact ⟨m, hm, hc, hrun⟩
    once := fun b hr id => List.nodup_iff_count_le_one.mp (Runs.fit hr h.fit).sound.traced.nodup _
    given := fun env native kind parent owned onRelease wr w' b hp hready he hrun hnew hr => by
      obtain ⟨e, hget⟩ := Option.isSome_iff_exists.mp he
      have hafter := (world_after_wrap (p := parent) hget).trans (congrArg Prod.snd hrun)
      have hfit := Step.fit ⟨_, hp, hready, rfl⟩ h.fit
      obtain ⟨k, hk, hown, hcall⟩ := made_by_wrap hw (hhoused he) hrun hnew
      have hlater := Runs.callbacksOnRelease hr hfit
      have htraced := hfit.sound.traced
      rw [hafter] at hlater htraced
      obtain ⟨m, hm, ho, hc, hcount⟩ := hlater.count htraced (Runs.fit hr hfit).sound.traced hk
      exact ⟨m, hm, ho.trans hown, fun hlive => (hc hlive).trans hcall, hcall ▸ hcount⟩ }

/-- A handle is wrapped without ownership, and another one with it, whose node is released. The first cannot be owned
after that, and shares its node otherwise; the second gets a new node, but none can be put under its old one. -/
theorem rewrappingLaw_after_release :
    let a := play [.createEnvironment default, .wrap 0 ⟨7⟩ .resultset none false (.report "lent" none),
      .wrap 0 ⟨9⟩ .connection (some (.handle ⟨some 1⟩)) true (.report "owned" none), .release ⟨some 2⟩] start
    RewrappingLaw ⟨true, false⟩ a ∧ a.world.releases = [.action 2, .destroy 2] ∧
      ((Wrapper.wrap 0 .null .lob none true .nothing).run a.world).1 = .error (.nullHandle .lob) ∧
      ((Wrapper.wrap 0 ⟨7⟩ .resultset none true (.report "again" none)).run a.world).1 =
        .error (.invalidState "acquire" .alreadyTransient) ∧
      ((Wrapper.wrap 0 ⟨7⟩ .lob none false (.report "again" none)).run a.world).1 = .ok ⟨some 1⟩ ∧
      ((Wrapper.wrap 0 ⟨9⟩ .connection (some ⟨some 1⟩) true (.report "again" none)).run a.world).1 = .ok ⟨some 3⟩ ∧
      ((Wrapper.wrap 0 ⟨11⟩ .lob (some ⟨some 2⟩) true .nothing).run a.world).1 = .error (.nullHandle .connection) := by
  refine ⟨Reachable.rewrappingLaw (runs_play ?_), by decide +kernel, by decide +kernel, by decide +kernel,
    by decide +kernel, by decide +kernel, by decide +kernel⟩
  exact ⟨trivial, by decide +kernel, rfl, by decide +kernel, rfl, by decide +kernel, trivial, by decide +kernel,
    trivial⟩

end Application
end DbClient
