import DbClient.Proofs.Application.Runs
import DbClient.Proofs.Ownership.Moves

/-! Ownership between the operations of any application that leaves the wrapping of handles to the client:
the handles of the native library and the nodes of the forest are accounts of the same things. -/
namespace DbClient
namespace Application
open World Library
variable {t : Terms} {a b : Application}

/-- In the world before the first operation there is nothing to own. -/
lemma owns_start (t : Terms) : Owns t start.world where
  coherent := {
    numbered := by simp [start, World.fresh, Library.fresh]
    born := by simp [start, World.fresh, Library.fresh, isAlive, Assoc.contains]
    stmts := by simp [start, World.fresh, Library.fresh]
    listed := by simp [start, World.fresh, Library.fresh, listed, HasOpen]
    once := List.nodup_nil
    gone := by simp [start, World.fresh, Library.fresh] }
  owned := by simp [start, World.fresh, Live]
  unique := by simp [start, World.fresh, Live]
  lent := by simp [start, World.fresh, Live]
  sturdy _ := rfl
  kept := by simp [start, World.fresh, Library.fresh, Has]
  calls := by simp [start, World.fresh, Library.fresh]

/-- Nodes and native handles belong together in whatever way the client is used, as long as the application
wraps no handle itself. -/
theorem Reachable.owns (ht : t.foreign = false) (h : Reachable t a) : Owns t a.world :=
  Path.owns ht (Runs.path h fit_start) fit_start.sound (owns_start t)

/-- Nothing leaks, and nothing is destroyed twice or too early. -/
structure OwnershipLaw (w : World) : Prop where
  /-- Each handle that is alive was created or opened. -/
  born : ∀ h, w.library.isAlive h = true → ∃ o, w.library.origins.get? h = some o
  /-- What was created and is alive are the native handles of the live nodes that own theirs, -/
  created : ∀ h, (w.library.isAlive h = true ∧ ∃ p, w.library.origins.get? h = some (.created p)) ↔
    ∃ id n, w.Live id n ∧ n.owned = true ∧ n.native = h
  /-- each of one node. -/
  unique : ∀ i j n m, w.Live i n → w.Live j m → n.owned = true → m.owned = true → n.native = m.native → i = j
  /-- The resultsets that are alive are those that statements list, and these are alive. -/
  opened : ∀ r s, (w.library.isAlive r = true ∧ w.library.origins.get? r = some (.opened s)) ↔
    ∃ st, w.library.stmts.get? s = some st ∧ r ∈ st.resultsets
  statements : ∀ s st, w.library.stmts.get? s = some st → w.library.isAlive s = true
  /-- A node that does not own its native handle is a child of a live statement that lists the handle. -/
  lent : ∀ id n, w.Live id n → n.owned = false → ∃ p m st, n.parent = some p ∧ w.Live p m ∧ id ∈ m.children ∧
    m.kind = .statement ∧ w.library.stmts.get? m.native = some st ∧ n.native ∈ st.resultsets
  /-- No handle is destroyed twice, -/
  once : (w.library.destroyed.map Prod.snd).Nodup
  /-- and at the moment when one is, nothing that was created under it is alive. -/
  last : ∀ c ∈ w.library.calls, c.op = some .destroy → ∀ h, c.alive.contains h = true →
    w.library.origins.get? h ≠ some (.created c.handle)
  /-- No primitive is called with a handle that is not alive; a root is created under none. -/
  proper : ∀ c ∈ w.library.calls, c.alive.contains c.handle = true ∨ c.op = some .create ∧ c.handle = .null

/-- The law of ownership holds whenever an application is between two operations, provided that destruction
is not made to fail; any other primitive may fail at any time. -/
theorem Reachable.ownershipLaw (h : Reachable ⟨false, false⟩ a) : OwnershipLaw a.world := by
  have hf := h.fit.sound.forest
  have hw := h.owns rfl
  have hlisted : ∀ r s, r ∈ a.world.library.listed s ↔
      ∃ st, a.world.library.stmts.get? s = some st ∧ r ∈ st.resultsets := by
    intro r s
    cases hs : a.world.library.stmts.get? s with
    | none => simp [listed, hs]
    | some st => simp [listed, hs]
  refine {
    born := hw.coherent.born
    created := fun h => ⟨?_, ?_⟩
    unique := hw.unique
    opened := fun r s => (hw.coherent.listed s r).symm.trans (hlisted r s)
    statements := fun s st hst => ?_
    lent := fun id n hl ho => ?_
    once := hw.coherent.once
    last := fun c hc => (hw.calls c hc).last rfl
    proper := fun c hc => (hw.calls c hc).handle }
  · rintro ⟨ha, p, hp⟩
    obtain ⟨k, hk⟩ := Assoc.contains_iff.mp ha
    exact hw.kept rfl k p h ⟨hk, hp⟩
  · rintro ⟨id, n, hl, ho, rfl⟩
    exact ⟨hw.alive hl, _, (hw.owned id n hl ho).2⟩
  · obtain ⟨p, hp⟩ := hw.coherent.stmts s (by rw [hst]; rfl)
    exact hp.alive
  · obtain ⟨-, p, m, hp, hm, hmo, hr⟩ := hw.lent id n hl ho
    obtain ⟨m', hm', hmem⟩ := hf.parent_live hl.1 hp
    obtain rfl := hm'.unique hm
    obtain ⟨st, hst, hmr⟩ := (hlisted _ _).mp hr
    -- the handle of a statement is alive with one kind, which is that of its node
    obtain ⟨q, hq⟩ := hw.coherent.stmts m'.native (by rw [hst]; rfl)
    have hkind := (hw.owned p m' hm hmo).1
    rw [hq.1] at hkind
    exact ⟨p, m', st, hp, hm, hmem, (Option.some.inj hkind).symm, hst, hmr⟩

/-- A first connection fails half-way and is gone. A resultset of a statement of the second one is wrapped, and
gives way to another one while the wrapper is still held. -/
theorem ownershipLaw_after_renewal :
    let a := play [.createEnvironment default, .library (.failNext .setAttr (.single 1017 "denied")),
      .environment ⟨0, ⟨some 0⟩⟩ (.connect (.ofPassword "db" "user" "word")),
      .environment ⟨0, ⟨some 0⟩⟩ (.connect (.ofPassword "db" "user" "word")),
      .connection ⟨0, ⟨some 2⟩⟩ .statement, .library (.addResultset "q" [[.null]]),
      .statement ⟨0, ⟨0, ⟨some 2⟩⟩, ⟨some 3⟩⟩ (.execute "q"),
      .statement ⟨0, ⟨0, ⟨some 2⟩⟩, ⟨some 3⟩⟩ .resultset,
      .statement ⟨0, ⟨0, ⟨some 2⟩⟩, ⟨some 3⟩⟩ .executePrepared] start
    OwnershipLaw a.world ∧ a.world.library.destroyed.map Prod.fst = [.connection] ∧
      a.world.library.handles.values = [.environment, .connection, .statement, .resultset] ∧
      a.wrappersOf 4 = 1 ∧ (a.world.nodes.get? 4).map Node.released = some true := by
  refine ⟨Reachable.ownershipLaw (runs_play ?_), by decide +kernel, by decide +kernel, by decide +kernel,
    by decide +kernel⟩
  exact ⟨trivial, by decide +kernel, nofun, by decide +kernel, trivial, by decide +kernel, trivial,
    by decide +kernel, trivial, by decide +kernel, trivial, by decide +kernel, trivial, by decide +kernel,
    trivial, by decide +kernel, trivial, by decide +kernel, trivial⟩

end Application
end DbClient
