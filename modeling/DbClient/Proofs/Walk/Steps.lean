import DbClient.Proofs.Outcomes
import DbClient.Proofs.Walk.Chain
import DbClient.Proofs.Walk.Cursors

/-! The steps of a walk over the resultsets of a statement: the first resultset is taken, its cursor moves from row to
row, and the next one is taken. None of them fails while the chain is on offer. -/
namespace DbClient
open Act World

/-! ### Primitives -/

namespace Library
variable {l l' : Library} {stmt r : Address} {st : NativeStatement} {c : Cursor} {taken : Option Nat}

/-- A statement has been asked for a resultset, and remembers which one it gave last. -/
structure Taken (stmt : Address) (st : NativeStatement) (taken : Option Nat) (l l' : Library) : Prop where
  stmts : l'.stmts.get? stmt = some { st with cursor := taken }
  rsets : l'.rsets = l.rsets
  failures : l'.failures = l.failures
  error : l'.error = none

/-- The first resultset is the head of the chain. -/
lemma resultset_goes (hst : l.stmts.get? stmt = some st) (hf : l.failures.get? .resultset = none) :
    ∃ l', resultset stmt l = (st.resultsets.head?, l') ∧
      Taken stmt st (if st.resultsets = [] then st.cursor else some 0) l l' := by
  have hf' : (l.called (some .resultset) stmt).failures.get? .resultset = none := hf
  have hst' : (l.called (some .resultset) stmt).stmts.get? stmt = some st := hst
  simp only [resultset, run, hf', hst']
  cases hr : st.resultsets with
  | nil => exact ⟨_, rfl, hst, rfl, rfl, rfl⟩
  | cons first rest => exact ⟨_, rfl, by simp [hr], rfl, rfl, rfl⟩

/-- The next resultset is the one behind the last that was taken. -/
lemma nextResultset_goes (hst : l.stmts.get? stmt = some st) (hf : l.failures.get? .resultset = none)
    {k : Nat} (hk : st.cursor = some k) :
    ∃ l', nextResultset stmt l = (st.resultsets[k + 1]?, l') ∧
      Taken stmt st (some (min (k + 1) st.resultsets.length)) l l' := by
  have hf' : (l.called (some .resultset) stmt).failures.get? .resultset = none := hf
  have hst' : (l.called (some .resultset) stmt).stmts.get? stmt = some st := hst
  simp only [nextResultset, run, hf', hst', hk]
  exact ⟨_, rfl, by simp, rfl, rfl, rfl⟩

end Library

variable {t : Terms} {hs : Multiset Nat} {w w' v : World} {id j : Nat} {n m : Node}

/-! ### Taking resultsets -/

/-- A resultset that a live statement lists can be wrapped; no node changes but in its wrappers and its children. -/
lemma Wrapper.wrap_goes {env : Nat} {h : Wrapper} {r : Address} (hf : w.Forest) (he : w.Housed env)
    (hid : h.node = some id) (hl : w.Live id n) (hnull : r.isNull = false) :
    ∃ h' v, (wrap env r .resultset (some h) false .nothing).run w = (.ok h', v) ∧ v.library = w.library ∧
      (∀ i, Upholds i w v) ∧ ∃ j m, h'.node = some j ∧ v.Live j m ∧ m.native = r := by
  obtain ⟨q, v, hrun, hcases⟩ := wrap_cases hf env r .resultset (some h) false .nothing
  obtain ⟨e, -, -, hwhy⟩ | ⟨j, m, hstored, hm, -, rfl, rfl⟩ | ⟨p, hnone, hp, rfl, rfl⟩ := hcases
  · obtain hz | ⟨ho, -⟩ | hno := hwhy
    · rw [hnull] at hz
      cases hz
    · cases ho
    · exact absurd ⟨id, n, hid, hl, rfl⟩ (hno (some id))
  · obtain ⟨m', hm', -, rfl⟩ := hf.stored _ _ _ hstored
    obtain rfl := hm.unique hm'
    have hup : ∀ i, Upholds i w (acquire j w).2 := fun i =>
      .modifyNode (f := fun n => { n with holders := n.holders + 1 }) (fun _ => ⟨rfl, rfl, rfl⟩) j w
    obtain ⟨k, hk, hnative, -⟩ := hup j m hm
    exact ⟨_, _, hrun, rfl, hup, j, k, rfl, hk, hnative⟩
  · have hfits : Fits (Node.wrapping env r .resultset p false .nothing) w := fits_wrapping hnone hp he
    exact ⟨_, _, hrun, library_grow _ _, fun i => .grow hf hfits, _, _, rfl, ⟨hf.get?_grow_next hfits, rfl⟩, rfl⟩

namespace Act.Ends
variable {α β : Type} {P : Except ClientError β → World → Prop} {dress : ClientError → ClientError}
  {f : Library → Option α × Library} {g : Option α → Act β} {l : Library}

/-- A primitive that may find nothing, and leaves no error. -/
lemma optionalOf {r : Option α} (hf : f w.library = (r, l)) (he : l.error = none)
    (hg : ∀ l', l'.stmts = l.stmts → l'.rsets = l.rsets → l'.failures = l.failures →
      Ends (g r) { w with library := l' } P) : Ends (Act.optional dress f >>= g) w P := by
  unfold Act.optional
  rw [bind_assoc]
  have hn : (native f).run w = (.ok r, { w with library := l }) := by rw [run_native, hf]
  refine after hn ?_
  cases r with
  | some x => exact hg l rfl rfl rfl
  | none =>
    have ht : (native Library.takeError).run { w with library := l } =
        (.ok none, { w with library := { l with error := none } }) := by
      rw [run_native]
      simp only [Library.takeError, he]
    dsimp only
    rw [bind_assoc]
    exact after ht (hg _ rfl rfl rfl)

end Act.Ends

namespace Statement
variable {s : Statement} {chain : List (Address × Cursor)} {taken taken' : Option Nat} {found : Option Address}

/-- The outcome of taking a resultset from a chain on offer: it is wrapped, if there was one, and the chain is still on
offer. -/
structure Drawn (s : Statement) (chain : List (Address × Cursor)) (taken : Option Nat) (found : Option Address)
    (w : World) (r : Except ClientError (Option Resultset)) (w' : World) : Prop where
  offers : s.Offers chain taken w'
  upholds : ∀ i, Upholds i w w'
  ending : found = none → r = .ok none
  opening : ∀ h, found = some h → ∃ rs j m, r = .ok (some rs) ∧ rs.handle.node = some j ∧ w'.Live j m ∧ m.native = h

lemma ends_takeResultset {operation : String} {ask : Address → Library → Option Address × Library} (hw : Owns t w)
    (hf : w.Forest) (he : w.Housed s.env) (ho : s.Offers chain taken w)
    (hask : ∀ stmt st, w.library.stmts.get? stmt = some st → st.resultsets = chain.map Prod.fst → st.cursor = taken →
      ∃ l, ask stmt w.library = (found, l) ∧ Library.Taken stmt st taken' w.library l)
    (hfound : ∀ h, found = some h → h ∈ chain.map Prod.fst) :
    Ends (s.takeResultset operation ask) w (s.Drawn chain taken' found w) := by
  obtain ⟨id, n, d, st, hid, hl, hx, hstatus, hst, hr, htaken⟩ := ho.node
  obtain ⟨l, hans, htaken'⟩ := hask n.native st hst hr htaken
  unfold takeResultset
  refine Ends.liveOf hid hl (Ends.dataOf (data?_eq_some.mpr ⟨id, n, hid, hl, hx⟩) (Ends.requireStatus (fun _ => ?_) ?_))
  swap
  · intro hbelow
    rw [hstatus] at hbelow
    exact absurd hbelow (Nat.lt_irrefl _)
  refine Ends.optionalOf hans htaken'.error fun l' hstmts hrsets hfailures => ?_
  have hoffers : s.Offers chain taken' { w with library := l' } := by
    refine .of_node { st with cursor := taken' } hid hl hx hstatus ?_ hr rfl (fun p hp => ?_) ?_
    · change l'.stmts.get? n.native = _
      rw [hstmts]
      exact htaken'.stmts
    · change l'.rsets.get? p.1 = _
      rw [hrsets, htaken'.rsets]
      exact ho.cursors p hp
    · change l'.failures.get? _ = _ ∧ l'.failures.get? _ = _
      rw [hfailures, htaken'.failures]
      exact ho.calm
  have hup : ∀ i, Upholds i w { w with library := l' } := fun i => .of_nodes rfl
  cases found with
  | none => exact ⟨hoffers, hup, fun _ => rfl, fun h hh => by cases hh⟩
  | some r =>
    have hlisted : r ∈ w.library.listed n.native := by
      rw [Library.listed_of_get? hst, hr]
      exact hfound r rfl
    have hforest : World.Forest { w with library := l' } := hf.congr hf.table hf.envs (fun _ => rfl) fun _ => rfl
    obtain ⟨h, v, hwrap, hlib, hkept, j, m, hj, hm, hnative⟩ :=
      Wrapper.wrap_goes (w := { w with library := l' }) hforest he hid hl (hw.coherent.not_null hlisted)
    refine Ends.after hwrap ⟨hoffers.of_library (fun i _ => hkept i) hlib, fun i => (hup i).trans (hkept i),
      nofun, fun q hq => ?_⟩
    obtain rfl := Option.some.inj hq
    exact ⟨_, j, m, rfl, hj, hm, hnative⟩

/-- The first resultset of a chain on offer is taken. -/
theorem ends_resultset (hw : Owns t w) (hf : w.Forest) (he : w.Housed s.env) (ho : s.Offers chain taken w) :
    Ends s.resultset w (s.Drawn chain (if chain = [] then taken else some 0) (chain.head?.map Prod.fst) w) := by
  refine ends_takeResultset hw hf he ho (fun stmt st hst hr htaken => ?_) fun h hh => ?_
  · obtain ⟨l, hans, hl⟩ := Library.resultset_goes hst ho.calm.1
    rw [hr, List.head?_map] at hans
    rw [hr, htaken] at hl
    simp only [List.map_eq_nil_iff] at hl
    exact ⟨l, hans, hl⟩
  · rw [← List.head?_map] at hh
    exact List.mem_of_mem_head? hh

/-- The resultset behind the last that was taken is taken. -/
theorem ends_nextResultset {k : Nat} (hw : Owns t w) (hf : w.Forest) (he : w.Housed s.env)
    (ho : s.Offers chain (some k) w) :
    Ends s.nextResultset w
      (s.Drawn chain (some (min (k + 1) chain.length)) (chain[k + 1]?.map Prod.fst) w) := by
  refine ends_takeResultset hw hf he ho (fun stmt st hst hr htaken => ?_) fun h hh => ?_
  · obtain ⟨l, hans, hl⟩ := Library.nextResultset_goes hst ho.calm.1 htaken
    rw [hr, List.getElem?_map] at hans
    rw [hr, List.length_map] at hl
    exact ⟨l, hans, hl⟩
  · rw [← List.getElem?_map] at hh
    exact List.mem_of_getElem? hh

end Statement

/-! ### Moving cursors -/

namespace Resultset
variable {s : Statement} {front rest : List (Address × Cursor)} {taken : Option Nat} {h : Address} {c : Cursor}

/-- The cursor of an open resultset of a chain on offer moves on, and no other cursor does. -/
theorem run_next {rs : Resultset} (hc : w.library.Chains) (ho : s.Offers (front ++ (h, c) :: rest) taken w)
    (hj : rs.handle.node = some j) (hm : w.Live j m) (hnative : m.native = h) :
    ∃ w', rs.next.run w = (.ok (c.fetch .next).1, w') ∧ w'.nodes = w.nodes ∧
      s.Offers (front ++ (h, (c.fetch .next).2) :: rest) taken w' := by
  obtain ⟨id, n, d, st, hid, hl, hx, hstatus, hst, hr, htaken⟩ := ho.node
  have hnodup := ho.nodup hc
  rw [List.map_append, List.map_cons] at hnodup
  obtain ⟨hrun, hs⟩ := ends_fetch ⟨j, m, hj, hm, hnative⟩ (ho.cursors (h, c) (by simp)) ho.calm.2 .next
  refine ⟨_, Prod.ext hrun rfl, hs.nodes, ?_⟩
  refine .of_node st hid ⟨hs.nodes ▸ hl.1, hl.2⟩ hx hstatus (hs.stmts ▸ hst) (by simpa using hr) htaken
    (fun p hp => ?_) (hs.failures ▸ ho.calm)
  refine (hs.cursors p.1).trans ?_
  split
  · rename_i he
    -- the handle stands in the chain once
    obtain rfl : p = (h, (c.fetch .next).2) := by
      have hside := List.nodup_append.mp hnodup
      rcases List.mem_append.mp hp with hp | hp
      · exact absurd he.symm (hside.2.2 _ (List.mem_map_of_mem hp) _ (List.mem_cons_self))
      · rcases List.mem_cons.mp hp with rfl | hp
        · rfl
        · have hrest : h ∈ rest.map Prod.fst := he ▸ List.mem_map_of_mem hp
          exact absurd hrest (List.nodup_cons.mp hside.2.1).1
    rfl
  · rename_i hne
    refine ho.cursors p ?_
    rcases List.mem_append.mp hp with hp | hp
    · exact List.mem_append_left _ hp
    · rcases List.mem_cons.mp hp with rfl | hp
      · exact absurd rfl hne
      · exact List.mem_append_right _ (List.mem_cons_of_mem _ hp)

end Resultset
end DbClient
