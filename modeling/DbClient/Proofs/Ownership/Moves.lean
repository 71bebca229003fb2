import DbClient.Proofs.Ownership.World

/-! Ownership along all moves of a client that wraps no handle itself: the forest grows with what is created
and lent, releases destroy what is owned, and resultsets come and go with executions. -/
namespace DbClient
namespace Owns
open World Library
variable {t : Terms} {w w' : World} {id i j p : Nat} {n m node : Node} {l : Library}

/-! ### Growth -/

/-- A live node stays what it is when the forest grows. -/
lemma live_grow (hf : w.Forest) (h : Fits node w) (hl : w.Live i m) :
    ∃ m', (w.grow node).Live i m' ∧ m'.stem = m.stem := by
  refine ⟨_, ⟨hf.get?_grow_of_get? h hl.1, ?_⟩, ?_⟩
  · split <;> exact hl.2
  · split <;> rfl

lemma live_of_grow (hf : w.Forest) (h : Fits node w) (hl : (w.grow node).Live i m) :
    i = w.nodes.next ∧ m = node ∨ ∃ m', w.Live i m' ∧ m'.stem = m.stem := by
  obtain hnew | ⟨-, m', hm', rfl⟩ := hf.grow_cases h hl.1
  · exact .inl hnew
  · refine .inr ⟨m', ⟨hm', ?_⟩, ?_⟩
    · simpa [apply_ite Node.released, Node.addChild] using hl.2
    · split <;> rfl

/-- The native handle above a live node stays when the forest grows. -/
lemma nativeOf_grow (hf : w.Forest) (h : Fits node w) {parent : Option Nat}
    (hp : ∀ p, parent = some p → ∃ m, w.nodes.get? p = some m) :
    (w.grow node).nativeOf parent = w.nativeOf parent := by
  obtain _ | p := parent
  · rfl
  · obtain ⟨m, hm⟩ := hp p rfl
    rw [nativeOf_some hm, nativeOf_some (hf.get?_grow_of_get? h hm)]
    split <;> rfl

/-- A new node owns a handle that nobody had before, or it wraps a resultset of its parent. -/
theorem grow (hw : Owns t w) (hf : w.Forest) (h : Fits node w) (coherent : l.Coherent)
    (has : ∀ k q a, l.Has k q a ↔
      (node.owned = true ∧ k = node.kind ∧ q = w.nativeOf node.parent ∧ a = node.native) ∨ w.library.Has k q a)
    (lists : ∀ s r, r ∈ w.library.listed s → r ∈ l.listed s)
    (new : node.owned = true → ∀ i m, w.Live i m → m.native ≠ node.native)
    (lent : node.owned = false → node.kind = .resultset ∧ ∃ p m, node.parent = some p ∧ w.Live p m ∧
      m.owned = true ∧ node.native ∈ l.listed m.native)
    (failures : l.failures = w.library.failures) (calls : ∀ c ∈ l.calls, c.Proper t l) :
    Owns t (World.grow node { w with library := l }) := by
  have hv : World.Forest { w with library := l } := hf.congr hf.table hf.envs (fun _ => rfl) fun _ => rfl
  have hfits : Fits node { w with library := l } := ⟨h.fresh, h.bare, h.parent, h.env, h.unknown⟩
  have stays : ∀ i m, w.Live i m →
      ∃ m', (World.grow node { w with library := l }).Live i m' ∧ m'.stem = m.stem :=
    fun i m hm => live_grow (w := { w with library := l }) hv hfits hm
  refine ⟨?_, fun i m hm hmo => ?_, fun i j n m hi hj hno hmo he => ?_, fun i m hm hmo => ?_, fun ht => ?_,
    fun ht k q a ha => ?_, fun c hcm => ?_⟩
  · rw [library_grow]
    exact coherent
  · rw [library_grow, has]
    obtain ⟨rfl, rfl⟩ | ⟨m', hm', hs⟩ := live_of_grow hv hfits hm
    · rw [nativeOf_grow hv hfits fun p hp => (h.parent p hp).imp fun _ h => h.1]
      exact .inl ⟨hmo, rfl, rfl, rfl⟩
    · obtain ⟨e1, e2, e3, e4⟩ := Node.of_stem hs
      rw [← e1, ← e2, ← e4, nativeOf_grow hv hfits fun p hp => (hf.parent_live hm'.1 hp).imp fun _ h => h.1.1]
      exact .inr (hw.owned i m' hm' (e3.trans hmo))
  · obtain ⟨rfl, rfl⟩ | ⟨n', hn', hs⟩ := live_of_grow hv hfits hi
    · obtain ⟨rfl, rfl⟩ | ⟨m', hm', hs'⟩ := live_of_grow hv hfits hj
      · rfl
      · exact absurd ((Node.of_stem hs').1.trans he.symm) (new hno j m' hm')
    · obtain ⟨rfl, rfl⟩ | ⟨m', hm', hs'⟩ := live_of_grow hv hfits hj
      · exact absurd ((Node.of_stem hs).1.trans he) (new hmo i n' hn')
      · obtain ⟨e1, -, e3, -⟩ := Node.of_stem hs
        obtain ⟨e1', -, e3', -⟩ := Node.of_stem hs'
        exact hw.unique i j n' m' hn' hm' (e3.trans hno) (e3'.trans hmo) (e1.trans (he.trans e1'.symm))
  · have hlent : m.kind = .resultset ∧ ∃ p q, m.parent = some p ∧ w.Live p q ∧ q.owned = true ∧
        m.native ∈ l.listed q.native := by
      obtain ⟨rfl, rfl⟩ | ⟨m', hm', hs⟩ := live_of_grow hv hfits hm
      · exact lent hmo
      · obtain ⟨e1, e2, e3, e4⟩ := Node.of_stem hs
        obtain ⟨hk, p, q, hp, hq, hqo, hr⟩ := hw.lent i m' hm' (e3.trans hmo)
        exact ⟨e2.symm.trans hk, p, q, e4.symm.trans hp, hq, hqo, lists _ _ (e1 ▸ hr)⟩
    obtain ⟨hk, p, q, hp, hq, hqo, hr⟩ := hlent
    obtain ⟨q', hq', hs'⟩ := stays p q hq
    obtain ⟨e1', -, e3', -⟩ := Node.of_stem hs'
    refine ⟨hk, p, q', hp, hq', e3'.trans hqo, ?_⟩
    rw [library_grow, e1']
    exact hr
  · rw [library_grow]
    exact failures ▸ hw.sturdy ht
  · rw [library_grow, has] at ha
    obtain ⟨ho, -, -, rfl⟩ | ha := ha
    · exact ⟨_, node, ⟨hv.get?_grow_next hfits, h.fresh⟩, ho, rfl⟩
    · obtain ⟨i, m, hm, hmo, rfl⟩ := hw.kept ht k q a ha
      obtain ⟨m', hm', hs⟩ := stays i m hm
      obtain ⟨e1, -, e3, -⟩ := Node.of_stem hs
      exact ⟨i, m', hm', e3.trans hmo, e1⟩
  · rw [library_grow] at hcm ⊢
    exact calls c hcm

/-- A handle has been created and gets its node. -/
theorem adopt (hw : Owns t w) (hf : w.Forest) (h : Fits node w) (ho : node.owned = true)
    (hc : Created node.kind (w.nativeOf node.parent) node.native w.library l) :
    Owns t (World.grow node { w with library := l }) := by
  have hremember := hw.coherent.remembers_created hc
  have hunborn := hw.coherent.unborn_created hc
  refine hw.grow hf h (hw.coherent.created hc) (fun k q a => ?_) (fun s r hr => ?_) (fun _ i m hm e => ?_)
    (fun hno => ?_) hc.failures fun c hcm => ?_
  · rw [Has, Has, hc.handles, hc.origins, Assoc.get?_put, Assoc.get?_put]
    by_cases e : node.native = a
    · subst e
      simp [ho, hunborn.1, eq_comm]
    · simp [e, Ne.symm e]
  · rw [hw.coherent.listed_created hc]
    exact hr
  · have := hw.alive hm
    rw [e, isAlive_eq_false.mpr hunborn.1] at this
    cases this
  · rw [ho] at hno
    cases hno
  · rw [hc.calls] at hcm
    rcases List.mem_append.mp hcm with hcm | hcm
    · exact (hw.calls c hcm).mono hremember
    · obtain rfl := List.mem_singleton.mp hcm
      refine Call.Proper.mono ⟨?_, hw.coherent.born, fun _ he => by cases he⟩ hremember
      exact hc.under.symm.imp_right fun h => ⟨rfl, h⟩

/-- A resultset that a statement lists gets its node. -/
theorem lend (hw : Owns t w) (hf : w.Forest) (h : Fits node w) (ho : node.owned = false)
    (hk : node.kind = .resultset) (hp : node.parent = some p) (hl : w.Live p m)
    (hr : node.native ∈ w.library.listed m.native) : Owns t (w.grow node) := by
  have hm : m.owned = true := by
    refine hw.owned_of_stmts hl (Option.isSome_iff_ne_none.mpr fun hn => ?_)
    rw [Library.listed, hn] at hr
    cases hr
  exact hw.grow (l := w.library) hf h hw.coherent (fun k q a => by simp [ho]) (fun _ _ hr => hr)
    (fun hno => by rw [ho] at hno; cases hno) (fun _ => ⟨hk, p, m, hp, hl, hm, hr⟩) rfl hw.calls

/-! ### Releases -/

lemma live_of_retire (hf : w.Forest) (hl : w.Live j n) (hi : (w.retire j).Live i m) :
    i ≠ j ∧ ∃ m', w.Live i m' ∧ m'.stem = m.stem := by
  obtain ⟨-, rfl⟩ | ⟨hne, m', hm', rfl⟩ := hf.retire_cases hl hi.1
  · cases hi.2
  · exact ⟨hne, m', ⟨hm', hi.2⟩, rfl⟩

lemma live_retire (hf : w.Forest) (hl : w.Live j n) (hi : w.Live i m) (hne : i ≠ j) :
    ∃ m', (w.retire j).Live i m' ∧ m'.stem = m.stem := by
  refine ⟨m.dropChild j, ⟨?_, hi.2⟩, rfl⟩
  rw [hf.get?_retire hl, if_neg (Ne.symm hne), hi.1]
  rfl

/-- Nothing that was created under the handle of a leaf is alive. -/
lemma nothing_below {k : HandleKind} {a : Address} (hw : Owns t w) (hf : w.Forest) (hl : w.Live j n)
    (ho : n.owned = true) (hc : n.children = []) (ht : t.faults = false) : ¬w.library.Has k n.native a := by
  intro ha
  obtain ⟨i, m, hm, hmo, rfl⟩ := hw.kept ht k _ a ha
  have hown := (hw.owned i m hm hmo).2
  rw [ha.2] at hown
  have hparent : n.native = w.nativeOf m.parent := by
    injection (Option.some.inj hown)
  have hn := hw.owned j n hl ho
  cases hp : m.parent with
  | none =>
    rw [hp, nativeOf_none] at hparent
    have := (hw.coherent.numbered _ _ hn.2).1
    rw [hparent] at this
    exact absurd this (by decide)
  | some p =>
    obtain ⟨q, hq, hmem⟩ := hf.parent_live hm.1 hp
    rw [hp, nativeOf_some hq.1] at hparent
    have hpj := hw.unique_of_has hl hq hn hparent.symm
    subst hpj
    rw [hq.unique hl, hc] at hmem
    cases hmem

/-- A leaf goes, and with it what it owned, if anything does. -/
theorem shrink (hw : Owns t w) (hf : w.Forest) (hl : w.Live j n) (hc : n.children = [])
    (coherent : (w.retire j).library.Coherent)
    (has : ∀ k q a, w.library.Has k q a → (n.owned = true → a ≠ n.native) → (w.retire j).library.Has k q a)
    (made : t.faults = false → ∀ k q a, (w.retire j).library.Has k q a →
      w.library.Has k q a ∧ (n.owned = true → a ≠ n.native))
    (lists : ∀ s r, (n.owned = true → s ≠ n.native) → r ∈ w.library.listed s →
      r ∈ (w.retire j).library.listed s)
    (sturdy : t.faults = false → (w.retire j).library.failures.get? .destroy = none)
    (calls : ∀ c ∈ (w.retire j).library.calls, c.Proper t (w.retire j).library) : Owns t (w.retire j) := by
  -- the parents of the other nodes stay, for a leaf is the parent of none
  have hparent : ∀ i m p, w.Live i m → m.parent = some p → p ≠ j := by
    rintro i m p hm hp rfl
    obtain ⟨q, hq, hmem⟩ := hf.parent_live hm.1 hp
    rw [hq.unique hl, hc] at hmem
    cases hmem
  have hnative : ∀ i m, w.Live i m → (w.retire j).nativeOf m.parent = w.nativeOf m.parent := by
    intro i m hm
    refine nativeOf_congr fun p hp => ?_
    obtain ⟨q, hq, -⟩ := hf.parent_live hm.1 hp
    obtain ⟨q', hq', hs⟩ := live_retire hf hl hq (hparent i m p hm hp)
    exact ⟨q, q', hq.1, hq'.1, (Node.of_stem hs).1⟩
  have hother : ∀ i m, w.Live i m → m.owned = true → i ≠ j → n.owned = true → m.native ≠ n.native :=
    fun i m hm hmo hne ho e => hne (hw.unique i j m n hm hl hmo ho e)
  refine ⟨coherent, fun i m hm hmo => ?_, fun i k m q hi hk hmo hqo he => ?_, fun i m hm hmo => ?_, sturdy,
    fun ht k q a ha => ?_, calls⟩
  · obtain ⟨hne, m', hm', hs⟩ := live_of_retire hf hl hm
    obtain ⟨e1, e2, e3, e4⟩ := Node.of_stem hs
    rw [← e1, ← e2, ← e4, hnative i m' hm']
    exact has _ _ _ (hw.owned i m' hm' (e3.trans hmo)) (hother i m' hm' (e3.trans hmo) hne)
  · obtain ⟨-, m', hm', hs⟩ := live_of_retire hf hl hi
    obtain ⟨-, q', hq', hs'⟩ := live_of_retire hf hl hk
    obtain ⟨e1, -, e3, -⟩ := Node.of_stem hs
    obtain ⟨e1', -, e3', -⟩ := Node.of_stem hs'
    exact hw.unique i k m' q' hm' hq' (e3.trans hmo) (e3'.trans hqo) (e1.trans (he.trans e1'.symm))
  · obtain ⟨-, m', hm', hs⟩ := live_of_retire hf hl hm
    obtain ⟨e1, e2, e3, e4⟩ := Node.of_stem hs
    obtain ⟨hk, p, q, hp, hq, hqo, hr⟩ := hw.lent i m' hm' (e3.trans hmo)
    have hpj := hparent i m' p hm' hp
    obtain ⟨q', hq', hs'⟩ := live_retire hf hl hq hpj
    obtain ⟨e1', -, e3', -⟩ := Node.of_stem hs'
    refine ⟨e2.symm.trans hk, p, q', e4.symm.trans hp, hq', e3'.trans hqo, ?_⟩
    rw [← e1, e1']
    exact lists _ _ (hother p q hq hqo hpj) hr
  · obtain ⟨ha, hne⟩ := made ht k q a ha
    obtain ⟨i, m, hm, hmo, rfl⟩ := hw.kept ht k q a ha
    have hij : i ≠ j := by
      rintro rfl
      exact hne (hm.unique hl ▸ hmo) (by rw [hm.unique hl])
    obtain ⟨m', hm', hs⟩ := live_retire hf hl hm hij
    obtain ⟨e1, -, e3, -⟩ := Node.of_stem hs
    exact ⟨i, m', hm', e3.trans hmo, e1⟩

/-- The release of a leaf destroys what the leaf owns. -/
theorem retire (hw : Owns t w) (hf : w.Forest) (hl : w.Live j n) (hc : n.children = []) :
    Owns t (w.retire j) := by
  have hlib := (retire_around hl.1 (hf.linked.parent_ne hl.1)).1
  by_cases ho : n.owned = true
  · have hn := hw.owned j n hl ho
    -- the call for destruction, if it is kept in memory, is a proper one
    have hcall : ∀ l : Library, w.library.Remembers l →
        l.calls = w.library.calls ++ [⟨some .destroy, n.native, w.library.handles⟩] →
          ∀ c ∈ l.calls, c.Proper t l := by
      intro l hr hcalls c hcm
      rw [hcalls] at hcm
      rcases List.mem_append.mp hcm with hcm | hcm
      · exact (hw.calls c hcm).mono hr
      · obtain rfl := List.mem_singleton.mp hcm
        refine Call.Proper.mono ⟨.inl hn.alive, hw.coherent.born, fun ht _ a ha he => ?_⟩ hr
        obtain ⟨k, hk⟩ := Assoc.contains_iff.mp ha
        exact hw.nothing_below hf hl ho hc ht (k := k) ⟨hk, he⟩
    rw [if_pos ho] at hlib
    obtain ⟨hwhy, hk⟩ | ⟨-, hd⟩ := letGo_spec n.kind n.native w.library
    · have hfail : t.faults ≠ false := fun ht => by
        obtain hsome | hdead := hwhy
        · rw [hw.sturdy ht] at hsome
          cases hsome
        · rw [hn.alive] at hdead
          cases hdead
      rw [← hlib] at hk
      have hsame := hk.same
      refine hw.shrink hf hl hc (hw.coherent.same hsame) (fun k q a ha _ => ?_) (fun ht => absurd ht hfail)
        (fun s r _ hr => by rwa [hsame.listed]) (fun ht => absurd ht hfail) (hcall _ ?_ hk.calls)
      · rw [Has, hk.handles, hk.origins]
        exact ha
      · intro a o ha
        rw [hk.origins, ha]
    · rw [← hlib] at hd
      refine hw.shrink hf hl hc (hw.coherent.destroyed hn hd) (fun k q a ha hne =>
        hw.coherent.has_destroyed hd ha (hne ho)) (fun _ k q a ha => ?_) (fun s r hs hr => ?_)
        (fun ht => hd.failures ▸ hw.sturdy ht) (hcall _ ?_ hd.calls)
      · have hold := (Coherent.alive_destroyed hd).mp ha.alive
        have hh := ha.1
        rw [hd.handles, if_neg (not_or.mpr hold.1)] at hh
        exact ⟨⟨hh, hd.origins ▸ ha.2⟩, fun _ => hold.1.1⟩
      · rw [Coherent.listed_destroyed hd, if_neg (hs ho)]
        exact hr
      · intro a o ha
        rw [hd.origins, ha]
  · rw [if_neg ho] at hlib
    exact hw.shrink hf hl hc (hlib ▸ hw.coherent) (fun k q a ha _ => hlib.symm ▸ ha)
      (fun _ k q a ha => ⟨hlib ▸ ha, fun h => absurd h ho⟩) (fun s r _ hr => hlib.symm ▸ hr)
      (fun ht => hlib.symm ▸ hw.sturdy ht) (hlib.symm ▸ hw.calls)

/-- The number of a new handle has never been wrapped. -/
lemma stranger {kind : HandleKind} {parent native : Address} (hw : Owns t w) (hf : w.Forest)
    (hc : Created kind parent native w.library l) (env : Nat) : w.stored? env native = none := by
  cases hid : w.stored? env native with
  | none => rfl
  | some id =>
    obtain ⟨n, hl, -, rfl⟩ := hf.stored env native id hid
    have halive := hw.alive hl
    rw [isAlive_eq_false.mpr (hw.coherent.unborn_created hc).1] at halive
    cases halive

theorem release (hw : Owns t w) (hf : w.Forest) (hl : w.Live id n) : Owns t (w.release id).2 :=
  (hf.release_induction hl hw fun _ _ _ hv hp hj hc => hp.retire hv hj hc).2

theorem drop (hw : Owns t w) (hf : w.Forest) (id : Nat) : Owns t (Wrapper.drop ⟨some id⟩ w) :=
  hf.drop_induction id (hw.modifyNode (f := Node.fewer) (fun _ => rfl) id)
    fun _ _ _ hv hp hj hc => hp.retire hv hj hc

/-! ### Calls of the library -/

/-- The call of a primitive with the native handle of a live node, destruction apart. -/
lemma called (hw : Owns t w) {op : Primitive} (hl : w.Live id n) (hop : op ≠ .destroy)
    (hc : l.calls = w.library.calls ++ [⟨some op, n.native, w.library.handles⟩]) :
    ∃ cs, l.calls = w.library.calls ++ cs ∧ ∀ c ∈ cs, c.Proper t w.library := by
  refine ⟨_, hc, fun c hm => ?_⟩
  obtain rfl := List.mem_singleton.mp hm
  exact hw.proper rfl (by simpa using hop) (.inl ⟨id, n, hl, rfl⟩)

theorem quiet (hw : Owns t w) (h : Quiet w w') : Owns t w' := by
  have hlib := h.library
  obtain ⟨cs, hcs, hc⟩ := hlib.calls
  have hlibrary : Owns t { w with library := w'.library } := hw.same hlib.same hlib.failures
    ⟨cs, hcs, fun c hm => hw.proper (hc c hm).1 (hc c hm).2.1 (hc c hm).2.2⟩
  exact hlibrary.congr (fun id => by rw [h.nodes]) rfl

theorem prepared {sql : String} {mode : PrepareMode} (hw : Owns t w) (hf : w.Forest) (hl : w.Live id n)
    (hc : w.Cleared n) (hp : Prepared n.native sql mode w.library l) : Owns t { w with library := l } :=
  hw.renewed hp.renewed hl rfl hp.known hf hc (fun h => hp.failures ▸ h) (hw.called hl (by simp) hp.calls)

theorem boundTo {d : BindDesc} (hw : Owns t w) (hl : w.Live id n) (hb : BoundTo n.native d w.library l) :
    Owns t { w with library := l } :=
  hw.same hb.same (fun h => hb.failures ▸ h) (hw.called hl (by simp) hb.calls)

theorem executed {memory memory' : Memory} {opened : List Address} (hw : Owns t w) (hf : w.Forest)
    (hl : w.Live id n) (hc : w.Cleared n) (he : Executed n.native memory memory' opened w.library l) :
    Owns t { w with library := l } := by
  obtain ⟨st, -, -, -, hst, -⟩ := he.stmts
  exact hw.renewed he.renewed hl rfl (by rw [hst]; rfl) hf hc (fun h => he.failures ▸ h)
    (hw.called hl (by simp) he.calls)

end Owns

open World Library
variable {t : Terms} {hs hs' : Multiset Nat} {w w' : World}

/-- Each move of a client that wraps no handle itself keeps nodes and native handles together. -/
theorem Move.owns (ht : t.foreign = false) (h : Move t hs w hs' w') (hs : Sound hs w) (hw : Owns t w) :
    Owns t w' := by
  have hforeign : t.foreign ≠ true := fun e => by
    rw [ht] at e
    cases e
  have hf := hs.forest
  cases h with
  | quiet h => exact hw.quiet h
  | foreign h => exact absurd h hforeign
  | fault hfault e =>
    have hno : t.faults ≠ false := fun e => by
      rw [hfault] at e
      cases e
    exact ⟨hw.coherent.same ⟨rfl, rfl, rfl, rfl, fun _ => rfl, fun _ => rfl⟩, hw.owned, hw.unique, hw.lent,
      fun h => absurd h hno, hw.kept, fun c hc => (hw.calls c hc).mono fun _ _ h => h⟩
  | openEnv => exact hw.congr (fun _ => rfl) rfl
  | acquire => exact hw.modifyNode (f := fun n => { n with holders := n.holders + 1 }) (fun _ => rfl) _
  | drop id => exact hw.drop hf id
  | release hl => exact hw.release hf hl
  | wrap h => exact absurd h hforeign
  | adopt hc hfits _ ho => exact hw.adopt hf hfits ho (created hc)
  | known hc hstored =>
    rw [hw.stranger hf (created hc)] at hstored
    cases hstored
  | lend hl hp hst hr hfits _ ho hk =>
    exact hw.lend hf hfits ho hk hp hl (by rw [listed_of_get? hst]; exact hr)
  | keep hl => exact hw.still ((Still.extra _ _ w).trans (.freeBuffers _ _)) rfl
  | tune hl => exact hw.still (.keeping _ _ _) rfl
  | close sql hl => exact hw.still ((Still.keeping _ _ w).trans (.freeBuffers _ _)) rfl
  | renew hl _ hc hp => exact (hw.prepared hf hl hc (prepared hp)).still (.keeping _ _ _) rfl
  | @bind _ _ id n d plan l log hl _ _ _ hb =>
    have hbound := hw.boundTo hl (boundTo hb)
    have hmade : Still { w with library := l } { (BindObject.place plan w).2 with library := l, log := log } :=
      .of_eq rfl rfl rfl
    exact hbound.still (hmade.trans (.rebound id d _ _)) rfl
  | execute hl hc he =>
    obtain ⟨opened, he⟩ := executed he
    exact (hw.executed hf hl hc he).congr (fun _ => rfl) rfl

theorem Path.owns {a b : Multiset Nat × World} (ht : t.foreign = false) (h : Path t a b) (hs : Sound a.1 a.2)
    (hw : Owns t a.2) : Owns t b.2 := by
  induction h with
  | refl => exact hw
  | tail hp hm ih => exact hm.owns ht (Path.sound hp hs) ih

end DbClient
