import DbClient.Proofs.Ownership.Moves

/-! Numbers of native handles. They rise with every handle that is made, so that the handle that is created next is
none that there is. -/
namespace DbClient
namespace Library
variable {l l' l'' : Library} {a stmt : Address}

/-- The handle that is created next. -/
def upcoming (l : Library) : Address := ⟨l.next + 0x10⟩

lemma upcoming_of_create {kind : HandleKind} {parent : Address} (hc : create kind parent l = (some a, l')) :
    a = l.upcoming := congrArg Address.mk (created hc).fresh

/-- A handle is alive, or is kept as that of a statement. -/
def Knows (l : Library) (a : Address) : Prop := l.isAlive a = true ∨ (l.stmts.get? a).isSome = true

/-- What is known later was known before or has got its number in between, and destruction does not come to fail. -/
structure Advances (l l' : Library) : Prop where
  next : l.next ≤ l'.next
  knows : ∀ a, l'.Knows a → l.Knows a ∨ l.next < a.number ∧ a.number ≤ l'.next
  sturdy : l.failures.get? .destroy = none → l'.failures.get? .destroy = none

namespace Advances

@[refl] lemma refl (l : Library) : Advances l l := ⟨Nat.le_refl _, fun _ => .inl, id⟩

lemma trans (h : Advances l l') (h' : Advances l' l'') : Advances l l'' := by
  refine ⟨Nat.le_trans h.next h'.next, fun a ha => ?_, fun hs => h'.sturdy (h.sturdy hs)⟩
  have hn := h.next
  have hn' := h'.next
  obtain ha | ha := h'.knows a ha
  · exact (h.knows a ha).imp_right fun ⟨h1, h2⟩ => ⟨h1, by omega⟩
  · exact .inr ⟨by omega, by omega⟩

/-- Nothing comes to be known. -/
lemma of_fewer (next : l'.next = l.next) (handles : ∀ a, l'.isAlive a = true → l.isAlive a = true)
    (stmts : ∀ a, (l'.stmts.get? a).isSome = true → (l.stmts.get? a).isSome = true)
    (sturdy : l.failures.get? .destroy = none → l'.failures.get? .destroy = none) : Advances l l' :=
  ⟨Nat.le_of_eq next.symm, fun a ha => .inl (ha.imp (handles a) (stmts a)), sturdy⟩

lemma same (h : Same l l') (sturdy : l.failures.get? .destroy = none → l'.failures.get? .destroy = none) :
    Advances l l' := by
  refine of_fewer h.next (fun a ha => ?_) (fun a ha => ?_) sturdy
  · rwa [isAlive, h.handles] at ha
  · rwa [h.stmts] at ha

lemma renewed {opened : List Address} (h : Renewed stmt opened l l')
    (sturdy : l.failures.get? .destroy = none → l'.failures.get? .destroy = none) : Advances l l' := by
  refine ⟨h.next, fun a ha => ?_, sturdy⟩
  rcases ha with ha | ha
  · obtain ha | ⟨-, ha⟩ := (Coherent.alive_renewed h).mp ha
    · exact .inr (h.fresh a ha)
    · exact .inl (.inl ha)
  · rw [h.stmts] at ha
    exact .inl (.inr ha)

lemma created {kind : HandleKind} {parent : Address} (h : Created kind parent a l l') : Advances l l' := by
  have hnext := h.next
  have hfresh := h.fresh
  refine ⟨by omega, fun b hb => ?_, fun hs => h.failures ▸ hs⟩
  by_cases he : b = a
  · exact .inr ⟨by rw [he]; omega, by rw [he]; omega⟩
  · rcases hb with hb | hb
    · exact .inl (.inl ((Coherent.alive_created h).mp hb |>.resolve_left he))
    · rw [h.stmts] at hb
      split at hb
      · rw [Assoc.get?_put, if_neg (Ne.symm he)] at hb
        exact .inl (.inr hb)
      · exact .inl (.inr hb)

lemma destroyed {kind : HandleKind} (h : Destroyed kind a l l') : Advances l l' := by
  refine of_fewer h.next (fun b hb => ((Coherent.alive_destroyed h).mp hb).2) (fun b hb => ?_) fun hs => h.failures ▸ hs
  by_cases he : b = a
  · rw [he, h.stmts.1] at hb
    cases hb
  · rwa [h.stmts.2 b he] at hb

lemma letGo (kind : HandleKind) (a : Address) (l : Library) : Advances l (l.letGo kind a) := by
  obtain ⟨-, h⟩ | ⟨-, h⟩ := letGo_spec kind a l
  · exact same h.same h.failures
  · exact destroyed h

end Advances

/-- To destroy a handle and to let it go is the same but for the error that is left. -/
lemma letGo_eq (kind : HandleKind) (a : Address) (l : Library) :
    l.letGo kind a = (destroy kind a l).2 ∨ l.letGo kind a = { (destroy kind a l).2 with error := none } := by
  unfold letGo
  rcases destroy kind a l with ⟨_ | _, l'⟩
  · exact .inr rfl
  · exact .inl rfl

lemma Advances.destroy (kind : HandleKind) (a : Address) (l : Library) : Advances l (destroy kind a l).2 := by
  have h := Advances.letGo kind a l
  obtain he | he := letGo_eq kind a l <;> rw [he] at h
  · exact h
  · exact ⟨h.next, h.knows, h.sturdy⟩

end Library

namespace World
variable {w w' w'' : World} {id : Nat} {n node : Node} {l : Library}

/-- What a world knows later it knew before or has made in between, the handles that nodes own included. -/
structure Advances (w w' : World) : Prop where
  library : w.library.Advances w'.library
  owned : ∀ id n, w'.Live id n → n.owned = true → (∃ i m, w.Live i m ∧ m.owned = true ∧ m.native = n.native) ∨
    w.library.next < n.native.number ∧ n.native.number ≤ w'.library.next

namespace Advances

lemma trans (h : Advances w w') (h' : Advances w' w'') : Advances w w'' := by
  have hn := h.library.next
  have hn' := h'.library.next
  refine ⟨h.library.trans h'.library, fun id n hl ho => ?_⟩
  obtain ⟨i, m, hm, hmo, he⟩ | ⟨h1, h2⟩ := h'.owned id n hl ho
  · rw [← he]
    exact (h.owned i m hm hmo).imp_right fun ⟨h1, h2⟩ => ⟨h1, by omega⟩
  · exact .inr ⟨by omega, h2⟩

/-- No node comes to own a handle. -/
lemma of_stems (library : w.library.Advances w'.library)
    (back : ∀ id n, w'.Live id n → ∃ m, w.Live id m ∧ m.stem = n.stem) : Advances w w' := by
  refine ⟨library, fun id n hl ho => ?_⟩
  obtain ⟨m, hm, hs⟩ := back id n hl
  obtain ⟨e1, -, e3, -⟩ := Node.of_stem hs
  exact .inl ⟨id, m, hm, e3.trans ho, e1⟩

lemma of_nodes (library : w.library.Advances w'.library) (nodes : w'.nodes = w.nodes) : Advances w w' :=
  of_stems library fun _ n hl => ⟨n, ⟨nodes ▸ hl.1, hl.2⟩, rfl⟩

@[refl] lemma refl (w : World) : Advances w w := of_nodes (.refl _) rfl

lemma still (h : Still w w') (library : w.library.Advances w'.library) : Advances w w' :=
  of_stems library fun _ n hl => by
    obtain ⟨m, hm, hc⟩ := h.live_back hl
    exact ⟨m, hm, show m.core.stem = n.core.stem from congrArg Node.stem hc⟩

lemma modifyNode {f : Node → Node} (hf : ∀ n, (f n).stem = n.stem) (i : Nat) (w : World) :
    Advances w (w.modifyNode i f) := by
  refine of_stems (.refl _) fun id n hl => ?_
  obtain ⟨hn, hr⟩ := hl
  rw [nodes_modifyNode, Table.get?_modify] at hn
  split at hn
  · obtain ⟨m, hm, rfl⟩ := Option.map_eq_some_iff.mp hn
    exact ⟨m, ⟨hm, (congrArg Node.released (hf m)).symm.trans hr⟩, (hf m).symm⟩
  · exact ⟨n, ⟨hn, hr⟩, rfl⟩

lemma retire (hf : w.Forest) (hl : w.Live id n) : Advances w (w.retire id) := by
  refine of_stems ?_ fun i m hm => (Owns.live_of_retire hf hl hm).2
  rw [(retire_around hl.1 (hf.linked.parent_ne hl.1)).1]
  split
  · exact .letGo _ _ _
  · exact .refl _

/-- A node comes to what has just been created, or it owns nothing. -/
lemma grow (hf : w.Forest) (h : Fits node w) (library : w.library.Advances l)
    (ho : node.owned = true → w.library.next < node.native.number ∧ node.native.number ≤ l.next) :
    Advances w (World.grow node { w with library := l }) := by
  have hv : World.Forest { w with library := l } := hf.congr hf.table hf.envs (fun _ => rfl) fun _ => rfl
  refine ⟨by rwa [library_grow], fun i m hm hmo => ?_⟩
  obtain ⟨rfl, rfl⟩ | ⟨m', hm', hs⟩ := Owns.live_of_grow hv ⟨h.fresh, h.bare, h.parent, h.env, h.unknown⟩ hm
  · rw [library_grow]
    exact .inr (ho hmo)
  · obtain ⟨e1, -, e3, -⟩ := Node.of_stem hs
    exact .inl ⟨i, m', hm', e3.trans hmo, e1⟩

end Advances
end World

open World Library
variable {hs hs' : Multiset Nat} {w w' : World}

/-- Each move of a client that wraps no handle itself advances. -/
theorem Move.advances (h : Move ⟨false, false⟩ hs w hs' w') (hw : Sound hs w) : World.Advances w w' := by
  have hf := hw.forest
  have hstep : ∀ v j m, v.Forest → World.Advances w v → v.Live j m → m.children = [] →
      World.Advances w (v.retire j) := fun _ _ _ hv ha hl _ => ha.trans (.retire hv hl)
  cases h with
  | quiet h => exact .of_nodes (.same h.library.same h.library.failures) h.nodes
  | foreign ht => cases ht
  | fault ht => cases ht
  | openEnv => exact .of_nodes (.refl _) rfl
  | acquire => exact .modifyNode (f := fun n => { n with holders := n.holders + 1 }) (fun _ => rfl) _ w
  | drop id =>
    exact hf.drop_induction id (.modifyNode (f := Node.fewer) (fun _ => rfl) id w) hstep
  | release hl => exact (hf.release_induction hl (.refl w) hstep).2
  | wrap ht => cases ht
  | adopt hc hfits =>
    have hcreated := Library.created hc
    have hfresh := hcreated.fresh
    have hnext := hcreated.next
    exact .grow hf hfits (.created hcreated) fun _ => ⟨by omega, by omega⟩
  | known hc _ hl =>
    have hcreated := Library.Advances.created (Library.created hc)
    obtain rfl | rfl := hl
    · exact .of_nodes hcreated rfl
    · exact .of_nodes (hcreated.trans (.destroy _ _ _)) rfl
  | lend _ _ _ _ hfits _ ho =>
    exact .grow (l := w.library) hf hfits (.refl _) fun h => by rw [ho] at h; cases h
  | keep => exact .still ((Still.extra _ _ w).trans (.freeBuffers _ _)) (.refl _)
  | tune => exact .still (.keeping _ _ w) (.refl _)
  | close => exact .still ((Still.keeping _ _ w).trans (.freeBuffers _ _)) (.refl _)
  | @renew _ _ id _ d sql mode l _ _ _ hp =>
    have hprepared := Library.prepared hp
    have hlib : Still w { w with library := l } := .of_eq rfl rfl rfl
    exact .still (hlib.trans (.keeping _ id _)) (.renewed hprepared.renewed fun hs => hprepared.failures ▸ hs)
  | @bind _ _ id _ d plan l log _ _ _ _ hb =>
    have hbound := Library.boundTo hb
    have hmade : Still w { (BindObject.place plan w).2 with library := l, log := log } := .of_eq rfl rfl rfl
    exact .still (hmade.trans (.rebound id d _ _)) (.same hbound.same fun hs => hbound.failures ▸ hs)
  | execute _ _ he =>
    obtain ⟨opened, hexecuted⟩ := Library.executed he
    exact .of_nodes (.renewed hexecuted.renewed fun hs => hexecuted.failures ▸ hs) rfl

theorem Path.advances {a b : Multiset Nat × World} (h : Path ⟨false, false⟩ a b) (hw : Sound a.1 a.2) :
    World.Advances a.2 b.2 := by
  induction h with
  | refl => exact .refl _
  | tail hp hm ih => exact ih.trans (hm.advances (Path.sound hp hw))

/-- All handles that are known or owned have got their numbers, and destruction is not made to fail. -/
structure World.Numbered (w : World) : Prop where
  knows : ∀ a, w.library.Knows a → a.number ≤ w.library.next
  owned : ∀ id n, w.Live id n → n.owned = true → n.native.number ≤ w.library.next
  sturdy : w.library.failures.get? .destroy = none

lemma World.numbered_fresh : World.fresh.Numbered := by
  refine ⟨?_, by simp [World.fresh, Live], rfl⟩
  rintro a (h | h)
  · exact absurd (show false = true from h) Bool.false_ne_true
  · exact absurd (show false = true from h) Bool.false_ne_true

lemma World.Numbered.advance (h : w.Numbered) (ha : World.Advances w w') : w'.Numbered := by
  have hn := ha.library.next
  refine ⟨fun a hk => ?_, fun id n hl ho => ?_, ha.library.sturdy h.sturdy⟩
  · obtain hk | ⟨-, hk⟩ := ha.library.knows a hk
    · exact Nat.le_trans (h.knows a hk) hn
    · exact hk
  · obtain ⟨i, m, hm, hmo, he⟩ | ⟨-, hk⟩ := ha.owned id n hl ho
    · exact he ▸ Nat.le_trans (h.owned i m hm hmo) hn
    · exact hk

namespace World.Numbered
variable {kind : HandleKind} {parent native : Address} {l : Library} {id : Nat} {n : Node}
  (h : w.Numbered) (hc : Library.create kind parent w.library = (some native, l))
include h hc

/-- A handle that has just been created is none that was known. -/
lemma unknown : ¬w.library.Knows native := fun hk => by
  have hfresh := (Library.created hc).fresh
  have hle := h.knows native hk
  omega

lemma not_alive : w.library.handles.get? native = none :=
  Library.isAlive_eq_false.mp (Bool.eq_false_iff.mpr fun ha => h.unknown hc (.inl ha))

/-- No node owns it, so that only a wrapper without ownership can have been made for its number. -/
lemma not_owned (hl : w.Live id n) (ho : n.owned = true) : n.native ≠ native := fun he => by
  have hfresh := (Library.created hc).fresh
  have hle := h.owned id n hl ho
  rw [he] at hle
  omega

/-- Nothing has been opened for it. -/
lemma unlisted : l.listed native = [] := by
  have hnone : w.library.stmts.get? native = none :=
    Option.not_isSome_iff_eq_none.mp fun hs => h.unknown hc (.inr hs)
  rw [Library.listed, (Library.created hc).stmts]
  split
  · rw [Assoc.get?_put, if_pos rfl]
    rfl
  · rw [hnone]
    rfl

end World.Numbered
end DbClient
