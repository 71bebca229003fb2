import DbClient.Proofs.Scope.Attributes

/-! Settings that are kept twice. The size of the array and the fetch mode of a statement are told to the native library
whenever they are set, so that what it has been told is what the statement has, unless the statement was given another
text since: then its array has one element, and the native library does not know. -/
namespace DbClient
open World

namespace StatementData
variable {d e : StatementData}

/-- What the native library is told of a setting. -/
def setting? (d : StatementData) : Attr → Option Value
  | .bindArraySize => some (.int .uint64 (Fixed.wrap .uint64 d.arraySize))
  | .fetchMode => some (.bool (d.fetchMode = .scrollable))
  | _ => none

/-- What is kept of the settings, with the limit of the array. -/
def settings (d : StatementData) : Nat × Nat × FetchMode := (d.arraySize, d.initialArraySize, d.fetchMode)

lemma of_settings (h : e.settings = d.settings) :
    e.arraySize = d.arraySize ∧ e.initialArraySize = d.initialArraySize ∧ e.setting? = d.setting? := by
  simp only [settings, Prod.mk.injEq] at h
  obtain ⟨hsize, hinitial, hmode⟩ := h
  refine ⟨hsize, hinitial, funext fun attr => ?_⟩
  cases attr <;> simp only [setting?, hsize, hmode]

end StatementData

namespace Library
variable {h : Address} {l l' : Library}

/-- No setting changes. -/
structure SameSettings (l l' : Library) : Prop where
  next : l.next ≤ l'.next
  attrs : ∀ a attr, attr.IsSetting → l'.attr? a attr = l.attr? a attr

namespace SameSettings

lemma of_eq (next : l'.next = l.next) (attrs : l'.attrs = l.attrs) : SameSettings l l' :=
  ⟨Nat.le_of_eq next.symm, fun _ _ _ => by rw [attr?, attr?, attrs]⟩

lemma of_silent {i : Invocation} (hi : i.Silent) (l : Library) : SameSettings l (i.run l).2 :=
  ⟨(i.beside l).next, fun a _ ha => i.attr?_of_silent hi ha.ne_rowCount a⟩

lemma of_some {i : Invocation} {α : Type} {x : α} (hi : i.Silent) (hr : i.run l = Invocation.gave (some x, l')) :
    SameSettings l l' := by
  have h := of_silent hi l
  rwa [hr] at h

end SameSettings

/-- Only handles that have been handed out have settings. -/
def Unborn (l : Library) : Prop := ∀ a attr v, attr.IsSetting → l.attr? a attr = some v → a.number ≤ l.next

namespace Unborn

lemma same (hl : l.Unborn) (h : SameSettings l l') : l'.Unborn := fun a attr v ha hv =>
  Nat.le_trans (hl a attr v ha ((h.attrs a attr ha).symm.trans hv)) h.next

lemma beside (hl : l.Unborn) (hb : Beside h l l') (hh : h.number ≤ l.next) : l'.Unborn := fun a attr v ha hv => by
  by_cases he : a = h
  · exact Nat.le_trans (he ▸ hh) hb.next
  · exact Nat.le_trans (hl a attr v ha ((hb.attrs a attr he).symm.trans hv)) hb.next

end Unborn
end Library

/-- The settings that a node keeps are in step with those of its handle. Where the text may have been replaced, the
array may have come to one element since. -/
structure Node.InStep (again : Prop) (n : Node) (d : StatementData) (l : Library) : Prop where
  owned : n.owned = true
  fits : d.arraySize ≤ BindIndex.maxSize ∧ d.initialArraySize ≤ BindIndex.maxSize
  told : ∀ attr v, attr.IsSetting → l.attr? n.native attr = some v →
    d.setting? attr = some v ∨ attr = .bindArraySize ∧ again ∧ d.arraySize = 1

namespace Node.InStep
variable {again : Prop} {n m : Node} {d e : StatementData} {l l' : Library}

lemma congr (h : m.InStep again e l) (native : n.native = m.native) (owned : n.owned = m.owned)
    (settings : d.settings = e.settings)
    (attrs : ∀ attr, attr.IsSetting → l'.attr? m.native attr = l.attr? m.native attr) : n.InStep again d l' := by
  obtain ⟨hsize, hinitial, hsetting⟩ := StatementData.of_settings settings
  refine ⟨owned.trans h.owned, by rw [hsize, hinitial]; exact h.fits, fun attr v ha hv => ?_⟩
  rw [hsize, hsetting]
  exact h.told attr v ha (by rwa [native, attrs attr ha] at hv)

/-- The fetch mode is always in step. -/
lemma mode (h : n.InStep again d l) {v : Value} (hv : l.attr? n.native .fetchMode = some v) :
    d.setting? .fetchMode = some v := (h.told .fetchMode v (.inr rfl) hv).resolve_right nofun

/-- The array gets another size, here and there. -/
lemma resize {size : Nat} (h : n.InStep again d l)
    (hc : Library.setAttr n.native .bindArraySize (.int .uint64 (Fixed.wrap .uint64 size)) l = (some (), l'))
    (hz : ¬(size < 1 ∨ (if d.binds.isEmpty then BindIndex.maxSize else d.initialArraySize) < size)) :
    (n.keeping { d with
      arraySize := size, initialArraySize := if d.binds.isEmpty then size else d.initialArraySize }).InStep again
        { d with
          arraySize := size, initialArraySize := if d.binds.isEmpty then size else d.initialArraySize } l' := by
  have hlimit : size ≤ BindIndex.maxSize := by
    have hinitial := h.fits.2
    split at hz <;> omega
  refine ⟨h.owned, ⟨hlimit, ?_⟩, fun attr v ha hv => ?_⟩
  · dsimp only
    split
    · exact hlimit
    · exact h.fits.2
  · have hnow := (Library.attr?_setAttr hc n.native attr).symm.trans hv
    obtain rfl | rfl := ha
    · rw [if_pos rfl] at hnow
      exact .inl hnow
    · rw [if_neg (by simp)] at hnow
      exact .inl (h.mode hnow)

/-- The fetch mode changes, here and there. -/
lemma turn {mode : FetchMode} (h : n.InStep again d l)
    (hc : Library.setAttr n.native .fetchMode (.bool (mode = .scrollable)) l = (some (), l')) :
    (n.keeping { d with fetchMode := mode }).InStep again { d with fetchMode := mode } l' := by
  refine ⟨h.owned, h.fits, fun attr v ha hv => ?_⟩
  have hnow := (Library.attr?_setAttr hc n.native attr).symm.trans hv
  obtain rfl | rfl := ha
  · rw [if_neg (by simp)] at hnow
    exact h.told .bindArraySize v (.inl rfl) hnow
  · rw [if_pos rfl] at hnow
    exact .inl hnow

/-- A reset brings the array to one element, of which the native library is not told. -/
lemma reset (h : n.InStep again d l) (ha : again) (sql : String) :
    (n.keeping (d.reset sql)).InStep again (d.reset sql) l := by
  have hone : 1 ≤ BindIndex.maxSize := by decide
  refine ⟨h.owned, ⟨hone, hone⟩, fun attr v hs hv => ?_⟩
  obtain rfl | rfl := hs
  · exact .inr ⟨rfl, ha, rfl⟩
  · exact .inl (h.mode hv)

end Node.InStep

namespace World

/-- All settings are in step, but for arrays of one element at statements of the given ones. -/
structure InStep (again : Nat → Prop) (w : World) : Prop where
  unborn : w.library.Unborn
  data : ∀ id n d, w.HasData id n d → n.InStep (again id) d w.library

namespace InStep
variable {again : Nat → Prop} {S : Scope} {t : Terms} {text : Prop} {w w' : World} {id j : Nat} {n m node : Node}
  {d : StatementData} {l : Library}

/-! ### Steps that are not about settings -/

lemma ofNodes (hw : InStep again w) (hn : w'.nodes = w.nodes) (hl : w.library.SameSettings w'.library) :
    InStep again w' := by
  refine ⟨hw.unborn.same hl, fun i n d hd => ?_⟩
  have hold : w.HasData i n d := ⟨⟨hn ▸ hd.1.1, hd.1.2⟩, hd.2⟩
  exact (hw.data i n d hold).congr rfl rfl rfl fun attr ha => hl.attrs n.native attr ha

lemma modifyNode (hw : InStep again w) {f : Node → Node}
    (hf : ∀ n, (f n).native = n.native ∧ (f n).owned = n.owned ∧ (f n).extra = n.extra ∧ (f n).released = n.released)
    (id : Nat) : InStep again (w.modifyNode id f) := by
  refine ⟨hw.unborn, fun i n d hd => ?_⟩
  obtain ⟨⟨hn, hr⟩, hx⟩ := hd
  rw [nodes_modifyNode, Table.get?_modify] at hn
  split at hn
  · obtain ⟨m, hm, rfl⟩ := Option.map_eq_some_iff.mp hn
    obtain ⟨h1, h2, h3, h4⟩ := hf m
    exact (hw.data i m d ⟨⟨hm, h4.symm.trans hr⟩, h3.symm.trans hx⟩).congr h1 h2 rfl fun _ _ => rfl
  · exact hw.data i n d ⟨⟨hn, hr⟩, hx⟩

lemma retire (hw : InStep again w) (ho : Owns t w) (hf : w.Forest) (hl : w.Live j n) : InStep again (w.retire j) := by
  have hbeside : w.library.Beside n.native (w.retire j).library := by
    rw [(retire_around hl.1 (hf.linked.parent_ne hl.1)).1]
    split
    · exact .letGo _ _ _
    · exact .refl _
  refine ⟨hw.unborn.beside hbeside (ho.numbered hl).2, fun i m d hd => ?_⟩
  obtain ⟨-, rfl⟩ | ⟨hne, m', hm', rfl⟩ := hf.retire_cases hl hd.1.1
  · cases hd.1.2
  · have hold : w.HasData i m' d := ⟨⟨hm', hd.1.2⟩, hd.2⟩
    have hstep := hw.data i m' d hold
    exact hstep.congr rfl rfl rfl fun attr _ => ho.attr?_retire hf hold.1 hstep.owned hl (Ne.symm hne) attr

/-- A new node keeps nothing at first. -/
lemma grow (hw : InStep again w) (hf : w.Forest) (h : Fits node w) (hx : node.extra = none)
    (hl : w.library.SameSettings l) : InStep again (World.grow node { w with library := l }) := by
  have hforest := hf.ofLibrary l
  have hlib : (World.grow node { w with library := l }).library = l := library_grow _ _
  refine ⟨by rw [hlib]; exact hw.unborn.same hl, fun i m d hd => ?_⟩
  obtain ⟨⟨hn, hr⟩, hkeep⟩ := hd
  rw [hlib]
  obtain ⟨-, rfl⟩ | ⟨-, m', hm', rfl⟩ := hforest.grow_cases (h.ofLibrary l) hn
  · rw [Node.Keeps, hx] at hkeep
    cases hkeep
  · have hold : w.HasData i m' d := by
      split at hr <;> rename_i hp
      · rw [if_pos hp] at hkeep
        exact ⟨⟨hm', hr⟩, hkeep⟩
      · rw [if_neg hp] at hkeep
        exact ⟨⟨hm', hr⟩, hkeep⟩
    refine (hw.data i m' d hold).congr ?_ ?_ rfl fun attr ha => hl.attrs m'.native attr ha
    · split <;> rfl
    · split <;> rfl

/-! ### Work -/

/-- A statement that has just come has the settings of all new statements, and the native library has been told none. -/
lemma fresh (hw : InStep again w) (hl : w.Live id n) (ho : n.owned = true)
    (hnew : ∀ attr, attr.IsSetting → w.library.attr? n.native attr = none) :
    InStep again (w.modifyNode id (Node.keeping .fresh)) := by
  refine ⟨hw.unborn, fun i m d hd => ?_⟩
  by_cases hi : i = id
  · subst hi
    obtain rfl := (hl.keeping .fresh).unique hd.1
    obtain rfl : StatementData.fresh = d := Extra.statement.inj (Option.some.inj hd.2)
    refine ⟨ho, by decide, fun attr v ha hv => ?_⟩
    exact absurd ((hnew attr ha).symm.trans hv) nofun
  · exact hw.data i m d ⟨⟨(get?_modifyNode_of_ne hi _ _).symm.trans hd.1.1, hd.1.2⟩, hd.2⟩

/-- What work leaves of the settings of its own node. -/
lemma own_work (hw : InStep again w) (hl : w.Live id n) (ht : text → again id) (h : Work text id n w w')
    (hd : w'.HasData id m d) : m.InStep (again id) d w'.library := by
  have hsame : ∀ {v : World}, v.nodes = w.nodes → v.HasData id m d → w.HasData id m d := fun hn hd =>
    ⟨⟨hn ▸ hd.1.1, hd.1.2⟩, hd.2⟩
  have hkept : ∀ {v : World} {e : StatementData}, v.nodes = w.nodes.modify id (Node.keeping e) → v.HasData id m d →
      m = n.keeping e ∧ d = e := fun {v e} hn hd => by
    have hrow := hd.1.1
    rw [hn, Table.get?_modify, if_pos rfl, hl.1] at hrow
    obtain rfl := Option.some.inj hrow
    exact ⟨rfl, (Extra.statement.inj (Option.some.inj hd.2)).symm⟩
  cases h with
  | call i hi hs =>
    exact (hw.data id m d (hsame rfl hd)).congr rfl rfl rfl fun attr ha => hs.attr? ha m.native
  | fill => exact hw.data id m d (hsame rfl hd)
  | scratch => exact hw.data id m d (hsame rfl hd)
  | mark hx hc =>
    obtain ⟨hm, hkeep⟩ := hsame rfl hd
    obtain rfl := hl.unique hm
    exact absurd hkeep (hx d)
  | keep he =>
    obtain ⟨hne, -⟩ | ⟨-, hx, -⟩ := Bindings.hasData_cases rfl hd
    · exact absurd rfl hne
    · exact absurd hx (he d)
  | tune hx hb hs hr ha hm =>
    obtain ⟨rfl, rfl⟩ := hkept rfl hd
    exact (hw.data id n _ ⟨hl, hx⟩).congr rfl rfl (by rw [StatementData.settings, ha.1, ha.2, hm]; rfl) fun _ _ => rfl
  | resize hx hc hz =>
    obtain ⟨rfl, rfl⟩ := hkept rfl hd
    exact (hw.data id n _ ⟨hl, hx⟩).resize hc hz
  | turn hx hc =>
    obtain ⟨rfl, rfl⟩ := hkept rfl hd
    exact (hw.data id n _ ⟨hl, hx⟩).turn hc
  | close htext sql hx =>
    obtain ⟨rfl, rfl⟩ := hkept rfl hd
    exact (hw.data id n _ ⟨hl, hx⟩).reset (ht htext) sql
  | @renew e sql mode l hx hr hp =>
    obtain ⟨rfl, rfl⟩ := hkept rfl hd
    have hcall : w.library.SameSettings l :=
      .of_some (i := .prepare n.native sql mode) trivial (congrArg Invocation.gave hp)
    exact (hw.data id n _ ⟨hl, hx⟩).congr rfl rfl rfl fun attr ha => hcall.attrs n.native attr ha
  | @bind e plan l log hx _ _ hb =>
    obtain ⟨rfl, rfl⟩ := hkept rfl hd
    have hcall : w.library.SameSettings l :=
      .of_some (i := .bind n.native (BindObject.place plan w).1.desc) trivial (congrArg Invocation.gave hb)
    exact (hw.data id n _ ⟨hl, hx⟩).congr rfl rfl rfl fun attr ha => hcall.attrs n.native attr ha
  | @execute e iters results memory l log hx _ _ he =>
    have hcall : w.library.SameSettings l :=
      .of_some (i := .execute n.native iters w.memory) trivial (congrArg Invocation.gave he)
    exact (hw.data id m d (hsame rfl hd)).congr rfl rfl rfl fun attr ha => hcall.attrs m.native attr ha

/-- Work on one node leaves the settings of all others as they are. -/
theorem work (hw : InStep again w) (ho : Owns t w) (hl : w.Live id n) (ht : text → again id)
    (h : Work text id n w w') : InStep again w' := by
  refine ⟨hw.unborn.beside h.beside (ho.numbered hl).2, fun i m d hd => ?_⟩
  by_cases hi : i = id
  · subst hi
    exact hw.own_work hl ht h hd
  · have hold : w.HasData i m d := ⟨⟨(h.row hi).symm.trans hd.1.1, hd.1.2⟩, hd.2⟩
    have hstep := hw.data i m d hold
    exact hstep.congr rfl rfl rfl fun attr _ => ho.attr?_of_beside hold.1 hstep.owned hl (Ne.symm hi) h.beside attr

end InStep
end World

/-! ### Steps -/

variable {again : Nat → Prop} {S : Scope} {w w' : World}

/-- A step leaves settings in step, unless it gives a statement another text. -/
theorem StepWithin.inStep (hw : Standing w) (hagain : ∀ id, S.text id → again id) (h : StepWithin S w w')
    (hs : InStep again w) : InStep again w' := by
  have hrelease : ∀ v j m, v.Forest → (Owns ⟨false, true⟩ v ∧ InStep again v) → v.Live j m → m.children = [] →
      Owns ⟨false, true⟩ (v.retire j) ∧ InStep again (v.retire j) := fun v j m hv h hj hleaf =>
    ⟨h.1.retire hv hj hleaf, h.2.retire h.1 hv hj⟩
  have hcreate : ∀ {kind : HandleKind} {parent a : Address} {l : Library},
      Library.create kind parent w.library = (some a, l) → w.library.SameSettings l := fun {kind parent a l} hc =>
    .of_some (i := .create kind parent) trivial (congrArg Invocation.gave hc)
  cases h with
  | log => exact hs.ofNodes rfl (.of_eq rfl rfl)
  | forget => exact hs.ofNodes rfl (.of_eq rfl rfl)
  | look _ i _ hr _ => exact hs.ofNodes rfl (.of_silent hr.silent w.library)
  | refuse => exact hs.ofNodes rfl (.of_silent (i := .create .environment .null) trivial w.library)
  | write => exact hs.ofNodes rfl (.of_eq rfl rfl)
  | enroll => exact hs.ofNodes rfl (.of_eq rfl rfl)
  | openEnv => exact hs.ofNodes rfl (.of_eq rfl rfl)
  | acquire => exact hs.modifyNode (f := fun n => { n with holders := n.holders + 1 }) (fun _ => ⟨rfl, rfl, rfl, rfl⟩) _
  | @drop id =>
    have hfewer := hs.modifyNode (f := Node.fewer) (fun _ => ⟨rfl, rfl, rfl, rfl⟩) id
    exact (hw.forest.drop_induction (P := fun v => Owns ⟨false, true⟩ v ∧ InStep again v) id
      ⟨hw.owns.modifyNode (f := Node.fewer) (fun _ => rfl) id, hfewer⟩ hrelease).2
  | release _ hl =>
    exact (hw.forest.release_induction (P := fun v => Owns ⟨false, true⟩ v ∧ InStep again v) hl ⟨hw.owns, hs⟩
      hrelease).2.2
  | adopt _ hc hfits _ _ hx => exact hs.grow hw.forest hfits hx (hcreate hc)
  | @begin node l _ _ hc hfits _ ho hx =>
    have hnode := (hw.forest.ofLibrary l).get?_grow_next (hfits.ofLibrary l)
    refine (hs.grow hw.forest hfits hx (hcreate hc)).fresh ⟨hnode, hfits.fresh⟩ ho fun attr ha => ?_
    -- the number of the new handle has never been seen
    rw [library_grow, (hcreate hc).attrs _ attr ha]
    refine Option.eq_none_iff_forall_ne_some.mpr fun v hv => ?_
    have hold := hs.unborn _ attr v ha hv
    have hnew := (Library.created hc).fresh
    omega
  | lend _ _ _ _ _ hfits _ _ _ hx => exact hs.grow hw.forest hfits hx (.of_eq rfl rfl)
  | work _ hl h => exact hs.work hw.owns hl (hagain _) h

/-- So does all that an operation does. -/
theorem StepsWithin.inStep (hw : Standing w) (hagain : ∀ id, S.text id → again id) (h : StepsWithin S w w')
    (hs : InStep again w) : InStep again w' :=
  h.induct hw hs fun _ _ hv hc hd => hd.inStep hv hagain hc

end DbClient
