import DbClient.Proofs.Native

/-! The order that the native library keeps among its handles, whoever uses it: a handle is handed out once
and destroyed once, and the resultsets that are alive are those that statements list. -/
namespace DbClient
namespace Library
variable {l l' l'' : Library} {known : Address → Prop} {a h p r s stmt : Address} {kind : HandleKind}
  {opened : List Address}

/-- A handle of a kind is alive that was created under a parent. -/
def Has (l : Library) (kind : HandleKind) (parent a : Address) : Prop :=
  l.handles.get? a = some kind ∧ l.origins.get? a = some (.created parent)

/-- A resultset is alive that an execution of a statement opened. -/
def HasOpen (l : Library) (stmt r : Address) : Prop :=
  l.isAlive r = true ∧ l.origins.get? r = some (.opened stmt)

lemma Has.alive (h : l.Has kind p a) : l.isAlive a = true := Assoc.contains_iff.mpr ⟨kind, h.1⟩

lemma isAlive_eq_false : l.isAlive a = false ↔ l.handles.get? a = none :=
  Option.isSome_eq_false_iff.trans Option.isNone_iff_eq_none

/-- Handles have been handed out in the order of their numbers and are destroyed once. The statements that
have data are alive, and what they list are the resultsets that are alive. -/
structure Coherent (l : Library) : Prop where
  numbered : ∀ a o, l.origins.get? a = some o → 0 < a.number ∧ a.number ≤ l.next
  born : ∀ a, l.isAlive a = true → ∃ o, l.origins.get? a = some o
  stmts : ∀ s, (l.stmts.get? s).isSome → ∃ p, l.Has .statement p s
  listed : ∀ s r, r ∈ l.listed s ↔ l.HasOpen s r
  once : (l.destroyed.map Prod.snd).Nodup
  gone : ∀ a ∈ l.destroyed.map Prod.snd, l.isAlive a = false ∧ ∃ o, l.origins.get? a = some o

/-- Origins are not forgotten. -/
def Remembers (l l' : Library) : Prop := ∀ a o, l.origins.get? a = some o → l'.origins.get? a = some o

/-- No handle comes or goes, and statements list the same resultsets. -/
structure Same (l l' : Library) : Prop where
  next : l'.next = l.next
  handles : l'.handles = l.handles
  origins : l'.origins = l.origins
  destroyed : l'.destroyed = l.destroyed
  stmts : ∀ s, (l'.stmts.get? s).isSome = (l.stmts.get? s).isSome
  listed : ∀ s, l'.listed s = l.listed s

/-- The resultsets of a statement give way to others. -/
structure Renewed (stmt : Address) (opened : List Address) (l l' : Library) : Prop where
  next : l.next ≤ l'.next
  fresh : ∀ a ∈ opened, l.next < a.number ∧ a.number ≤ l'.next
  handles : ∀ a, l'.handles.get? a =
    if a ∈ opened then some .resultset else if a ∈ l.listed stmt then none else l.handles.get? a
  origins : ∀ a, l'.origins.get? a = if a ∈ opened then some (.opened stmt) else l.origins.get? a
  stmts : ∀ s, (l'.stmts.get? s).isSome = (l.stmts.get? s).isSome
  listed : ∀ s, l'.listed s = if stmt = s then opened else l.listed s
  destroyed : l'.destroyed = l.destroyed

/-! ### The steps of the library -/

lemma listed_congr (h : (l'.stmts.get? s).map NativeStatement.core = (l.stmts.get? s).map NativeStatement.core) :
    l'.listed s = l.listed s := by
  have hr := congrArg (fun o => (o.map NativeStatement.resultsets).getD []) h
  simpa only [Library.listed, Option.map_map, Function.comp_def, NativeStatement.core] using hr

lemma isSome_congr (h : (l'.stmts.get? s).map NativeStatement.core = (l.stmts.get? s).map NativeStatement.core) :
    (l'.stmts.get? s).isSome = (l.stmts.get? s).isSome := by
  simpa using congrArg Option.isSome h

theorem Quiet.same (h : Quiet known l l') : Same l l' :=
  ⟨h.next, h.handles, h.origins, h.destroyed, fun s => isSome_congr (h.stmts s),
    fun s => listed_congr (h.stmts s)⟩

theorem Kept.same (h : Kept a l l') : Same l l' :=
  ⟨h.next, h.handles, h.origins, h.destroyed, fun s => by rw [h.stmts],
    fun s => by simp only [Library.listed, h.stmts]⟩

theorem BoundTo.same {d : BindDesc} (h : BoundTo stmt d l l') : Same l l' := by
  obtain ⟨st, sql, mode, hst, -, hall⟩ := h.stmts
  refine ⟨h.next, h.handles, h.origins, h.destroyed, fun s => ?_, fun s => ?_⟩
  · rw [hall]
    split
    · rename_i e
      rw [← e, hst]
      rfl
    · rfl
  · rw [Library.listed, hall, Library.listed]
    split
    · rename_i e
      rw [← e, hst]
      rfl
    · rfl

theorem Prepared.renewed {sql : String} {mode : PrepareMode} (h : Prepared stmt sql mode l l') :
    Renewed stmt [] l l' where
  next := Nat.le_of_eq h.next.symm
  fresh := by simp
  handles a := by simpa using h.handles a
  origins a := by simp [h.origins]
  stmts s := by
    rw [h.stmts]
    split
    · rename_i e
      exact (e ▸ h.known).symm
    · rfl
  listed s := by
    rw [Library.listed, h.stmts]
    split
    · rfl
    · rfl
  destroyed := h.destroyed

theorem Executed.renewed {memory memory' : Memory} (h : Executed stmt memory memory' opened l l') :
    Renewed stmt opened l l' := by
  obtain ⟨st, sql, mode, binds, hst, -, -, hall⟩ := h.stmts
  refine ⟨h.next, h.fresh, h.handles, h.origins, fun s => ?_, fun s => ?_, h.destroyed⟩
  · rw [hall]
    split
    · rename_i e
      rw [← e, hst]
      rfl
    · rfl
  · rw [Library.listed, hall]
    split
    · rfl
    · rfl

/-! ### Coherence is kept -/

namespace Coherent

/-- A number that has not been handed out belongs to no handle. -/
lemma unborn (hl : l.Coherent) (ha : l.next < a.number) : l.handles.get? a = none ∧ l.origins.get? a = none := by
  have ho : l.origins.get? a = none := Option.eq_none_iff_forall_ne_some.mpr fun o ho => by
    have := (hl.numbered a o ho).2
    omega
  refine ⟨isAlive_eq_false.mp (Bool.eq_false_iff.mpr fun hb => ?_), ho⟩
  obtain ⟨o, ho'⟩ := hl.born a hb
  rw [ho] at ho'
  cases ho'

/-- What is created is not listed by a statement. -/
lemma not_listed (hl : l.Coherent) (ha : l.Has kind p a) : a ∉ l.listed s := fun hm => by
  have ho := ((hl.listed s a).mp hm).2
  rw [ha.2] at ho
  cases ho

/-- No resultset is listed by two statements. -/
lemma listed_unique (hl : l.Coherent) (ha : a ∈ l.listed s) (ha' : a ∈ l.listed stmt) : s = stmt := by
  have ho := ((hl.listed s a).mp ha).2
  rw [((hl.listed stmt a).mp ha').2] at ho
  cases ho
  rfl

theorem same (hl : l.Coherent) (h : Same l l') : l'.Coherent := by
  obtain ⟨hn, hh, ho, hd, hs, hr⟩ := h
  have halive : ∀ a, l'.isAlive a = l.isAlive a := fun a => by simp only [isAlive, hh]
  refine ⟨?_, ?_, ?_, ?_, ?_, ?_⟩
  · rw [ho, hn]
    exact hl.numbered
  · simpa only [halive, ho] using hl.born
  · simpa only [hs, Has, hh, ho] using hl.stmts
  · simpa only [hr, HasOpen, halive, ho] using hl.listed
  · rw [hd]
    exact hl.once
  · simpa only [hd, halive, ho] using hl.gone

/-- What has been destroyed stays away if nothing that had an origin comes to be alive. -/
lemma stays_gone (hl : l.Coherent) (hr : Remembers l l')
    (h : ∀ b, l'.isAlive b = true → l.isAlive b = true ∨ l.origins.get? b = none) :
    ∀ b ∈ l.destroyed.map Prod.snd, l'.isAlive b = false ∧ ∃ o, l'.origins.get? b = some o := by
  intro b hb
  obtain ⟨hdead, o, ho⟩ := hl.gone b hb
  refine ⟨Bool.eq_false_iff.mpr fun hc => ?_, o, hr b o ho⟩
  obtain hold | hnew := h b hc
  · simp [hdead] at hold
  · simp [ho] at hnew

/-! ### Creation -/

lemma remembers_created (hl : l.Coherent) (h : Created kind p a l l') : Remembers l l' := by
  intro b o hb
  rw [h.origins, Assoc.get?_put, if_neg, hb]
  rintro rfl
  have := (hl.numbered a o hb).2
  have := h.fresh
  omega

lemma unborn_created (hl : l.Coherent) (h : Created kind p a l l') :
    l.handles.get? a = none ∧ l.origins.get? a = none := by
  apply hl.unborn
  have := h.fresh
  omega

lemma alive_created {b : Address} (h : Created kind p a l l') :
    l'.isAlive b = true ↔ b = a ∨ l.isAlive b = true := by
  simp only [isAlive, Assoc.contains, h.handles, Assoc.get?_put]
  by_cases e : a = b
  · simp [e]
  · simp [e, Ne.symm e]

/-- What was created before stays. -/
lemma has_created {k : HandleKind} {q b : Address} (hl : l.Coherent) (h : Created kind p a l l')
    (hb : l.Has k q b) : l'.Has k q b := by
  refine ⟨?_, hl.remembers_created h b _ hb.2⟩
  rw [h.handles, Assoc.get?_put, if_neg, hb.1]
  rintro rfl
  simp [Has, (hl.unborn_created h).1] at hb

lemma listed_created (hl : l.Coherent) (h : Created kind p a l l') (s : Address) : l'.listed s = l.listed s := by
  rw [Library.listed, h.stmts]
  split
  · rw [Assoc.get?_put]
    split
    · rename_i e
      subst e
      -- the new handle was no statement before
      have hnone : l.stmts.get? a = none := Option.eq_none_iff_forall_ne_some.mpr fun st hst => by
        obtain ⟨q, hq, -⟩ := hl.stmts a (by simp [hst])
        simp [(hl.unborn_created h).1] at hq
      simp [Library.listed, hnone, NativeStatement.fresh]
    · rfl
  · rfl

theorem created (hl : l.Coherent) (h : Created kind p a l l') : l'.Coherent := by
  have hfresh := h.fresh
  have horigin := (hl.unborn_created h).2
  have hremember := hl.remembers_created h
  refine ⟨fun b o hb => ?_, fun b hb => ?_, fun s hs => ?_, fun s r => ?_, h.destroyed ▸ hl.once, ?_⟩
  · rw [h.origins, Assoc.get?_put] at hb
    rw [h.next]
    split at hb
    · rename_i e
      subst e
      omega
    · have := hl.numbered b o hb
      omega
  · obtain rfl | hb := (alive_created h).mp hb
    · exact ⟨_, by rw [h.origins, Assoc.get?_put, if_pos rfl]⟩
    · exact (hl.born b hb).imp fun o => hremember b o
  · rw [h.stmts] at hs
    split at hs
    · rename_i hk
      rw [Assoc.get?_put] at hs
      split at hs
      · rename_i e
        subst e
        exact ⟨p, by simp [h.handles, hk], by simp [h.origins]⟩
      · exact (hl.stmts s hs).imp fun q => hl.has_created h
    · exact (hl.stmts s hs).imp fun q => hl.has_created h
  · rw [hl.listed_created h, hl.listed, HasOpen, HasOpen, alive_created h, h.origins, Assoc.get?_put]
    by_cases e : a = r
    · subst e
      simp [horigin]
    · simp [e, Ne.symm e]
  · rw [h.destroyed]
    apply hl.stays_gone hremember
    intro b hb
    obtain rfl | hb := (alive_created h).mp hb
    · exact .inr horigin
    · exact .inl hb

/-! ### Other resultsets -/

lemma remembers_renewed (hl : l.Coherent) (h : Renewed stmt opened l l') : Remembers l l' := by
  intro b o hb
  rw [h.origins, if_neg, hb]
  intro hm
  have := (hl.numbered b o hb).2
  have := (h.fresh b hm).1
  omega

/-- What was created stays when resultsets give way. -/
lemma has_renewed (hl : l.Coherent) (h : Renewed stmt opened l l') (ha : l.Has kind p a) : l'.Has kind p a := by
  have hm : a ∉ opened := fun hm => by
    have := (hl.numbered a _ ha.2).2
    have := (h.fresh a hm).1
    omega
  refine ⟨?_, by rw [h.origins, if_neg hm, ha.2]⟩
  rw [h.handles, if_neg hm, if_neg (hl.not_listed ha), ha.1]

lemma alive_renewed (h : Renewed stmt opened l l') :
    l'.isAlive a = true ↔ a ∈ opened ∨ a ∉ l.listed stmt ∧ l.isAlive a = true := by
  simp only [isAlive, Assoc.contains, h.handles]
  by_cases ho : a ∈ opened
  · simp [ho]
  · by_cases hs : a ∈ l.listed stmt
    · simp [ho, hs]
    · simp [ho, hs]

theorem renewed (hl : l.Coherent) (h : Renewed stmt opened l l') : l'.Coherent := by
  have hremember := hl.remembers_renewed h
  refine ⟨?_, ?_, ?_, ?_, ?_, ?_⟩
  · intro b o hb
    rw [h.origins] at hb
    split at hb
    · rename_i hm
      have := h.fresh b hm
      omega
    · have := hl.numbered b o hb
      have := h.next
      omega
  · intro b hb
    obtain hm | ⟨-, hb⟩ := (alive_renewed h).mp hb
    · exact ⟨_, by rw [h.origins, if_pos hm]⟩
    · obtain ⟨o, ho⟩ := hl.born b hb
      exact ⟨o, hremember b o ho⟩
  · intro s hs
    rw [h.stmts] at hs
    obtain ⟨q, hq⟩ := hl.stmts s hs
    exact ⟨q, hl.has_renewed h hq⟩
  · intro s r
    rw [h.listed, HasOpen, alive_renewed h, h.origins]
    by_cases hm : r ∈ opened
    · -- a new handle has no other origin
      have hnew : l.origins.get? r = none := (hl.unborn (h.fresh r hm).1).2
      have hlist : r ∉ l.listed s := fun hc => by
        rw [((hl.listed s r).mp hc).2] at hnew
        cases hnew
      by_cases e : stmt = s
      · simp [hm, e]
      · simp [hm, e, hlist]
    · by_cases e : stmt = s
      · subst e
        have : r ∈ l.listed stmt ↔ _ := hl.listed stmt r
        simp only [if_true, hm, if_false, false_or, false_iff, not_and]
        intro hr ho
        exact hr.1 (this.mpr ⟨hr.2, ho⟩)
      · rw [if_neg e, if_neg hm, hl.listed]
        refine ⟨fun hr => ⟨.inr ⟨fun hc => e ?_, hr.1⟩, hr.2⟩, fun hr => ⟨?_, hr.2⟩⟩
        · exact hl.listed_unique hc ((hl.listed s r).mpr hr)
        · exact (hr.1.resolve_left hm).2
  · rw [h.destroyed]
    exact hl.once
  · rw [h.destroyed]
    apply hl.stays_gone hremember
    intro b hb
    obtain hm | ⟨-, hb⟩ := (alive_renewed h).mp hb
    · exact .inr (hl.unborn (h.fresh b hm).1).2
    · exact .inl hb

/-! ### Destruction -/

/-- What was created stays when something else is destroyed. -/
lemma has_destroyed {k : HandleKind} (hl : l.Coherent) (hd : Destroyed k h l l') (ha : l.Has kind p a)
    (hne : a ≠ h) : l'.Has kind p a := by
  refine ⟨?_, by rw [hd.origins, ha.2]⟩
  rw [hd.handles, if_neg, ha.1]
  rintro (e | hm)
  · exact hne e
  · exact hl.not_listed ha hm

lemma alive_destroyed {k : HandleKind} (hd : Destroyed k h l l') :
    l'.isAlive a = true ↔ (a ≠ h ∧ a ∉ l.listed h) ∧ l.isAlive a = true := by
  simp only [isAlive, Assoc.contains, hd.handles]
  by_cases e : a = h
  · simp [e]
  · by_cases hs : a ∈ l.listed h
    · simp [hs]
    · simp [e, hs]

lemma listed_destroyed {k : HandleKind} (hd : Destroyed k h l l') (s : Address) :
    l'.listed s = if s = h then [] else l.listed s := by
  simp only [Library.listed]
  split
  · rename_i e
    rw [e, hd.stmts.1]
    rfl
  · rename_i e
    rw [hd.stmts.2 s e]

theorem destroyed {k : HandleKind} (hl : l.Coherent) (hh : l.Has kind p h) (hd : Destroyed k h l l') :
    l'.Coherent := by
  have hold : ∀ b, l'.isAlive b = true → l.isAlive b = true := fun b hb => ((alive_destroyed hd).mp hb).2
  refine ⟨?_, ?_, ?_, ?_, ?_, ?_⟩
  · rw [hd.origins, hd.next]
    exact hl.numbered
  · intro b hb
    rw [hd.origins]
    exact hl.born b (hold b hb)
  · intro s hs
    by_cases e : s = h
    · subst e
      rw [hd.stmts.1] at hs
      cases hs
    · rw [hd.stmts.2 s e] at hs
      obtain ⟨q, hq⟩ := hl.stmts s hs
      exact ⟨q, hl.has_destroyed hd hq e⟩
  · intro s r
    rw [listed_destroyed hd, HasOpen, alive_destroyed hd, hd.origins]
    by_cases e : s = h
    · subst e
      have : r ∈ l.listed s ↔ _ := hl.listed s r
      simp only [if_true, List.not_mem_nil, false_iff, not_and]
      intro hr ho
      exact hr.1.2 (this.mpr ⟨hr.2, ho⟩)
    · rw [if_neg e, hl.listed]
      refine ⟨fun hr => ⟨⟨⟨?_, fun hc => e ?_⟩, hr.1⟩, hr.2⟩, fun hr => ⟨hr.1.2, hr.2⟩⟩
      · rintro rfl
        exact hl.not_listed hh ((hl.listed s r).mpr hr)
      · exact hl.listed_unique ((hl.listed s r).mpr hr) hc
  · rw [hd.destroyed, List.map_append]
    apply hl.once.append (List.nodup_singleton h)
    -- what has been destroyed is no longer alive
    intro b hb hc
    obtain rfl := List.mem_singleton.mp hc
    exact absurd (hl.gone b hb).1 (by simp [hh.alive])
  · intro b hb
    rw [hd.destroyed, List.map_append] at hb
    rw [hd.origins]
    rcases List.mem_append.mp hb with hb | hb
    · rw [← hd.origins]
      exact hl.stays_gone (fun a o ho => by rw [hd.origins, ho]) (fun c hc => .inl (hold c hc)) b hb
    · obtain rfl := List.mem_singleton.mp hb
      refine ⟨Bool.eq_false_iff.mpr fun hc => ?_, _, hh.2⟩
      exact ((alive_destroyed hd).mp hc).1.1 rfl

end Coherent
end Library
end DbClient
