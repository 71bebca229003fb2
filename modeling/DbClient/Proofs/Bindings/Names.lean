import DbClient.Proofs.Bindings.Tables
import DbClient.Proofs.Frame.Statements
import Mathlib.Data.List.Dedup

/-! The names that are bound to a statement, in order. A list of names without its repetitions keeps each name at
the place where it came last, so that appending to it is binding, and binding again. -/
namespace DbClient

lemma dedup_dedup_append (l m : List String) : (l.dedup ++ m).dedup = (l ++ m).dedup := by
  rw [List.dedup_append, List.dedup_append]
  induction l with
  | nil => rfl
  | cons x l ih =>
    rw [List.cons_union]
    by_cases hx : x ∈ l
    · rw [List.dedup_cons_of_mem hx, ih, List.insert_of_mem (List.mem_union_left hx _)]
    · rw [List.dedup_cons_of_notMem hx, List.cons_union, ih]

lemma dedup_append_singleton {l : List String} (hl : l.Nodup) (x : String) :
    (l ++ [x]).dedup = (l.filter fun y => y ≠ x) ++ [x] := by
  induction l with
  | nil => rfl
  | cons y l ih =>
    have hd := List.nodup_cons.mp hl
    rw [List.cons_append]
    by_cases hy : y = x
    · rw [List.dedup_cons_of_mem (by simp [hy]), ih hd.2, List.filter_cons_of_neg (by simpa using hy)]
    · rw [List.dedup_cons_of_notMem (by simp [hd.1, hy]), ih hd.2, List.filter_cons_of_pos (by simpa using hy)]
      rfl

namespace BindsHolder
variable {h : BindsHolder} {o : BindObject} {allow : Bool}

/-- The name of an object that is added comes last, wherever it was before. -/
theorem names_add (hn : h.names.Nodup) (ha : (∃ p ∈ h.objects, p.name = o.name) → allow = true) :
    (h.add o allow).2.names = (h.names ++ [o.name]).dedup := by
  rw [dedup_append_singleton hn, add_eq hn ha, names, names, List.filter_map, List.map_append]
  rfl

/-- An object that is not replaced stays. -/
lemma mem_of_add (hn : h.names.Nodup) (ha : (∃ p ∈ h.objects, p.name = o.name) → allow = true) {p : BindObject}
    (hp : p ∈ h.objects) (hne : p.name ≠ o.name) : p ∈ (h.add o allow).2.objects := by
  rw [add_eq hn ha]
  exact List.mem_append_left _ (List.mem_filter.mpr ⟨hp, by simpa using hne⟩)

lemma self_mem_add : o ∈ (h.add o allow).2.objects := by
  cases allow <;> simp [add]

lemma mem_of_get? {name : String} (hg : h.get? name = some o) : o ∈ h.objects ∧ o.name = name :=
  ⟨List.mem_of_find?_eq_some hg, by simpa using List.find?_some hg⟩

lemma get?_of_mem (hn : h.names.Nodup) (ho : o ∈ h.objects) : h.get? o.name = some o := by
  cases hg : h.get? o.name with
  | none => exact absurd (List.find?_eq_none.mp hg o ho) (by simp)
  | some p =>
    obtain ⟨hp, hname⟩ := mem_of_get? hg
    exact congrArg some (List.inj_on_of_nodup_map hn hp ho hname)

end BindsHolder

namespace StatementData
variable {c d e : StatementData} {o : BindObject} {limit : Nat}

/-- Data that have come from others while names were bound in an order, and no text was prepared. -/
structure Follows (bound : List String) (c d : StatementData) : Prop where
  /-- No name that was bound is gone, and none has come to another type. -/
  types : ∀ name o, c.binds.get? name = some o → ∃ p, d.binds.get? name = some p ∧ p.ty = o.ty
  /-- After an execution no name has come. -/
  stage : c.status = .executed → d.status = .executed ∧ ∀ name ∈ d.binds.names, name ∈ c.binds.names
  /-- The names lie in the order in which they were bound last. -/
  order : d.binds.names = (c.binds.names ++ bound).dedup

lemma Follows.trans {l m : List String} (h : c.Follows l d) (h' : d.Follows m e) : c.Follows (l ++ m) e where
  types name o ho := by
    obtain ⟨p, hp, hty⟩ := h.types name o ho
    obtain ⟨q, hq, hty'⟩ := h'.types name p hp
    exact ⟨q, hq, hty'.trans hty⟩
  stage hc := by
    obtain ⟨hd, hsub⟩ := h.stage hc
    obtain ⟨he, hsub'⟩ := h'.stage hd
    exact ⟨he, fun name hname => hsub name (hsub' name hname)⟩
  order := by rw [h'.order, h.order, dedup_dedup_append, List.append_assoc]

/-- A change that leaves the variables alone, and the stage of an executed statement. -/
structure Settled (c d : StatementData) : Prop where
  binds : d.binds = c.binds
  stage : c.status = .executed → d.status = .executed

instance : Std.Refl Settled := ⟨fun _ => ⟨rfl, id⟩⟩

instance : IsTrans StatementData Settled :=
  ⟨fun _ _ _ h h' => ⟨h'.binds.trans h.binds, fun hc => h'.stage (h.stage hc)⟩⟩

lemma Settled.follows (h : c.Settled d) (hn : c.binds.names.Nodup) : c.Follows [] d where
  types name o ho := ⟨o, h.binds.symm ▸ ho, rfl⟩
  stage hc := ⟨h.stage hc, fun name hname => h.binds ▸ hname⟩
  order := by rw [h.binds, List.append_nil, hn.dedup]

/-- What admits an object leaves its name free, or the name has the type of the object and may be bound again. -/
lemma Admits.cases (h : d.Admits limit o) :
    (∃ p, d.binds.get? o.name = some p ∧ p.ty = o.ty ∧ d.allowRebinding = true) ∨
      d.binds.get? o.name = none ∧ d.status ≠ .executed ∧ d.binds.size < limit := by
  have hfree := h.free
  unfold Statement.bindObstacle? at hfree
  split at hfree
  · rename_i p hp
    refine .inl ⟨p, hp, ?_⟩
    split at hfree
    · cases hfree
    · split at hfree
      · cases hfree
      · rename_i hallow hty
        exact ⟨by simpa using hty, by simpa using hallow⟩
  · rename_i hnone
    refine .inr ⟨hnone, ?_⟩
    split at hfree
    · cases hfree
    · split at hfree
      · cases hfree
      · rename_i hstage hsize
        exact ⟨hstage, Nat.lt_of_not_le hsize⟩

lemma Admits.allowed (h : d.Admits limit o) : (∃ p ∈ d.binds.objects, p.name = o.name) → d.allowRebinding = true :=
  Statement.allowed_of_no_obstacle h.free

/-- To bind an object is to come to its name. -/
lemma Admits.follows (h : d.Admits limit o) (hn : d.binds.names.Nodup) : d.Follows [o.name] (d.bound o) := by
  have hnames := BindsHolder.names_add hn h.allowed
  have hnodup : (d.bound o).binds.names.Nodup := by
    rw [show (d.bound o).binds.names = _ from hnames]
    exact List.nodup_dedup _
  refine ⟨fun name p hp => ?_, fun hstage => ⟨hstage, fun name hname => ?_⟩, hnames⟩
  · obtain ⟨hmem, rfl⟩ := BindsHolder.mem_of_get? hp
    by_cases hname : p.name = o.name
    · refine ⟨o, hname ▸ BindsHolder.get?_of_mem hnodup BindsHolder.self_mem_add, ?_⟩
      obtain ⟨q, hq, hty, -⟩ | ⟨hnone, -⟩ := h.cases
      · obtain rfl := Option.some.inj (hp.symm.trans (hname ▸ hq))
        exact hty.symm
      · rw [hname, hnone] at hp
        cases hp
    · exact ⟨p, BindsHolder.get?_of_mem hnodup (BindsHolder.mem_of_add hn h.allowed hmem hname), rfl⟩
  · rw [show (d.bound o).binds.names = _ from hnames, List.mem_dedup] at hname
    rcases List.mem_append.mp hname with hname | hname
    · exact hname
    · -- after an execution only a name that is taken can be bound
      obtain rfl := List.mem_singleton.mp hname
      obtain ⟨p, hp, -⟩ | ⟨-, hnot, -⟩ := h.cases
      · obtain ⟨hmem, hpname⟩ := BindsHolder.mem_of_get? hp
        exact hpname ▸ List.mem_map_of_mem hmem
      · exact absurd hstage hnot

/-- The number of variables stays within the limit. -/
lemma Admits.size_le (h : d.Admits limit o) (hn : d.binds.names.Nodup) (hd : d.binds.size ≤ limit) :
    (d.bound o).binds.size ≤ limit := by
  have hsize : ∀ g : BindsHolder, g.size = g.names.length := fun g => (List.length_map _).symm
  rw [hsize, show (d.bound o).binds.names = _ from BindsHolder.names_add hn h.allowed, dedup_append_singleton hn,
    List.length_append, List.length_singleton]
  rw [hsize] at hd
  obtain ⟨p, hp, -⟩ | ⟨-, -, hlt⟩ := h.cases
  · -- the name leaves its old place
    obtain ⟨hmem, hpname⟩ := BindsHolder.mem_of_get? hp
    have hin : o.name ∈ d.binds.names := hpname ▸ List.mem_map_of_mem hmem
    have hlt : (d.binds.names.filter fun y => y ≠ o.name).length < d.binds.names.length :=
      List.length_filter_lt_length_iff_exists.mpr ⟨o.name, hin, by simp⟩
    omega
  · rw [hsize] at hlt
    have := List.length_filter_le (fun y => decide (y ≠ o.name)) d.binds.names
    omega

end StatementData
end DbClient
