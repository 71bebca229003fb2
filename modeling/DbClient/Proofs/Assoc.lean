import DbClient.Assoc
import Mathlib.Data.List.Nodup
import Mathlib.Data.List.Perm.Basic

/-! The keys of finite maps and tables. A lawful table has each key once, and its counter is beyond
all of them. -/
namespace DbClient

/-- What is found on one side has a counterpart on the other one. -/
lemma exists_of_map_eq {α β : Type} {f : α → β} {x y : Option α} {a : α} (h : x.map f = y.map f)
    (ha : x = some a) : ∃ b, y = some b ∧ f b = f a := by
  rw [ha, Option.map_some] at h
  exact Option.map_eq_some_iff.mp h.symm

namespace Assoc
variable {κ α : Type} [DecidableEq κ]

lemma find_isSome {k : κ} {l : List (κ × α)} : (find k l).isSome ↔ k ∈ l.map (·.1) := by
  induction l with
  | nil => simp [find]
  | cons p rest ih =>
    obtain ⟨j, a⟩ := p
    by_cases h : j = k
    · simp [find, h]
    · simp [find, h, ih, Ne.symm h]

theorem mem_keys {m : Assoc κ α} {k : κ} : k ∈ m.keys ↔ (m.get? k).isSome := find_isSome.symm

theorem mem_keys_of_get? {m : Assoc κ α} {k : κ} {a : α} (h : m.get? k = some a) : k ∈ m.keys :=
  mem_keys.mpr (by rw [h]; rfl)

theorem contains_iff {m : Assoc κ α} {k : κ} : m.contains k = true ↔ ∃ a, m.get? k = some a :=
  Option.isSome_iff_exists

lemma find_of_mem {k : κ} {a : α} {l : List (κ × α)} (hl : (l.map (·.1)).Nodup) (h : (k, a) ∈ l) :
    find k l = some a := by
  induction l with
  | nil => simp at h
  | cons p rest ih =>
    obtain ⟨j, b⟩ := p
    rw [List.map_cons, List.nodup_cons] at hl
    rcases List.mem_cons.mp h with h | h
    · cases h
      simp [find]
    · have hne : j ≠ k := by
        rintro rfl
        exact hl.1 (List.mem_map.mpr ⟨_, h, rfl⟩)
      simp only [find, hne, if_false]
      exact ih hl.2 h

lemma mem_of_find {k : κ} {a : α} {l : List (κ × α)} (h : find k l = some a) : (k, a) ∈ l := by
  induction l with
  | nil => simp [find] at h
  | cons p rest ih =>
    obtain ⟨j, b⟩ := p
    by_cases hj : j = k
    · subst hj
      simp only [find, if_true, Option.some.injEq] at h
      simp [h]
    · simp only [find, hj, if_false] at h
      exact List.mem_cons_of_mem _ (ih h)

/-- With each key once, the pairs of a map are its lookups. -/
theorem mem_pairs {m : Assoc κ α} (hm : m.keys.Nodup) {k : κ} {a : α} :
    (k, a) ∈ m.pairs ↔ m.get? k = some a := ⟨find_of_mem hm, mem_of_find⟩

lemma keys_write (k : κ) (a : α) (l : List (κ × α)) :
    (write k a l).map (·.1) = if k ∈ l.map (·.1) then l.map (·.1) else l.map (·.1) ++ [k] := by
  induction l with
  | nil => simp [write]
  | cons p rest ih =>
    obtain ⟨j, b⟩ := p
    by_cases h : j = k
    · simp [write, h]
    · have hk : k ≠ j := Ne.symm h
      simp only [write, h, if_false, List.map_cons, ih, List.mem_cons, hk, false_or]
      split <;> simp

/-- A new key goes to the end. -/
theorem keys_put (m : Assoc κ α) (k : κ) (a : α) :
    (m.put k a).keys = if k ∈ m.keys then m.keys else m.keys ++ [k] := keys_write k a m.pairs

theorem nodup_put {m : Assoc κ α} (hm : m.keys.Nodup) (k : κ) (a : α) : (m.put k a).keys.Nodup := by
  rw [keys_put]
  split
  · exact hm
  · rename_i h
    exact hm.append (List.nodup_singleton k) (by simpa using h)

theorem keys_erase (m : Assoc κ α) (k : κ) : (m.erase k).keys = m.keys.filter (· ≠ k) := by
  simp [keys, erase, List.filter_map, Function.comp_def]

theorem nodup_erase {m : Assoc κ α} (hm : m.keys.Nodup) (k : κ) : (m.erase k).keys.Nodup := by
  rw [keys_erase]
  exact hm.filter _

@[simp] theorem keys_modify (m : Assoc κ α) (k : κ) (f : α → α) : (m.modify k f).keys = m.keys := by
  simp only [keys, modify, List.map_map]
  apply List.map_congr_left
  intro p _
  by_cases h : p.1 = k <;> simp [h]

/-- Updates at two keys, or two updates that commute, can be made in either order. -/
theorem modify_comm (m : Assoc κ α) (j k : κ) (f g : α → α) (h : j = k → ∀ a, f (g a) = g (f a)) :
    (m.modify k g).modify j f = (m.modify j f).modify k g := by
  simp only [modify, List.map_map, Assoc.mk.injEq]
  apply List.map_congr_left
  rintro ⟨i, a⟩ _
  simp only [Function.comp_apply]
  by_cases hj : i = j
  · by_cases hk : i = k
    · subst hj hk
      simp [h rfl a]
    · simp [hj, hj ▸ hk]
  · by_cases hk : i = k
    · simp [hk, hk ▸ hj]
    · simp [hj, hk]

/-- An update that changes nothing at its key changes nothing. -/
theorem modify_modify (m : Assoc κ α) (k : κ) (f g : α → α) : (m.modify k g).modify k f = m.modify k (f ∘ g) := by
  simp only [modify, List.map_map, Assoc.mk.injEq]
  refine List.map_congr_left fun p _ => ?_
  by_cases hk : p.1 = k <;> simp [hk]

theorem modify_eq_self {m : Assoc κ α} (hm : m.keys.Nodup) {k : κ} {f : α → α}
    (h : ∀ a, m.get? k = some a → f a = a) : m.modify k f = m := by
  obtain ⟨l⟩ := m
  simp only [modify, Assoc.mk.injEq]
  apply (List.map_congr_left _).trans (List.map_id l)
  rintro ⟨i, a⟩ hi
  by_cases hk : i = k
  · subst hk
    simp [h a ((mem_pairs hm).mp hi)]
  · simp [hk]

lemma find_map_values {β : Type} (f : α → β) (k : κ) (l : List (κ × α)) :
    find k (l.map fun p => (p.1, f p.2)) = (find k l).map f := by
  induction l with
  | nil => rfl
  | cons p rest ih =>
    obtain ⟨j, a⟩ := p
    by_cases h : j = k <;> simp [find, h, ih]

/-- An update is, up to order, a removal and a new pair at the end. -/
theorem put_perm {m : Assoc κ α} (hm : m.keys.Nodup) (k : κ) (a : α) :
    (m.put k a).pairs.Perm ((m.erase k).pairs ++ [(k, a)]) := by
  obtain ⟨l⟩ := m
  change (write k a l).Perm (l.filter (fun p => p.1 ≠ k) ++ [(k, a)])
  induction l with
  | nil => simp [write]
  | cons p rest ih =>
    obtain ⟨j, b⟩ := p
    have hd := List.nodup_cons.mp (show (j :: rest.map (·.1)).Nodup from hm)
    by_cases h : j = k
    · subst h
      -- the rest does not know the key
      have hrest : rest.filter (fun p => p.1 ≠ j) = rest := by
        apply List.filter_eq_self.mpr
        intro p hp
        have hne : p.1 ≠ j := fun e => hd.1 (e ▸ List.mem_map_of_mem hp)
        simpa using hne
      rw [write, if_pos rfl, List.filter_cons_of_neg (by simp), hrest]
      exact (List.perm_append_singleton _ _).symm
    · simpa [write, h] using (ih hd.2).cons (j, b)

theorem get?_erase_all (ks : List κ) (m : Assoc κ α) (j : κ) :
    (ks.foldl erase m).get? j = if j ∈ ks then none else m.get? j := by
  induction ks generalizing m with
  | nil => simp
  | cons k ks ih =>
    rw [List.foldl_cons, ih, get?_erase]
    by_cases hj : j ∈ ks
    · simp [hj]
    · by_cases hk : k = j
      · simp [hk]
      · simp [hj, hk, Ne.symm hk]

end Assoc

namespace Table
variable {α : Type}

/-- Each key occurs once and has been handed out. -/
structure Lawful (t : Table α) : Prop where
  nodup : t.rows.keys.Nodup
  handed : ∀ id a, t.get? id = some a → id < t.next

theorem Lawful.get?_next {t : Table α} (h : t.Lawful) : t.get? t.next = none := by
  cases hn : t.get? t.next with
  | none => rfl
  | some a => exact absurd (h.handed _ _ hn) (Nat.lt_irrefl _)

theorem lawful_empty : (∅ : Table α).Lawful := ⟨List.nodup_nil, by simp⟩

theorem Lawful.add {t : Table α} (h : t.Lawful) (a : α) : (t.add a).Lawful where
  nodup := Assoc.nodup_put h.nodup _ _
  handed id b hb := by
    rw [get?_add] at hb
    change id < t.next + 1
    split at hb
    · omega
    · exact Nat.lt_succ_of_lt (h.handed _ _ hb)

theorem Lawful.modify {t : Table α} (h : t.Lawful) (k : Nat) (f : α → α) : (t.modify k f).Lawful where
  nodup := by
    change (t.rows.modify k f).keys.Nodup
    rw [Assoc.keys_modify]
    exact h.nodup
  handed id b hb := by
    rw [get?_modify] at hb
    rw [next_modify]
    split at hb
    · obtain ⟨a, ha, -⟩ := Option.map_eq_some_iff.mp hb
      exact h.handed _ _ ha
    · exact h.handed _ _ hb

theorem Lawful.erase {t : Table α} (h : t.Lawful) (k : Nat) : (t.erase k).Lawful where
  nodup := Assoc.nodup_erase h.nodup _
  handed id b hb := by
    rw [get?_erase] at hb
    rw [next_erase]
    split at hb
    · cases hb
    · exact h.handed _ _ hb

/-- A row that is added and taken out again leaves the others alone. -/
theorem Lawful.get?_add_erase {t : Table α} (h : t.Lawful) (a : α) (id : Nat) :
    ((t.add a).erase t.next).get? id = t.get? id := by
  rw [get?_erase, get?_add]
  split
  · rename_i e
    rw [← e, h.get?_next]
  · rfl

theorem modify_comm (t : Table α) (j k : Nat) (f g : α → α) (h : j = k → ∀ a, f (g a) = g (f a)) :
    (t.modify k g).modify j f = (t.modify j f).modify k g := by
  simp only [modify, Assoc.modify_comm _ _ _ _ _ h]

theorem modify_modify (t : Table α) (k : Nat) (f g : α → α) : (t.modify k g).modify k f = t.modify k (f ∘ g) := by
  simp only [modify, Assoc.modify_modify]

theorem Lawful.modify_eq_self {t : Table α} (ht : t.Lawful) {k : Nat} {f : α → α}
    (h : ∀ a, t.get? k = some a → f a = a) : t.modify k f = t := by
  simp only [Table.modify, Assoc.modify_eq_self ht.nodup h]

theorem get?_erase_all (ks : List Nat) (t : Table α) (j : Nat) :
    (ks.foldl erase t).get? j = if j ∈ ks then none else t.get? j := by
  induction ks generalizing t with
  | nil => simp
  | cons k ks ih =>
    rw [List.foldl_cons, ih, get?_erase]
    by_cases hj : j ∈ ks
    · simp [hj]
    · by_cases hk : k = j
      · simp [hk]
      · simp [hj, hk, Ne.symm hk]

theorem Lawful.erase_all {t : Table α} (h : t.Lawful) (ks : List Nat) : (ks.foldl Table.erase t).Lawful := by
  induction ks generalizing t with
  | nil => exact h
  | cons k ks ih => exact ih (h.erase k)

end Table
end DbClient
