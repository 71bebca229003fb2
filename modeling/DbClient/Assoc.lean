/-! Finite maps kept as lists of pairs, in the order in which their keys came, and tables whose keys
are handed out by a counter. A lookup after an update is settled by one equation per operation. -/
namespace DbClient

/-- A finite map as a list of pairs in order of first insertion. -/
structure Assoc (κ α : Type) where
  pairs : List (κ × α)
  deriving Repr, DecidableEq

namespace Assoc
variable {κ α : Type} [DecidableEq κ]

/-- The first value listed under a key. -/
def find (k : κ) : List (κ × α) → Option α
  | [] => none
  | (k', a) :: rest => if k' = k then some a else find k rest

/-- Overwrites the first pair of a key, or appends a new pair. -/
def write (k : κ) (a : α) : List (κ × α) → List (κ × α)
  | [] => [(k, a)]
  | (k', a') :: rest => if k' = k then (k, a) :: rest else (k', a') :: write k a rest

def empty : Assoc κ α := ⟨[]⟩

instance : EmptyCollection (Assoc κ α) := ⟨empty⟩

def get? (m : Assoc κ α) (k : κ) : Option α := find k m.pairs

/-- A key that is present keeps its place, a new one goes to the end. -/
def put (m : Assoc κ α) (k : κ) (a : α) : Assoc κ α := ⟨write k a m.pairs⟩

def erase (m : Assoc κ α) (k : κ) : Assoc κ α := ⟨m.pairs.filter fun p => p.1 ≠ k⟩

def contains (m : Assoc κ α) (k : κ) : Bool := (m.get? k).isSome

def modify (m : Assoc κ α) (k : κ) (f : α → α) : Assoc κ α :=
  ⟨m.pairs.map fun p => if p.1 = k then (p.1, f p.2) else p⟩

def size (m : Assoc κ α) : Nat := m.pairs.length

def keys (m : Assoc κ α) : List κ := m.pairs.map (·.1)

def values (m : Assoc κ α) : List α := m.pairs.map (·.2)

@[simp] theorem get?_empty (k : κ) : (∅ : Assoc κ α).get? k = none := rfl

theorem find_write (k j : κ) (a : α) (l : List (κ × α)) :
    find j (write k a l) = if k = j then some a else find j l := by
  induction l with
  | nil => simp [find, write]
  | cons p rest ih =>
    obtain ⟨k', a'⟩ := p
    by_cases h : k' = k
    · subst h
      by_cases hj : k' = j <;> simp [find, write, hj]
    · by_cases hj : k' = j
      · subst hj
        simp [find, write, h, Ne.symm h]
      · simp [find, write, h, hj, ih]

@[simp] theorem get?_put (m : Assoc κ α) (k j : κ) (a : α) :
    (m.put k a).get? j = if k = j then some a else m.get? j := find_write k j a m.pairs

theorem find_filter (k j : κ) (l : List (κ × α)) :
    find j (l.filter fun p => p.1 ≠ k) = if k = j then none else find j l := by
  induction l with
  | nil => simp [find]
  | cons p rest ih =>
    obtain ⟨k', a'⟩ := p
    by_cases h : k' = k
    · subst h
      by_cases hj : k' = j
      · simpa [find, hj] using ih
      · simpa [find, hj] using ih
    · by_cases hj : k' = j
      · subst hj
        simp [find, h, Ne.symm h]
      · simpa [find, h, hj] using ih

@[simp] theorem get?_erase (m : Assoc κ α) (k j : κ) :
    (m.erase k).get? j = if k = j then none else m.get? j := find_filter k j m.pairs

theorem find_map (k j : κ) (f : α → α) (l : List (κ × α)) :
    find j (l.map fun p => if p.1 = k then (p.1, f p.2) else p)
      = if k = j then (find j l).map f else find j l := by
  induction l with
  | nil => simp [find]
  | cons p rest ih =>
    obtain ⟨k', a'⟩ := p
    by_cases h : k' = k
    · subst h
      by_cases hj : k' = j
      · simp [find, hj]
      · simpa [find, hj] using ih
    · by_cases hj : k' = j
      · subst hj
        simp [find, h, Ne.symm h]
      · simpa [find, h, hj] using ih

@[simp] theorem get?_modify (m : Assoc κ α) (k j : κ) (f : α → α) :
    (m.modify k f).get? j = if k = j then (m.get? j).map f else m.get? j := find_map k j f m.pairs

end Assoc

/-- A map whose keys are handed out by a counter and never again. -/
structure Table (α : Type) where
  next : Nat
  rows : Assoc Nat α
  deriving Repr, DecidableEq

namespace Table
variable {α : Type}

def empty : Table α := ⟨0, ∅⟩

instance : EmptyCollection (Table α) := ⟨empty⟩

def get? (t : Table α) (id : Nat) : Option α := t.rows.get? id

/-- Stores a value under the next key. -/
def add (t : Table α) (a : α) : Table α := ⟨t.next + 1, t.rows.put t.next a⟩

def modify (t : Table α) (id : Nat) (f : α → α) : Table α := { t with rows := t.rows.modify id f }

def erase (t : Table α) (id : Nat) : Table α := { t with rows := t.rows.erase id }

@[simp] theorem get?_empty (id : Nat) : (∅ : Table α).get? id = none := rfl

@[simp] theorem get?_add (t : Table α) (a : α) (id : Nat) :
    (t.add a).get? id = if t.next = id then some a else t.get? id := Assoc.get?_put _ _ _ _

@[simp] theorem get?_modify (t : Table α) (id j : Nat) (f : α → α) :
    (t.modify id f).get? j = if id = j then (t.get? j).map f else t.get? j :=
  Assoc.get?_modify _ _ _ _

@[simp] theorem get?_erase (t : Table α) (id j : Nat) :
    (t.erase id).get? j = if id = j then none else t.get? j := Assoc.get?_erase _ _ _

@[simp] theorem next_modify (t : Table α) (id : Nat) (f : α → α) :
    (t.modify id f).next = t.next := rfl

@[simp] theorem next_erase (t : Table α) (id : Nat) : (t.erase id).next = t.next := rfl

end Table
end DbClient
