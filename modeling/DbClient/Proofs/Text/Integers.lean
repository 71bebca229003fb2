import DbClient.Proofs.Values.Numerals

/-! Decimal integers as texts. The numerals within the bounds are read, each as the integer that it denotes, and nothing
else is; an integer is written as a numeral of itself. -/
namespace DbClient.Text

/-- A text is a numeral of an integer: digits, at least one of them, behind a sign or without one. -/
def Denotes (t : List Char) (n : Int) : Prop := ∃ s : IntegerText, s.numeral = t ∧ s.value = n

/-- A numeral of a sign and digits. -/
def IntegerText.bare (sign : Sign) (digits : List (Fin 10)) (h : digits ≠ []) : IntegerText where
  before := []
  sign := sign
  digits := digits
  after := []
  blank := ⟨fun _ hc => absurd hc List.not_mem_nil, fun _ hc => absurd hc List.not_mem_nil⟩
  nonempty := h

/-! ### Reading -/

/-- A character with a value is the digit of this value. -/
lemma eq_digitChar {c : Char} {d : Nat} (h : digit? c = some d) : ∃ e : Fin 10, c = digitChar e := by
  unfold digit? at h
  split at h
  · rename_i hc
    have hlow : 48 ≤ c.toNat := hc.1
    have hhigh : c.toNat ≤ 57 := hc.2
    refine ⟨⟨c.toNat - 48, by omega⟩, ?_⟩
    have hsum : '0'.toNat + (c.toNat - 48) = c.toNat := by
      change 48 + (c.toNat - 48) = c.toNat
      omega
    rw [digitChar, hsum, Char.ofNat_toNat]
  · cases h

/-- Whatever is read as a magnitude consists of digits. -/
lemma digits_of_readMagnitude {limit : Nat} {overflow : NumeralError} {acc n : Nat} {t : List Char}
    (h : readMagnitude limit overflow acc t = .ok n) : ∃ ds : List (Fin 10), t = ds.map digitChar := by
  induction t generalizing acc with
  | nil => exact ⟨[], rfl⟩
  | cons c rest ih =>
    unfold readMagnitude at h
    split at h
    · cases h
    · rename_i d hd
      dsimp only at h
      split at h
      · obtain ⟨e, rfl⟩ := eq_digitChar hd
        obtain ⟨ds, rfl⟩ := ih h
        exact ⟨e :: ds, rfl⟩
      · cases h

/-- Whatever is read as an integer is a numeral. -/
lemma numeral_of_readInteger {below above : Nat} {t : List Char} {n : Int} (h : readInteger below above t = .ok n) :
    ∃ s : IntegerText, s.numeral = t := by
  have hdigits : ∀ (sign : Sign) {limit : Nat} {overflow : NumeralError} {rest : List Char} {f : Nat → Int}, rest ≠ [] →
      (readMagnitude limit overflow 0 rest).map f = .ok n → ∃ s : IntegerText, s.numeral = sign.chars ++ rest := by
    intro sign limit overflow rest f hne hread
    cases hm : readMagnitude limit overflow 0 rest with
    | error e =>
      rw [hm] at hread
      cases hread
    | ok m =>
      obtain ⟨ds, rfl⟩ := digits_of_readMagnitude hm
      exact ⟨.bare sign ds fun h => hne (List.map_eq_nil_iff.mpr h), rfl⟩
  unfold readInteger at h
  split at h
  · cases h
  · cases h
  · cases h
  · rename_i rest _ hne
    exact hdigits .plus (fun h => hne h) h
  · rename_i rest _ hne
    exact hdigits .minus (fun h => hne h) h
  · rename_i hne _ _ _ _
    exact hdigits .absent hne h

/-- Just the numerals of the integers within the bounds are read. -/
theorem readInteger_eq_ok_iff {below above : Nat} {t : List Char} {n : Int} :
    readInteger below above t = .ok n ↔ Denotes t n ∧ -(below : Int) ≤ n ∧ n ≤ above := by
  constructor
  · intro h
    obtain ⟨s, rfl⟩ := numeral_of_readInteger h
    obtain ⟨hok, herror⟩ := s.readInteger_text below above
    by_cases hin : -(below : Int) ≤ s.value ∧ s.value ≤ above
    · obtain rfl := Except.ok.inj ((hok hin.1 hin.2).symm.trans h)
      exact ⟨⟨s, rfl, rfl⟩, hin⟩
    · obtain ⟨e, he⟩ := herror (by omega)
      exact absurd (he.symm.trans h) nofun
  · rintro ⟨⟨s, rfl, rfl⟩, hlow, hhigh⟩
    exact (s.readInteger_text below above).1 hlow hhigh

namespace Denotes
variable {t : List Char} {n m : Int}

/-- A numeral denotes one integer. -/
theorem unique (h : Denotes t n) (h' : Denotes t m) : n = m := by
  -- it is read within bounds that are wide enough for both
  have hread : ∀ {k : Int}, Denotes t k → k.natAbs ≤ n.natAbs + m.natAbs →
      readInteger (n.natAbs + m.natAbs) (n.natAbs + m.natAbs) t = .ok k := fun hk hle =>
    readInteger_eq_ok_iff.mpr ⟨hk, by omega, by omega⟩
  exact Except.ok.inj ((hread h (by omega)).symm.trans (hread h' (by omega)))

lemma not_blank (h : Denotes t n) : ∀ c ∈ t, isBlank c = false := by
  obtain ⟨s, rfl, -⟩ := h
  exact s.numeral_not_blank

/-- No point is in a numeral. -/
lemma point_notMem (h : Denotes t n) : '.' ∉ t := by
  obtain ⟨s, rfl, -⟩ := h
  intro hp
  rcases List.mem_append.mp hp with hs | hd
  · revert hs
    cases s.sign <;> decide
  · obtain ⟨d, -, hd⟩ := List.mem_map.mp hd
    revert hd
    revert d
    decide

end Denotes

/-! ### Writing -/

lemma positionalValue_concat (ds : List (Fin 10)) (d : Fin 10) :
    positionalValue (ds ++ [d]) = positionalValue ds * 10 + d := by
  simp only [positionalValue, List.map_append, List.map_cons, List.map_nil, List.reverse_append, List.reverse_cons,
    List.reverse_nil, List.nil_append, List.cons_append, Nat.ofDigits_cons]
  omega

/-- The digits of a number denote it. -/
lemma digits_eq (n : Nat) : ∃ ds : List (Fin 10), ds ≠ [] ∧ digits n = ds.map digitChar ∧ positionalValue ds = n := by
  induction n using Nat.strongRecOn with
  | ind n ih =>
    unfold digits
    split
    · rename_i hn
      exact ⟨[⟨n, hn⟩], List.cons_ne_nil _ _, rfl, by simp [positionalValue]⟩
    · rename_i hn
      obtain ⟨ds, -, hds, hvalue⟩ := ih (n / 10) (by omega)
      have hlast : n % 10 < 10 := Nat.mod_lt n (by decide)
      refine ⟨ds ++ [⟨n % 10, hlast⟩], by simp, ?_, ?_⟩
      · rw [hds, List.map_append]
        rfl
      · rw [positionalValue_concat, hvalue]
        dsimp only
        omega

/-- An integer is written as a numeral of itself. -/
theorem denotes_writeInteger (n : Int) : Denotes (writeInteger n) n := by
  cases n with
  | ofNat k =>
    obtain ⟨ds, hne, hds, hvalue⟩ := digits_eq k
    exact ⟨.bare .absent ds hne, hds.symm, congrArg Int.ofNat hvalue⟩
  | negSucc k =>
    obtain ⟨ds, hne, hds, hvalue⟩ := digits_eq (k + 1)
    refine ⟨.bare .minus ds hne, congrArg ('-' :: ·) hds.symm, ?_⟩
    change -((positionalValue ds : Nat) : Int) = Int.negSucc k
    rw [hvalue]
    rfl

end DbClient.Text
