import DbClient.Proofs.Values.Rounding
import DbClient.Value.Convert
import Mathlib.Data.List.TakeWhile
import Mathlib.Data.Nat.Digits.Defs

/-! Decimal integer numerals in texts. One that is too long to be read as an integer is read as a double, and then it
is as far outside every range of integers as the integer that it denotes. -/
namespace DbClient

namespace Text

/-! ### Digits -/

/-- The character of a decimal digit. -/
def digitChar (d : Fin 10) : Char := Char.ofNat ('0'.toNat + d)

/-- The number that digits denote, the most significant of them first. -/
def positionalValue (ds : List (Fin 10)) : Nat := Nat.ofDigits 10 (ds.map Fin.val).reverse

@[simp] lemma digit?_digitChar (d : Fin 10) : digit? (digitChar d) = some d.val := by
  revert d
  decide

@[simp] lemma isDigit_digitChar (d : Fin 10) : isDigit (digitChar d) = true := by
  rw [isDigit, digit?_digitChar, Option.isSome_some]

@[simp] lemma isBlank_digitChar (d : Fin 10) : isBlank (digitChar d) = false := by
  revert d
  decide

lemma digitChar_ne (d : Fin 10) : digitChar d ≠ '+' ∧ digitChar d ≠ '-' := by
  revert d
  decide

/-- Reading digits one after the other gives their positional value. -/
lemma digitsValue_digits (acc : Nat) (ds : List (Fin 10)) :
    Decimal.digitsValue acc (ds.map digitChar) = acc * 10 ^ ds.length + positionalValue ds := by
  induction ds generalizing acc with
  | nil => simp [Decimal.digitsValue, positionalValue]
  | cons d rest ih =>
    have hvalue : positionalValue (d :: rest) = positionalValue rest + 10 ^ rest.length * d := by
      simp [positionalValue, Nat.ofDigits_append]
    have hpow : acc * 10 ^ (rest.length + 1) = acc * 10 * 10 ^ rest.length := by
      rw [Nat.pow_succ, Nat.mul_comm (10 ^ _), Nat.mul_assoc]
    rw [List.map_cons, Decimal.digitsValue, digit?_digitChar, Option.getD_some, ih, hvalue, List.length_cons, hpow,
      Nat.add_mul, Nat.mul_comm d.val]
    omega

lemma le_digitsValue (acc : Nat) (ds : List (Fin 10)) : acc ≤ Decimal.digitsValue acc (ds.map digitChar) := by
  rw [digitsValue_digits]
  exact Nat.le_trans (Nat.le_mul_of_pos_right acc (Nat.pow_pos (by decide))) (Nat.le_add_right _ _)

/-- Digits are refused exactly when their value passes the limit; the value read so far does so no earlier. -/
lemma readMagnitude_digits {limit : Nat} (overflow : NumeralError) {acc : Nat} (h : acc ≤ limit) (ds : List (Fin 10)) :
    readMagnitude limit overflow acc (ds.map digitChar) =
      if Decimal.digitsValue acc (ds.map digitChar) ≤ limit
      then .ok (Decimal.digitsValue acc (ds.map digitChar)) else .error overflow := by
  induction ds generalizing acc with
  | nil => simp [readMagnitude, Decimal.digitsValue, h]
  | cons d rest ih =>
    simp only [List.map_cons, readMagnitude, Decimal.digitsValue, digit?_digitChar, Option.getD_some]
    split
    · rename_i hle
      exact ih hle
    · rename_i hgt
      have hmore := le_digitsValue (acc * 10 + d) rest
      rw [if_neg (by omega)]

/-! ### Numerals with a sign -/

/-- The sign of a numeral, which may be left out. -/
inductive Sign where
  | absent
  | plus
  | minus
  deriving Repr, DecidableEq

namespace Sign

def chars : Sign → List Char
  | absent => []
  | plus => ['+']
  | minus => ['-']

def apply : Sign → Nat → Int
  | minus, n => -n
  | _, n => n

@[simp] lemma natAbs_apply (sign : Sign) (n : Nat) : (sign.apply n).natAbs = n := by
  cases sign <;> simp [apply]

lemma not_blank (sign : Sign) : ∀ c ∈ sign.chars, isBlank c = false := by
  cases sign with
  | absent => exact fun c hc => absurd hc List.not_mem_nil
  | plus => exact fun c hc => List.mem_singleton.mp hc ▸ rfl
  | minus => exact fun c hc => List.mem_singleton.mp hc ▸ rfl

end Sign

/-- A text that consists of a decimal integer numeral and blank characters around it. -/
structure IntegerText where
  before : List Char
  sign : Sign
  digits : List (Fin 10)
  after : List Char
  blank : (∀ c ∈ before, isBlank c = true) ∧ ∀ c ∈ after, isBlank c = true
  nonempty : digits ≠ []

namespace IntegerText

/-- The numeral without the blank characters. -/
def numeral (s : IntegerText) : List Char := s.sign.chars ++ s.digits.map digitChar

def text (s : IntegerText) : String := String.ofList (s.before ++ s.numeral ++ s.after)

/-- The integer that the text denotes. -/
def value (s : IntegerText) : Int := s.sign.apply (positionalValue s.digits)

lemma numeral_ne_nil (s : IntegerText) : s.numeral ≠ [] := by
  simp [numeral, s.nonempty]

lemma numeral_not_blank (s : IntegerText) : ∀ c ∈ s.numeral, isBlank c = false := by
  intro c hc
  rcases List.mem_append.mp hc with hs | hd
  · exact s.sign.not_blank c hs
  · obtain ⟨d, -, rfl⟩ := List.mem_map.mp hd
    exact isBlank_digitChar d

end IntegerText

/-! ### Trimming -/

lemma dropBlank_append {blanks s : List Char} (h : ∀ c ∈ blanks, isBlank c = true) :
    dropBlank (blanks ++ s) = dropBlank s := List.dropWhile_append_of_pos h

lemma dropBlank_of_not_blank {s : List Char} (h : ∀ c ∈ s, isBlank c = false) : dropBlank s = s := by
  cases s with
  | nil => rfl
  | cons c rest =>
    have hc := h c List.mem_cons_self
    simp [dropBlank, hc]

/-- Trimming takes off just the blank characters around a text. -/
lemma trim_surrounded {before s after : List Char} (hb : ∀ c ∈ before, isBlank c = true)
    (ha : ∀ c ∈ after, isBlank c = true) (hs : ∀ c ∈ s, isBlank c = false) (h0 : s ≠ []) :
    trim (before ++ s ++ after) = s := by
  have hfront : dropBlank (s ++ after) = s ++ after := by
    cases s with
    | nil => exact absurd rfl h0
    | cons c rest =>
      have hc := hs c List.mem_cons_self
      simp [dropBlank, hc]
  have hback : ∀ c ∈ after.reverse, isBlank c = true := fun c hc => ha c (List.mem_reverse.mp hc)
  have hrest : ∀ c ∈ s.reverse, isBlank c = false := fun c hc => hs c (List.mem_reverse.mp hc)
  rw [trim, List.append_assoc, dropBlank_append hb, hfront, List.reverse_append, dropBlank_append hback,
    dropBlank_of_not_blank hrest, List.reverse_reverse]

/-! ### Reading -/

namespace IntegerText

/-- A numeral without its sign is read up to the limit of its sign. -/
lemma readInteger_numeral (s : IntegerText) (below above : Nat) : readInteger below above s.numeral =
    (readMagnitude (if s.sign = .minus then below else above) (if s.sign = .minus then .tooSmall else .tooLarge) 0
      (s.digits.map digitChar)).map s.sign.apply := by
  obtain ⟨d, rest, hds⟩ := List.exists_cons_of_ne_nil s.nonempty
  obtain ⟨hplus, hminus⟩ := digitChar_ne d
  unfold numeral
  rw [hds]
  cases s.sign with
  | absent =>
    simp only [Sign.chars, List.nil_append, List.map_cons, reduceCtorEq, if_false]
    unfold readInteger
    split
    · rename_i h
      cases h
    · rename_i h
      exact absurd (List.cons.inj h).1 hplus
    · rename_i h
      exact absurd (List.cons.inj h).1 hminus
    · rename_i h
      exact absurd (List.cons.inj h).1 hplus
    · rename_i h
      exact absurd (List.cons.inj h).1 hminus
    · rfl
  | plus => rfl
  | minus => rfl

/-- A numeral is read as the integer that it denotes, when that lies within the bounds. -/
lemma readInteger_text (s : IntegerText) (below above : Nat) :
    (-(below : Int) ≤ s.value → s.value ≤ above → readInteger below above s.numeral = .ok s.value) ∧
    (s.value < -below ∨ above < s.value → ∃ e, readInteger below above s.numeral = .error e) := by
  have hread := s.readInteger_numeral below above
  have hdigits : Decimal.digitsValue 0 (s.digits.map digitChar) = positionalValue s.digits := by
    rw [digitsValue_digits, Nat.zero_mul, Nat.zero_add]
  rw [readMagnitude_digits _ (Nat.zero_le _), hdigits] at hread
  rw [hread]
  unfold value
  cases s.sign with
  | minus =>
    simp only [Sign.apply, if_true]
    constructor
    · intro hlow _
      rw [if_pos (by omega)]
      rfl
    · intro hout
      rw [if_neg (by omega)]
      exact ⟨_, rfl⟩
  | _ =>
    simp only [Sign.apply, reduceCtorEq, if_false]
    constructor
    · intro _ hhigh
      rw [if_pos (by omega)]
      rfl
    · intro hout
      rw [if_neg (by omega)]
      exact ⟨_, rfl⟩

/-- The number of a numeral without its sign. -/
lemma readNumeral?_digits {ds : List (Fin 10)} (h : ds ≠ []) :
    Decimal.readNumeral? (ds.map digitChar) = some ⟨positionalValue ds, 0⟩ := by
  have hall : ∀ c ∈ ds.map digitChar, isDigit c = true := by
    intro c hc
    obtain ⟨d, -, rfl⟩ := List.mem_map.mp hc
    exact isDigit_digitChar d
  have hwhole : (ds.map digitChar).takeWhile isDigit = ds.map digitChar := List.takeWhile_eq_self_iff.mpr hall
  have hrest : (ds.map digitChar).dropWhile isDigit = [] := List.dropWhile_eq_nil_iff.mpr hall
  have hdigits : Decimal.digitsValue 0 (ds.map digitChar) = positionalValue ds := by
    rw [digitsValue_digits, Nat.zero_mul, Nat.zero_add]
  unfold Decimal.readNumeral?
  simp only [hwhole, hrest, List.append_nil, hdigits, List.map_eq_nil_iff, h, false_and, if_false,
    Decimal.readExponent?, Option.map_some, List.length_nil, Int.natCast_zero, Int.sub_self]

/-- A numeral read as a double is rounded. -/
lemma read?_numeral (s : IntegerText) : Decimal.read? .double s.numeral =
    some ((Decimal.Numeral.mk (positionalValue s.digits) 0).round .double (s.sign = .minus)) := by
  have hbody := readNumeral?_digits s.nonempty
  obtain ⟨d, rest, hds⟩ := List.exists_cons_of_ne_nil s.nonempty
  obtain ⟨hplus, hminus⟩ := digitChar_ne d
  unfold numeral
  rw [hds] at hbody ⊢
  cases s.sign with
  | absent =>
    simp only [Sign.chars, List.nil_append, List.map_cons] at hbody ⊢
    unfold Decimal.read?
    split
    rename_i negative body hif
    split at hif
    · rename_i h
      exact absurd (List.cons.inj h).1 hminus
    · rename_i h
      exact absurd (List.cons.inj h).1 hplus
    · cases hif
      rw [hbody]
      rfl
  | plus =>
    simp only [Sign.chars, List.cons_append, List.nil_append, Decimal.read?, hbody]
    rfl
  | minus =>
    simp only [Sign.chars, List.cons_append, List.nil_append, Decimal.read?, hbody]
    rfl

end IntegerText
end Text

namespace Number
open Text

/-! ### Numbers that stand for integers -/

/-- A number stands for an integer: it is that integer, or both have a magnitude beyond 128 bits, as far as the number
has an integer part. -/
inductive StandsFor : Number → Int → Prop
  | integer (n : Int) : StandsFor (.integer n) n
  | real {n : Int} {x : Binary .double} (large : 2 ^ 127 ≤ n.natAbs) (nonzero : x.isZero = false)
      (huge : ∀ m, x.truncate? = some m → 2 ^ 127 ≤ m.natAbs) : StandsFor (.real .double x) n

lemma lt_of_holds {t : IntType} {n : Int} (h : t.Holds n) : n.natAbs < 2 ^ 127 := by
  cases t <;>
    simp only [IntType.Holds, IntType.min, IntType.max, IntType.signed, IntType.bits, IntType.size, if_true,
      Bool.false_eq_true, if_false] at h <;> omega

/-- A number that stands for an integer is converted as that integer is. -/
lemma toFixed?_of_standsFor {x : Number} {n : Int} (h : StandsFor x n) (t : IntType) :
    x.toFixed? t = Fixed.ofInt? t n := by
  cases h with
  | integer => rfl
  | @real _ y large _ huge =>
    have hout : ¬t.Holds n := fun hn => absurd (lt_of_holds hn) (Nat.not_lt.mpr large)
    have hnone : Fixed.ofInt? t n = none := dif_neg hout
    rw [hnone, toFixed?]
    cases hy : y.truncate? with
    | none => rfl
    | some m =>
      have hm : ¬t.Holds m := fun h => absurd (lt_of_holds h) (Nat.not_lt.mpr (huge m hy))
      exact dif_neg hm

lemma isNonzero_of_standsFor {x : Number} {n : Int} (h : StandsFor x n) : x.isNonzero = decide (n ≠ 0) := by
  cases h with
  | integer => rfl
  | real large nonzero _ =>
    have hn : n ≠ 0 := fun h0 => by
      rw [h0] at large
      exact absurd large (by decide)
    simp [isNonzero, nonzero, hn]

/-- A numeral beyond 128 bits is rounded to a double beyond 128 bits or to an infinity. -/
lemma standsFor_round {n : Nat} (h : 2 ^ 127 ≤ n) (negative : Bool) {m : Int} (hm : m.natAbs = n) :
    StandsFor (.real .double ((Decimal.Numeral.mk n 0).round .double negative)) m := by
  have h0 : n ≠ 0 := Nat.ne_of_gt (Nat.lt_of_lt_of_le (by decide) h)
  unfold Decimal.Numeral.round
  dsimp only
  rw [if_neg h0]
  by_cases hbig : 400 < ((Text.digits n).length : Int) + 0
  · rw [if_pos hbig]
    refine .real (hm ▸ h) ?_ ?_
    · cases negative <;> decide
    · intro k hk
      have hnone : (Binary.infinity .double negative).truncate? = none := by cases negative <;> decide
      rw [hnone] at hk
      cases hk
  · have hnot : ¬((Text.digits n).length : Int) + 0 < -400 := by omega
    have hnum : n * 10 ^ (0 : Int).toNat = n := by simp
    rw [if_neg hbig, if_neg hnot, if_pos (Int.le_refl 0), hnum]
    refine .real (hm ▸ h) ?_ ?_
    · rw [Binary.isZero_ofRatio]
      exact decide_eq_false h0
    · intro k hk
      exact Binary.le_truncate_ofRatio (by decide) (by decide) h hk

/-- The text of an integer is read as a number that stands for it, however long it is. -/
theorem read?_text (s : IntegerText) : ∃ x, read? s.text = some x ∧ StandsFor x s.value := by
  have htrim : trim s.text.toList = s.numeral := by
    rw [IntegerText.text, String.toList_ofList]
    exact trim_surrounded s.blank.1 s.blank.2 s.numeral_not_blank s.numeral_ne_nil
  obtain ⟨hok, herr⟩ := s.readInteger_text (2 ^ 127) (2 ^ 127 - 1)
  unfold read?
  rw [htrim]
  dsimp only
  by_cases hin : -((2 ^ 127 : Nat) : Int) ≤ s.value ∧ s.value ≤ ((2 ^ 127 - 1 : Nat) : Int)
  · rw [hok hin.1 hin.2]
    exact ⟨_, rfl, .integer _⟩
  · obtain ⟨e, he⟩ := herr (by omega)
    have habs : s.value.natAbs = positionalValue s.digits := s.sign.natAbs_apply _
    have hlarge : 2 ^ 127 ≤ positionalValue s.digits := by omega
    rw [he, s.read?_numeral, Option.map_some]
    exact ⟨_, rfl, standsFor_round hlarge _ habs⟩

end Number
end DbClient
