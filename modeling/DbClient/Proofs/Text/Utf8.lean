import DbClient.Text.Utf8
import Mathlib.Data.List.Basic

/-! UTF-8 as a code: what is encoded is decoded to the same characters, and the positions between two characters are
told from all others by the byte that stands there, so that the last one below a limit can be sought downwards. -/
namespace DbClient.Text.Utf8

/-! ### Single characters -/

lemma toNat_ofNat {n : Nat} (h : n < 256) : (UInt8.ofNat n).toNat = n := by
  simp [Nat.mod_eq_of_lt h]

lemma toNat_tailByte (n : Nat) : (tailByte n).toNat = 0x80 + n % 0x40 := toNat_ofNat (by omega)

@[simp] lemma isTail_tailByte (n : Nat) : isTail (tailByte n) = true := by
  simp only [isTail, toNat_tailByte, Bool.and_eq_true, decide_eq_true_eq]
  omega

lemma toNat_lt (c : Char) : c.toNat < 0x110000 := by
  rcases c.valid with h | ⟨-, h⟩
  · exact Nat.lt_trans h (by decide)
  · exact h

lemma not_surrogate (c : Char) : c.toNat < 0xD800 ∨ 0xDFFF < c.toNat := by
  rcases c.valid with h | ⟨h, -⟩
  · exact .inl h
  · exact .inr h

/-- The first byte of a character tells its length and which second bytes may follow. -/
structure Leads (b : UInt8) (length low high : Nat) : Prop where
  wide : ¬b.toNat < 0x80
  lead : lead? b = some (length, low, high)

variable {b b2 b3 b4 : UInt8} {low high : Nat}

lemma front_two (h : Leads b 2 low high) (h2 : low ≤ b2.toNat ∧ b2.toNat ≤ high) (rest : List UInt8) :
    front b (b2 :: rest) = .char (Char.ofNat ((b.toNat - 0xC0) * 0x40 + (b2.toNat - 0x80))) 2 := by
  have hin : ¬(b2.toNat < low ∨ high < b2.toNat) := by omega
  simp only [front, h.wide, h.lead, hin, if_false, if_true]

lemma front_three (h : Leads b 3 low high) (h2 : low ≤ b2.toNat ∧ b2.toNat ≤ high) (h3 : isTail b3 = true)
    (rest : List UInt8) : front b (b2 :: b3 :: rest) =
      .char (Char.ofNat ((b.toNat - 0xE0) * 0x1000 + (b2.toNat - 0x80) * 0x40 + (b3.toNat - 0x80))) 3 := by
  have hin : ¬(b2.toNat < low ∨ high < b2.toNat) := by omega
  have h32 : ¬(3 : Nat) = 2 := by decide
  simp only [front, h.wide, h.lead, hin, h3, h32, Bool.not_true, Bool.false_eq_true, if_false, if_true]

lemma front_four (h : Leads b 4 low high) (h2 : low ≤ b2.toNat ∧ b2.toNat ≤ high) (h3 : isTail b3 = true)
    (h4 : isTail b4 = true) (rest : List UInt8) : front b (b2 :: b3 :: b4 :: rest) =
      .char (Char.ofNat ((b.toNat - 0xF0) * 0x40000 + (b2.toNat - 0x80) * 0x1000 + (b3.toNat - 0x80) * 0x40
        + (b4.toNat - 0x80))) 4 := by
  have hin : ¬(b2.toNat < low ∨ high < b2.toNat) := by omega
  have h42 : ¬(4 : Nat) = 2 := by decide
  have h43 : ¬(4 : Nat) = 3 := by decide
  simp only [front, h.wide, h.lead, hin, h3, h4, h42, h43, Bool.not_true, Bool.false_eq_true, if_false]

/-- The first byte of three leaves room above the shorter forms and around the surrogates. -/
lemma leads_three {n : Nat} (h : 0x800 ≤ n) (h' : n < 0x10000) (hs : n < 0xD800 ∨ 0xDFFF < n) :
    ∃ low high, Leads (UInt8.ofNat (0xE0 + n / 0x1000)) 3 low high ∧
      low ≤ 0x80 + n / 0x40 % 0x40 ∧ 0x80 + n / 0x40 % 0x40 ≤ high := by
  have hb : (UInt8.ofNat (0xE0 + n / 0x1000)).toNat = 0xE0 + n / 0x1000 := toNat_ofNat (by omega)
  have hwide : ¬(UInt8.ofNat (0xE0 + n / 0x1000)).toNat < 0x80 := by omega
  by_cases h0 : n / 0x1000 = 0
  · refine ⟨0xA0, 0xBF, ⟨hwide, ?_⟩, by omega, by omega⟩
    simp only [lead?, h0]
    decide
  · by_cases hd : n / 0x1000 = 13
    · refine ⟨0x80, 0x9F, ⟨hwide, ?_⟩, by omega, by omega⟩
      simp only [lead?, hd]
      decide
    · refine ⟨0x80, 0xBF, ⟨hwide, ?_⟩, by omega, by omega⟩
      simp only [lead?, hb]
      rw [if_neg (by omega), if_neg (by omega), if_neg (by omega), if_pos (by omega)]

/-- The first byte of four leaves room above the shorter forms and below the greatest scalar value. -/
lemma leads_four {n : Nat} (h : 0x10000 ≤ n) (h' : n < 0x110000) :
    ∃ low high, Leads (UInt8.ofNat (0xF0 + n / 0x40000)) 4 low high ∧
      low ≤ 0x80 + n / 0x1000 % 0x40 ∧ 0x80 + n / 0x1000 % 0x40 ≤ high := by
  have hb : (UInt8.ofNat (0xF0 + n / 0x40000)).toNat = 0xF0 + n / 0x40000 := toNat_ofNat (by omega)
  have hwide : ¬(UInt8.ofNat (0xF0 + n / 0x40000)).toNat < 0x80 := by omega
  by_cases h0 : n / 0x40000 = 0
  · refine ⟨0x90, 0xBF, ⟨hwide, ?_⟩, by omega, by omega⟩
    simp only [lead?, h0]
    decide
  · by_cases h4 : n / 0x40000 = 4
    · refine ⟨0x80, 0x8F, ⟨hwide, ?_⟩, by omega, by omega⟩
      simp only [lead?, h4]
      decide
    · refine ⟨0x80, 0xBF, ⟨hwide, ?_⟩, by omega, by omega⟩
      simp only [lead?, hb]
      rw [if_neg (by omega), if_neg (by omega), if_neg (by omega), if_neg (by omega), if_neg (by omega),
        if_pos (by omega)]

/-- The bytes of a character, by the number of them. -/
lemma encodeChar_cases (c : Char) :
    (c.toNat < 0x80 ∧ encodeChar c = [UInt8.ofNat c.toNat]) ∨
    (0x80 ≤ c.toNat ∧ c.toNat < 0x800 ∧ encodeChar c = [UInt8.ofNat (0xC0 + c.toNat / 0x40), tailByte c.toNat]) ∨
    (0x800 ≤ c.toNat ∧ c.toNat < 0x10000 ∧ encodeChar c =
      [UInt8.ofNat (0xE0 + c.toNat / 0x1000), tailByte (c.toNat / 0x40), tailByte c.toNat]) ∨
    (0x10000 ≤ c.toNat ∧ encodeChar c = [UInt8.ofNat (0xF0 + c.toNat / 0x40000), tailByte (c.toNat / 0x1000),
      tailByte (c.toNat / 0x40), tailByte c.toNat]) := by
  unfold encodeChar
  dsimp only
  by_cases h1 : c.toNat < 0x80
  · exact .inl ⟨h1, if_pos h1⟩
  · by_cases h2 : c.toNat < 0x800
    · exact .inr (.inl ⟨by omega, h2, by rw [if_neg h1, if_pos h2]⟩)
    · by_cases h3 : c.toNat < 0x10000
      · exact .inr (.inr (.inl ⟨by omega, h3, by rw [if_neg h1, if_neg h2, if_pos h3]⟩))
      · exact .inr (.inr (.inr ⟨by omega, by rw [if_neg h1, if_neg h2, if_neg h3]⟩))

/-- What a character is encoded as is read as that character, whatever follows. -/
theorem front_encodeChar (c : Char) (rest : List UInt8) : ∃ b tail, encodeChar c = b :: tail ∧
    front b (tail ++ rest) = .char c (tail.length + 1) := by
  have hback : Char.ofNat c.toNat = c := Char.ofNat_toNat c
  have hlt := toNat_lt c
  have hs := not_surrogate c
  obtain ⟨h, he⟩ | ⟨h, h', he⟩ | ⟨h, h', he⟩ | ⟨h, he⟩ := encodeChar_cases c <;> refine ⟨_, _, he, ?_⟩
  · have hb : (UInt8.ofNat c.toNat).toNat = c.toNat := toNat_ofNat (by omega)
    simp only [front, hb, h, if_true, hback, List.length_nil]
  · have hb : (UInt8.ofNat (0xC0 + c.toNat / 0x40)).toNat = 0xC0 + c.toNat / 0x40 := toNat_ofNat (by omega)
    have hlead : Leads (UInt8.ofNat (0xC0 + c.toNat / 0x40)) 2 0x80 0xBF := by
      refine ⟨by omega, ?_⟩
      simp only [lead?, hb]
      rw [if_pos (by omega)]
    have hval : (0xC0 + c.toNat / 0x40 - 0xC0) * 0x40 + (0x80 + c.toNat % 0x40 - 0x80) = c.toNat := by omega
    have hsecond : 0x80 ≤ (tailByte c.toNat).toNat ∧ (tailByte c.toNat).toNat ≤ 0xBF := by
      rw [toNat_tailByte]
      omega
    have hfront := front_two hlead hsecond rest
    rw [hb, toNat_tailByte, hval, hback] at hfront
    exact hfront
  · have hb : (UInt8.ofNat (0xE0 + c.toNat / 0x1000)).toNat = 0xE0 + c.toNat / 0x1000 := toNat_ofNat (by omega)
    obtain ⟨low, high, hlead, hin⟩ := leads_three h h' hs
    have hval : (0xE0 + c.toNat / 0x1000 - 0xE0) * 0x1000 + (0x80 + c.toNat / 0x40 % 0x40 - 0x80) * 0x40
        + (0x80 + c.toNat % 0x40 - 0x80) = c.toNat := by omega
    rw [← toNat_tailByte] at hin
    have hfront := front_three hlead hin (isTail_tailByte c.toNat) rest
    rw [hb, toNat_tailByte, toNat_tailByte, hval, hback] at hfront
    exact hfront
  · have hb : (UInt8.ofNat (0xF0 + c.toNat / 0x40000)).toNat = 0xF0 + c.toNat / 0x40000 := toNat_ofNat (by omega)
    obtain ⟨low, high, hlead, hin⟩ := leads_four h hlt
    have hval : (0xF0 + c.toNat / 0x40000 - 0xF0) * 0x40000 + (0x80 + c.toNat / 0x1000 % 0x40 - 0x80) * 0x1000
        + (0x80 + c.toNat / 0x40 % 0x40 - 0x80) * 0x40 + (0x80 + c.toNat % 0x40 - 0x80) = c.toNat := by omega
    rw [← toNat_tailByte] at hin
    have hfront := front_four hlead hin (isTail_tailByte (c.toNat / 0x40)) (isTail_tailByte c.toNat) rest
    rw [hb, toNat_tailByte, toNat_tailByte, toNat_tailByte, hval, hback] at hfront
    exact hfront

/-- Only the first byte of a character is not one that continues it. -/
theorem tails_encodeChar (c : Char) : ∃ b tail, encodeChar c = b :: tail ∧ isTail b = false ∧
    ∀ t ∈ tail, isTail t = true := by
  have hlt := toNat_lt c
  have hfirst : ∀ n, n < 256 → n < 0x80 ∨ 0xBF < n → isTail (UInt8.ofNat n) = false := fun n hn hout => by
    simp only [isTail, toNat_ofNat hn, Bool.and_eq_false_iff, decide_eq_false_iff_not]
    omega
  obtain ⟨h, he⟩ | ⟨h, h', he⟩ | ⟨h, h', he⟩ | ⟨h, he⟩ := encodeChar_cases c <;>
    exact ⟨_, _, he, hfirst _ (by omega) (by omega), by simp⟩

/-! ### Decoding -/

lemma decodeFrom_skip (tail rest : List UInt8) : decodeFrom tail.length (tail ++ rest) = decodeFrom 0 rest := by
  induction tail with
  | nil => rfl
  | cons b tail ih => exact ih

/-- A text is decoded to the characters of which it is made. -/
theorem decodeFrom_encode (s : List Char) : decodeFrom 0 (encode s) = some s := by
  induction s with
  | nil => rfl
  | cons c rest ih =>
    obtain ⟨b, tail, he, hfront⟩ := front_encodeChar c (encode rest)
    rw [encode_cons, he, List.cons_append, decodeFrom, hfront]
    dsimp only
    rw [Nat.add_sub_cancel, decodeFrom_skip, ih, Option.map_some]

theorem decode?_encode (s : List Char) : decode? (encode s) = some (String.ofList s) := by
  rw [decode?, decodeFrom_encode, Option.map_some]

theorem decode?_bytes (s : String) : decode? (bytes s) = some s := by
  rw [bytes, decode?_encode, String.ofList_toList]

/-! ### Boundaries -/

/-- A position between two characters, or at an end: the bytes before it are those of the first characters. -/
def Boundary (s : List Char) (n : Nat) : Prop := ∃ p, p <+: s ∧ (encode p).length = n

/-- A position is the end, or no byte stands there that continues a character. -/
def isBoundary (bs : List UInt8) (n : Nat) : Bool := n = bs.length || bs[n]?.any fun b => !isTail b

lemma boundary_zero (s : List Char) : Boundary s 0 := ⟨[], List.nil_prefix, rfl⟩

/-- No character is cut. -/
lemma boundary_cons {c : Char} {s : List Char} {n : Nat} (hn : n ≠ 0) :
    Boundary (c :: s) n ↔ (encodeChar c).length ≤ n ∧ Boundary s (n - (encodeChar c).length) := by
  constructor
  · rintro ⟨p, hp, rfl⟩
    cases p with
    | nil => exact absurd rfl hn
    | cons d q =>
      obtain ⟨rfl, hq⟩ := List.cons_prefix_cons.mp hp
      rw [encode_cons, List.length_append]
      exact ⟨by omega, q, hq, by omega⟩
  · rintro ⟨hle, p, hp, hlen⟩
    refine ⟨c :: p, List.cons_prefix_cons.mpr ⟨rfl, hp⟩, ?_⟩
    rw [encode_cons, List.length_append]
    omega

lemma isBoundary_append {bs rest : List UInt8} {n : Nat} (h : bs.length ≤ n) :
    isBoundary (bs ++ rest) n = isBoundary rest (n - bs.length) := by
  have hend : decide (n = (bs ++ rest).length) = decide (n - bs.length = rest.length) := by
    rw [List.length_append]
    exact decide_eq_decide.mpr (by omega)
  rw [isBoundary, isBoundary, hend, List.getElem?_append_right h]

/-- The positions between characters are those at which no byte stands that continues one. -/
theorem boundary_iff {s : List Char} {n : Nat} : Boundary s n ↔ isBoundary (encode s) n = true := by
  induction s generalizing n with
  | nil =>
    have hnil : Boundary [] n ↔ n = 0 := by
      constructor
      · rintro ⟨p, hp, rfl⟩
        rw [List.prefix_nil.mp hp]
        rfl
      · rintro rfl
        exact boundary_zero []
    simpa [isBoundary, encode] using hnil
  | cons c rest ih =>
    obtain ⟨b, tail, he, hb, htail⟩ := tails_encodeChar c
    by_cases h0 : n = 0
    · subst h0
      have hfirst : isBoundary (encode (c :: rest)) 0 = true := by simp [isBoundary, he, hb]
      exact iff_of_true (boundary_zero _) hfirst
    rw [boundary_cons h0]
    by_cases hn : (encodeChar c).length ≤ n
    · rw [encode_cons, isBoundary_append hn, ← ih]
      exact and_iff_right hn
    · -- the position lies within the first character
      have hcut : isBoundary (encode (c :: rest)) n = false := by
        have hlt : n < (encodeChar c).length := by omega
        obtain ⟨m, rfl⟩ := Nat.exists_eq_succ_of_ne_zero h0
        have hm : m < tail.length := by simpa [he] using hlt
        have hend : ¬m + 1 = (encodeChar c).length + (encode rest).length := by omega
        rw [isBoundary, encode_cons, List.getElem?_append_left hlt, List.length_append, he, List.getElem?_cons_succ,
          List.getElem?_eq_getElem hm, ← he]
        simp [hend, htail tail[m] (List.getElem_mem hm)]
      rw [hcut]
      exact iff_of_false (fun h => hn h.1) Bool.false_ne_true

/-- The last boundary not above a position, sought downwards. -/
def lastBoundary (bs : List UInt8) : Nat → Nat
  | 0 => 0
  | n + 1 => if isBoundary bs (n + 1) then n + 1 else lastBoundary bs n

/-- The search ends at a boundary, and it passes none. -/
theorem lastBoundary_spec (s : List Char) (n : Nat) : Boundary s (lastBoundary (encode s) n) ∧
    lastBoundary (encode s) n ≤ n ∧ ∀ m, m ≤ n → Boundary s m → m ≤ lastBoundary (encode s) n := by
  induction n with
  | zero => exact ⟨boundary_zero s, Nat.le_refl 0, fun m hm _ => hm⟩
  | succ n ih =>
    unfold lastBoundary
    split
    · rename_i h
      exact ⟨boundary_iff.mpr h, Nat.le_refl _, fun m hm _ => hm⟩
    · rename_i h
      obtain ⟨hb, hle, hmax⟩ := ih
      refine ⟨hb, Nat.le_succ_of_le hle, fun m hm hbm => ?_⟩
      have hne : m ≠ n + 1 := fun e => h (boundary_iff.mp (e ▸ hbm))
      exact hmax m (by omega) hbm

end DbClient.Text.Utf8
