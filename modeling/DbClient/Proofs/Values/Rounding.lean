import DbClient.Number.Binary
import Mathlib.Data.List.Basic

/-! Rounding to a binary format. A number of the format is rounded to itself, so that nothing is lost on the way
through its own format, and what is above a power of two is not rounded below it. -/
namespace DbClient.Binary

-- a power is the one of core, whichever others are in scope
attribute [local instance (high)] instPowNat
variable {p : Precision}

/-! ### Words -/

lemma leastExponent_lt (p : Precision) : p.leastExponent < -p.fractionBits := by
  cases p <;> decide

/-- A word has a sign bit above its magnitude. -/
lemma ofMagnitude_self (x : Binary p) : ofMagnitude p x.negative x.magnitude = x := by
  have hx := x.lt
  have hbits : 2 ^ p.bits = 2 * 2 ^ (p.bits - 1) := by cases p <;> rfl
  have hpos : 0 < 2 ^ (p.bits - 1) := Nat.two_pow_pos _
  have hword : x.magnitude + (if x.negative then 2 ^ (p.bits - 1) else 0) = x.word := by
    unfold magnitude negative
    by_cases hn : 2 ^ (p.bits - 1) ≤ x.word
    · have hmod : x.word % 2 ^ (p.bits - 1) = x.word - 2 ^ (p.bits - 1) := by
        rw [Nat.mod_eq_sub_mod hn, Nat.mod_eq_of_lt (by omega)]
      simp only [hn, decide_true, if_true, hmod]
      omega
    · simp only [hn, decide_false, Bool.false_eq_true, if_false, Nat.add_zero]
      exact Nat.mod_eq_of_lt (Nat.lt_of_not_le hn)
  apply ext
  rw [ofMagnitude, hword, ofWord]
  exact Nat.mod_eq_of_lt hx

/-- The magnitude of a number is the one of which it has been made. -/
lemma magnitude_ofMagnitude {negative : Bool} {m : Nat} (h : m ≤ p.infinityWord) :
    (ofMagnitude p negative m).magnitude = m := by
  have hlt : m < 2 ^ (p.bits - 1) := Nat.lt_of_le_of_lt h (by cases p <;> decide)
  have hbits : 2 ^ p.bits = 2 * 2 ^ (p.bits - 1) := by cases p <;> rfl
  unfold magnitude ofMagnitude ofWord
  dsimp only
  rw [hbits]
  cases negative with
  | true =>
    have hword : m + 2 ^ (p.bits - 1) < 2 * 2 ^ (p.bits - 1) := by omega
    simp only [if_true]
    rw [Nat.mod_eq_of_lt hword, Nat.add_mod_right, Nat.mod_eq_of_lt hlt]
  | false =>
    have hword : m < 2 * 2 ^ (p.bits - 1) := by omega
    simp only [Bool.false_eq_true, if_false, Nat.add_zero]
    rw [Nat.mod_eq_of_lt hword, Nat.mod_eq_of_lt hlt]

lemma roundMagnitude_le (p : Precision) (num den : Nat) : roundMagnitude p num den ≤ p.infinityWord := by
  unfold roundMagnitude
  split
  · exact Nat.zero_le _
  · exact Nat.min_le_right _ _

lemma magnitude_ofRatio (negative : Bool) (num den : Nat) :
    (ofRatio p negative num den).magnitude = roundMagnitude p num den :=
  magnitude_ofMagnitude (roundMagnitude_le p num den)

lemma isNaN_nan (p : Precision) : (nan p).isNaN = true := by
  cases p <;> decide

/-- What a word stands for, by its magnitude: no number, an infinity, a number with leading zeros or one without. -/
lemma meaning_cases (x : Binary p) :
    (p.infinityWord < x.magnitude ∧ x.meaning = .notANumber) ∨
    (x.magnitude = p.infinityWord ∧ x.meaning = .infinite x.negative) ∨
    (x.magnitude < p.infinityWord ∧ x.magnitude < 2 ^ p.fractionBits ∧
      x.meaning = .finite x.negative x.magnitude p.leastExponent) ∨
    ∃ e f, x.magnitude = (e + 1) * 2 ^ p.fractionBits + f ∧ f < 2 ^ p.fractionBits ∧
      x.magnitude < p.infinityWord ∧ x.meaning = .finite x.negative (2 ^ p.fractionBits + f) (p.leastExponent + e) := by
  have hparts : x.magnitude / 2 ^ p.fractionBits * 2 ^ p.fractionBits + x.magnitude % 2 ^ p.fractionBits
      = x.magnitude := Nat.div_add_mod' _ _
  have hfraction : x.magnitude % 2 ^ p.fractionBits < 2 ^ p.fractionBits := Nat.mod_lt _ (Nat.two_pow_pos _)
  unfold meaning
  dsimp only
  rcases Nat.lt_trichotomy x.magnitude p.infinityWord with hlt | heq | hgt
  · by_cases hexp : x.magnitude / 2 ^ p.fractionBits = 0
    · have hm : x.magnitude % 2 ^ p.fractionBits = x.magnitude := by
        rw [hexp, Nat.zero_mul, Nat.zero_add] at hparts
        exact hparts
      refine .inr (.inr (.inl ⟨hlt, hm ▸ hfraction, ?_⟩))
      rw [if_neg (by omega), if_neg (by omega), if_pos hexp, hm]
    · obtain ⟨e, he⟩ := Nat.exists_eq_succ_of_ne_zero hexp
      have hpred : p.leastExponent + ((e.succ : Nat) : Int) - 1 = p.leastExponent + e := by omega
      refine .inr (.inr (.inr ⟨e, x.magnitude % 2 ^ p.fractionBits, ?_, hfraction, hlt, ?_⟩))
      · rw [he] at hparts
        exact hparts.symm
      · rw [if_neg (by omega), if_neg (by omega), if_neg hexp, he, hpred]
  · exact .inr (.inl ⟨heq, by rw [if_neg (by omega), if_pos heq]⟩)
  · exact .inl ⟨hgt, if_pos hgt⟩

/-! ### Powers of two -/

/-- Over a power of two the logarithm is that of the numerator. -/
lemma floorLog_two_pow {num : Nat} (h : num ≠ 0) (k : Nat) : floorLog num (2 ^ k) = num.log2 - k := by
  have hself : 2 ^ num.log2 ≤ num := Nat.log2_self_le h
  unfold floorLog
  rw [Nat.log2_two_pow]
  have habove : ¬(if (0 : Int) ≤ (num.log2 : Int) - k then num < 2 ^ k * 2 ^ ((num.log2 : Int) - k).toNat
      else num * 2 ^ (-((num.log2 : Int) - k)).toNat < 2 ^ k) := by
    split
    · have hk : k + ((num.log2 : Int) - k).toNat = num.log2 := by omega
      rw [← Nat.pow_add, hk]
      exact Nat.not_lt.mpr hself
    · have hk : num.log2 + (-((num.log2 : Int) - k)).toNat = k := by omega
      have hle : 2 ^ num.log2 * 2 ^ (-((num.log2 : Int) - k)).toNat ≤ num * 2 ^ (-((num.log2 : Int) - k)).toNat :=
        Nat.mul_le_mul_right _ hself
      rw [← Nat.pow_add, hk] at hle
      exact Nat.not_lt.mpr hle
  exact if_neg habove

lemma log2_mul_two_pow {n : Nat} (h : n ≠ 0) (k : Nat) : (n * 2 ^ k).log2 = n.log2 + k := by
  have hk : 0 < 2 ^ k := Nat.two_pow_pos k
  apply (Nat.log2_eq_iff (Nat.mul_ne_zero h (Nat.ne_of_gt hk))).mpr
  rw [Nat.pow_add, Nat.add_right_comm, Nat.pow_add]
  exact ⟨Nat.mul_le_mul_right _ (Nat.log2_self_le h), Nat.mul_lt_mul_of_pos_right Nat.lt_log2_self hk⟩

lemma nearest_mul {n d : Nat} (h : 0 < d) : nearest (n * d) d = n := by
  unfold nearest
  simp [Nat.mul_div_cancel n h, h]

lemma div_le_nearest (a b : Nat) : a / b ≤ nearest a b := by
  unfold nearest
  dsimp only
  split
  · exact Nat.le_refl _
  · split <;> omega

/-! ### Exactness -/

/-- A significand on the grid of the format is rounded to itself. It has all its digits, or the grid is the finest. -/
lemma roundMagnitude_scaled {significand : Nat} {exponent : Int} (h0 : significand ≠ 0)
    (hgrid : max ((significand.log2 : Int) + exponent - p.fractionBits) p.leastExponent = exponent) (num k : Nat)
    (hnum : num = significand * 2 ^ (exponent + k).toNat) (hk : 0 ≤ exponent + k) (hscale : exponent < 0 ∨ k = 0)
    (hbound : (exponent - p.leastExponent).toNat * 2 ^ p.fractionBits + significand ≤ p.infinityWord) :
    roundMagnitude p num (2 ^ k) = (exponent - p.leastExponent).toNat * 2 ^ p.fractionBits + significand := by
  have hn0 : num ≠ 0 := hnum ▸ Nat.mul_ne_zero h0 (Nat.ne_of_gt (Nat.two_pow_pos _))
  have hlog : floorLog num (2 ^ k) = significand.log2 + exponent := by
    rw [floorLog_two_pow hn0, hnum, log2_mul_two_pow h0]
    push_cast
    omega
  unfold roundMagnitude
  rw [if_neg hn0, hlog]
  dsimp only
  rw [hgrid]
  have hround : (if 0 ≤ exponent then nearest num (2 ^ k * 2 ^ exponent.toNat)
      else nearest (num * 2 ^ (-exponent).toNat) (2 ^ k)) = significand := by
    split
    · rename_i he
      have hk0 : k = 0 := by omega
      subst hk0
      have hden : 2 ^ 0 * 2 ^ exponent.toNat = 2 ^ (exponent + (0 : Nat)).toNat := by simp
      rw [hden, hnum]
      exact nearest_mul (Nat.two_pow_pos _)
    · rename_i he
      have hsum : (exponent + k).toNat + (-exponent).toNat = k := by omega
      rw [hnum, Nat.mul_assoc, ← Nat.pow_add, hsum]
      exact nearest_mul (Nat.two_pow_pos _)
  rw [hround]
  exact Nat.min_eq_left hbound

/-- Numbers on the grid of a format are its own. -/
lemma ofScaled_exact {significand : Nat} {exponent : Int} (negative : Bool)
    (hgrid : significand ≠ 0 →
      max ((significand.log2 : Int) + exponent - p.fractionBits) p.leastExponent = exponent)
    (hbound : (exponent - p.leastExponent).toNat * 2 ^ p.fractionBits + significand ≤ p.infinityWord)
    (hzero : significand = 0 → exponent = p.leastExponent) :
    ofScaled p negative significand exponent =
      ofMagnitude p negative ((exponent - p.leastExponent).toNat * 2 ^ p.fractionBits + significand) := by
  by_cases h0 : significand = 0
  · subst h0
    have he : ¬0 ≤ exponent := by
      have := leastExponent_lt p
      have := hzero rfl
      omega
    rw [hzero rfl] at he ⊢
    unfold ofScaled ofRatio
    rw [if_neg he]
    simp [roundMagnitude]
  · unfold ofScaled ofRatio
    split
    · rename_i he
      have hone : (1 : Nat) = 2 ^ 0 := rfl
      rw [hone, roundMagnitude_scaled h0 (hgrid h0) _ 0 (by simp) (by omega) (.inr rfl) hbound]
    · rename_i he
      have hk : exponent + (-exponent).toNat = 0 := by omega
      have hone : significand = significand * 2 ^ (exponent + (-exponent).toNat).toNat := by rw [hk]; simp
      rw [roundMagnitude_scaled h0 (hgrid h0) significand (-exponent).toNat hone (by omega) (.inl (by omega)) hbound]

/-- A number that is one is not changed by being rounded to its own format. -/
theorem convert_self {x : Binary p} (h : x.isNaN = false) : x.convert p = x := by
  have hle : ¬p.infinityWord < x.magnitude := by simpa [isNaN] using h
  unfold convert
  obtain ⟨hlt, -⟩ | ⟨hinf, hx⟩ | ⟨hlt, hfraction, hx⟩ | ⟨e, f, hm, hf, hlt, hx⟩ := meaning_cases x
  · exact absurd hlt hle
  · rw [hx]
    dsimp only
    rw [infinity, ← hinf, ofMagnitude_self]
  · have hself : (p.leastExponent - p.leastExponent).toNat * 2 ^ p.fractionBits + x.magnitude = x.magnitude := by
      rw [Int.sub_self, Int.toNat_zero, Nat.zero_mul, Nat.zero_add]
    have hgrid : x.magnitude ≠ 0 →
        max ((x.magnitude.log2 : Int) + p.leastExponent - p.fractionBits) p.leastExponent = p.leastExponent := by
      intro h0
      have hlog := (Nat.log2_lt h0).mpr hfraction
      omega
    rw [hx]
    dsimp only
    rw [ofScaled_exact _ hgrid (by omega) (fun _ => rfl), hself, ofMagnitude_self]
  · have hpos : 0 < 2 ^ p.fractionBits := Nat.two_pow_pos _
    have hself : (p.leastExponent + e - p.leastExponent).toNat * 2 ^ p.fractionBits + (2 ^ p.fractionBits + f)
        = x.magnitude := by
      have hexp : (p.leastExponent + e - p.leastExponent).toNat = e := by omega
      rw [hexp, hm, Nat.succ_mul, Nat.add_assoc]
    have hgrid : 2 ^ p.fractionBits + f ≠ 0 → max (((2 ^ p.fractionBits + f).log2 : Int) + (p.leastExponent + e)
        - p.fractionBits) p.leastExponent = p.leastExponent + e := by
      intro h0
      have hlog : (2 ^ p.fractionBits + f).log2 = p.fractionBits :=
        (Nat.log2_eq_iff h0).mpr ⟨by omega, by rw [Nat.pow_succ]; omega⟩
      rw [hlog]
      omega
    rw [hx]
    dsimp only
    rw [ofScaled_exact _ hgrid (by omega) (fun h0 => by omega), hself, ofMagnitude_self]

theorem isNaN_convert {x : Binary p} (h : x.isNaN = true) (q : Precision) : (x.convert q).isNaN = true := by
  have hlt : p.infinityWord < x.magnitude := by simpa [isNaN] using h
  have hx : x.meaning = .notANumber := if_pos hlt
  rw [convert, hx]
  exact isNaN_nan q

/-! ### Bounds -/

/-- A number is not rounded below a power of two that it has reached. -/
lemma le_roundMagnitude {num m : Nat} (h : 2 ^ m ≤ num) :
    min (((m : Int) - p.fractionBits - p.leastExponent + 1).toNat * 2 ^ p.fractionBits) p.infinityWord ≤
      roundMagnitude p num 1 := by
  have h0 : num ≠ 0 := Nat.ne_of_gt (Nat.lt_of_lt_of_le (Nat.two_pow_pos m) h)
  have hm : m ≤ num.log2 := (Nat.le_log2 h0).mpr h
  have hlog : floorLog num 1 = num.log2 := by
    have := floorLog_two_pow h0 0
    rwa [Nat.pow_zero, Int.natCast_zero, Int.sub_zero] at this
  have hleast := leastExponent_lt p
  have hunit : max ((num.log2 : Int) - p.fractionBits) p.leastExponent = num.log2 - p.fractionBits := by omega
  have hself : 2 ^ num.log2 ≤ num := Nat.log2_self_le h0
  -- the significand has all its digits
  have hfull : 2 ^ p.fractionBits ≤ (if 0 ≤ (num.log2 : Int) - p.fractionBits
      then nearest num (1 * 2 ^ ((num.log2 : Int) - p.fractionBits).toNat)
      else nearest (num * 2 ^ (-((num.log2 : Int) - p.fractionBits)).toNat) 1) := by
    split
    · have hsum : p.fractionBits + ((num.log2 : Int) - p.fractionBits).toNat = num.log2 := by omega
      refine Nat.le_trans ?_ (div_le_nearest _ _)
      rw [Nat.one_mul, Nat.le_div_iff_mul_le (Nat.two_pow_pos _), ← Nat.pow_add, hsum]
      exact hself
    · have hsum : num.log2 + (-((num.log2 : Int) - p.fractionBits)).toNat = p.fractionBits := by omega
      refine Nat.le_trans ?_ (div_le_nearest _ _)
      rw [Nat.div_one]
      calc 2 ^ p.fractionBits
          = 2 ^ num.log2 * 2 ^ (-((num.log2 : Int) - p.fractionBits)).toNat := by rw [← Nat.pow_add, hsum]
        _ ≤ num * 2 ^ (-((num.log2 : Int) - p.fractionBits)).toNat := Nat.mul_le_mul_right _ hself
  unfold roundMagnitude
  rw [if_neg h0, hlog]
  dsimp only
  rw [hunit]
  refine Nat.le_min.mpr ⟨Nat.le_trans (Nat.min_le_left _ _) ?_, Nat.min_le_right _ _⟩
  have hsucc : ((m : Int) - p.fractionBits - p.leastExponent + 1).toNat ≤
      ((num.log2 : Int) - p.fractionBits - p.leastExponent).toNat + 1 := by omega
  calc ((m : Int) - p.fractionBits - p.leastExponent + 1).toNat * 2 ^ p.fractionBits
      ≤ (((num.log2 : Int) - p.fractionBits - p.leastExponent).toNat + 1) * 2 ^ p.fractionBits :=
        Nat.mul_le_mul_right _ hsucc
    _ = ((num.log2 : Int) - p.fractionBits - p.leastExponent).toNat * 2 ^ p.fractionBits + 2 ^ p.fractionBits :=
        Nat.succ_mul _ _
    _ ≤ _ := Nat.add_le_add_left hfull _

/-- The integer part of a number at or above a power of two, when it has one. -/
lemma le_truncate {x : Binary p} {m : Nat} (hm : p.fractionBits ≤ m)
    (h : ((m : Int) - p.fractionBits - p.leastExponent + 1).toNat * 2 ^ p.fractionBits ≤ x.magnitude)
    {n : Int} (hn : x.truncate? = some n) : 2 ^ m ≤ n.natAbs := by
  have hleast := leastExponent_lt p
  have hpos : 0 < 2 ^ p.fractionBits := Nat.two_pow_pos _
  have hone : 1 * 2 ^ p.fractionBits ≤ x.magnitude := Nat.le_trans (Nat.mul_le_mul_right _ (by omega)) h
  unfold truncate? at hn
  obtain ⟨-, hx⟩ | ⟨-, hx⟩ | ⟨-, hfraction, -⟩ | ⟨e, f, he, hf, -, hx⟩ := meaning_cases x
  · rw [hx] at hn
    cases hn
  · rw [hx] at hn
    cases hn
  · omega
  · have hlt : ((m : Int) - p.fractionBits - p.leastExponent + 1).toNat < e + 1 + 1 := by
      refine Nat.lt_of_mul_lt_mul_right (a := 2 ^ p.fractionBits) (Nat.lt_of_le_of_lt h ?_)
      rw [he, Nat.succ_mul (e + 1)]
      exact Nat.add_lt_add_left hf _
    have hexp : 0 ≤ p.leastExponent + (e : Int) := by omega
    have hm' : m ≤ p.fractionBits + (p.leastExponent + (e : Int)).toNat := by omega
    rw [hx] at hn
    dsimp only at hn
    rw [if_pos hexp] at hn
    have habs : n.natAbs = (2 ^ p.fractionBits + f) * 2 ^ (p.leastExponent + (e : Int)).toNat := by
      cases hn
      split
      · rw [Int.natAbs_neg, Int.natAbs_natCast]
      · rw [Int.natAbs_natCast]
    rw [habs]
    calc 2 ^ m ≤ 2 ^ (p.fractionBits + (p.leastExponent + (e : Int)).toNat) := Nat.pow_le_pow_right (by decide) hm'
      _ = 2 ^ p.fractionBits * 2 ^ (p.leastExponent + (e : Int)).toNat := Nat.pow_add _ _ _
      _ ≤ _ := Nat.mul_le_mul_right _ (Nat.le_add_right _ _)

/-- Only zero is rounded to zero. -/
theorem isZero_ofRatio {num : Nat} (negative : Bool) : (ofRatio p negative num 1).isZero = decide (num = 0) := by
  rw [isZero, magnitude_ofRatio]
  by_cases h0 : num = 0
  · simp [h0, roundMagnitude]
  · have hpos : 0 < min ((((0 : Nat) : Int) - p.fractionBits - p.leastExponent + 1).toNat * 2 ^ p.fractionBits)
        p.infinityWord := by cases p <;> decide
    have hone : 2 ^ 0 ≤ num := Nat.pos_of_ne_zero h0
    have hle := le_roundMagnitude (p := p) hone
    simp [h0, Nat.ne_of_gt (Nat.lt_of_lt_of_le hpos hle)]

theorem isZero_ofInt (p : Precision) (n : Int) : (ofInt p n).isZero = decide (n = 0) := by
  rw [ofInt, isZero_ofRatio]
  exact decide_eq_decide.mpr Int.natAbs_eq_zero

/-- An integer too large for the format's significand keeps its magnitude, as far as it keeps an integer part. -/
theorem le_truncate_ofRatio {num m : Nat} {negative : Bool} (hm : p.fractionBits ≤ m)
    (hfinite : ((m : Int) - p.fractionBits - p.leastExponent + 1).toNat * 2 ^ p.fractionBits ≤ p.infinityWord)
    (h : 2 ^ m ≤ num) {n : Int} (hn : (ofRatio p negative num 1).truncate? = some n) : 2 ^ m ≤ n.natAbs := by
  refine le_truncate hm ?_ hn
  rw [magnitude_ofRatio]
  have hle := le_roundMagnitude (p := p) h
  rwa [Nat.min_eq_left hfinite] at hle

end DbClient.Binary
