import DbClient.Number.Integer
import DbClient.Proofs.Text.Integers
import DbClient.Proofs.Text.Words
import DbClient.Version
import Mathlib.Data.List.Forall2

/-! Reading of versions: up to five parts with points between them, each of them a decimal integer. The first part that
is refused decides. All integers of 32 bits are read, although the description of the refusal promises that a part is
not negative. -/
namespace DbClient.Version
open Text
variable {P : Int → Prop} {t : List Char} {parts rest : List (List Char)} {ns ms : List Int} {index i k m : Nat}
  {n : Int} {good : List Char → Prop}

/-! ### Parts -/

/-- A part stands for an integer of a range. -/
def Gives (P : Int → Prop) (t : List Char) (n : Int) : Prop := Denotes t n ∧ P n

def IsPart (P : Int → Prop) (t : List Char) : Prop := ∃ n, Gives P t n

/-- The range that is promised of the parts. -/
def Promised (n : Int) : Prop := 0 ≤ n ∧ n ≤ IntType.int32.max

instance : DecidablePred Promised := fun _ => inferInstanceAs (Decidable (_ ∧ _))

/-- The `k`-th part is the first one that is not good. -/
def Refused (good : List Char → Prop) (parts : List (List Char)) (k : Nat) : Prop :=
  (∀ t ∈ parts.take k, good t) ∧ ∃ t, parts[k]? = some t ∧ ¬good t

lemma refused_zero : Refused good (t :: rest) 0 ↔ ¬good t := by
  simp [Refused]

lemma refused_succ : Refused good (t :: rest) (k + 1) ↔ good t ∧ Refused good rest k := by
  simp [Refused, and_assoc]

/-- If not all of the first parts are good, then one of them is the first that is not. -/
lemma exists_refused (h : ¬∀ t ∈ parts.take m, good t) : ∃ k < m, Refused good parts k := by
  induction parts generalizing m with
  | nil => exact absurd (fun t ht => absurd ht (by simp)) h
  | cons t rest ih =>
    cases m with
    | zero => exact absurd (fun t ht => absurd ht (by simp)) h
    | succ m =>
      by_cases ht : good t
      · rw [List.take_succ_cons, List.forall_mem_cons] at h
        obtain ⟨k, hk, hr⟩ := ih fun hall => h ⟨ht, hall⟩
        exact ⟨k + 1, Nat.succ_lt_succ hk, refused_succ.mpr ⟨ht, hr⟩⟩
      · exact ⟨0, Nat.succ_pos m, refused_zero.mpr ht⟩

lemma mem_take_of_getElem? (h : parts[k]? = some t) (hk : k < m) : t ∈ parts.take m :=
  List.mem_of_getElem? ((List.getElem?_take_of_lt hk).trans h)

lemma not_refused_of_good (h : ∀ t ∈ parts.take m, good t) (hk : k < m) : ¬Refused good parts k := by
  rintro ⟨-, t, ht, hnot⟩
  exact hnot (h t (mem_take_of_getElem? ht hk))

/-- There is only one first part that is not good. -/
lemma Refused.unique (h : Refused good parts i) (h' : Refused good parts k) : i = k := by
  rcases Nat.lt_trichotomy i k with hlt | heq | hlt
  · exact absurd h (not_refused_of_good h'.1 hlt)
  · exact heq
  · exact absurd h' (not_refused_of_good h.1 hlt)

/-! ### Integers -/

lemma isPart_of_forall₂ (h : List.Forall₂ (Gives P) parts ns) : ∀ t ∈ parts, IsPart P t := by
  induction h with
  | nil => exact fun t ht => absurd ht List.not_mem_nil
  | cons hn _ ih => exact List.forall_mem_cons.mpr ⟨⟨_, hn⟩, ih⟩

lemma holds_of_forall₂ (h : List.Forall₂ (Gives P) parts ns) : ∀ n ∈ ns, P n := by
  induction h with
  | nil => exact fun n hn => absurd hn List.not_mem_nil
  | cons hn _ ih => exact List.forall_mem_cons.mpr ⟨hn.2, ih⟩

/-- Parts stand for one list of integers. -/
lemma forall₂_unique (h : List.Forall₂ (Gives P) parts ns) (h' : List.Forall₂ (Gives P) parts ms) : ns = ms :=
  List.right_unique_forall₂' (fun _ _ _ hn hm => hn.1.unique hm.1) h h'

/-! ### Reading part by part -/

/-- Just the parts that stand for integers of 32 bits are read. -/
lemma readPart_eq_ok_iff : readPart t = .ok n ↔ Gives IntType.int32.Holds t n := by
  have hrange : IntType.int32.Holds n ↔ -((2 ^ 31 : Nat) : Int) ≤ n ∧ n ≤ ((2 ^ 31 - 1 : Nat) : Int) := Iff.rfl
  rw [Gives, hrange]
  exact readInteger_eq_ok_iff

/-- What comes of the parts from the `index`-th on: the integers for which they stand, the first of them that is
refused, or the refusal of their number. -/
inductive Verdict (index : Nat) (parts : List (List Char)) : Except VersionError (List Int) → Prop
  | integers {ns : List Int} (given : List.Forall₂ (Gives IntType.int32.Holds) parts ns)
      (few : index + parts.length ≤ 5) : Verdict index parts (.ok ns)
  | part {k i : Nat} {cause : NumeralError} (refused : Refused (IsPart IntType.int32.Holds) parts k)
      (place : i = index + k) (early : i < 5) : Verdict index parts (.error (.part i cause))
  | count (good : ∀ t ∈ parts.take (5 - index), IsPart IntType.int32.Holds t) (many : 5 < index + parts.length) :
      Verdict index parts (.error .count)

/-- A part that is read is followed by the verdict on the others. -/
lemma Verdict.cons {r : Except VersionError (List Int)} (hlt : index < 5) (ht : Gives IntType.int32.Holds t n)
    (h : Verdict (index + 1) rest r) : Verdict index (t :: rest) (r.map (n :: ·)) := by
  cases h with
  | integers given few => exact .integers (.cons ht given) (by rw [List.length_cons]; omega)
  | @part k _ _ refused place early => exact .part (refused_succ.mpr ⟨⟨n, ht⟩, refused⟩) (by omega) early
  | count good many =>
    -- there is room for this part and for one less of the others
    obtain ⟨m, hm⟩ : ∃ m, 5 - index = m + 1 := ⟨4 - index, by omega⟩
    have hnext : 5 - (index + 1) = m := by omega
    rw [hnext] at good
    refine .count ?_ (by rw [List.length_cons]; omega)
    rw [hm, List.take_succ_cons]
    exact List.forall_mem_cons.mpr ⟨⟨n, ht⟩, good⟩

/-- The parts are read one after the other, up to the fifth. -/
theorem verdict_readParts (h : index ≤ 5) : Verdict index parts (readParts index parts) := by
  induction parts generalizing index with
  | nil => exact .integers .nil h
  | cons t rest ih =>
    rw [readParts]
    split
    · rename_i hle
      have hindex : 5 - index = 0 := by omega
      refine .count ?_ (by rw [List.length_cons]; omega)
      rw [hindex, List.take_zero]
      exact fun t ht => absurd ht List.not_mem_nil
    · rename_i hlt
      have hlt : index < 5 := Nat.lt_of_not_le hlt
      cases hread : readPart t with
      | error cause =>
        refine .part (refused_zero.mpr ?_) (Nat.add_zero index).symm hlt
        rintro ⟨n, hn⟩
        exact absurd (hread.symm.trans (readPart_eq_ok_iff.mpr hn)) nofun
      | ok n => exact .cons hlt (readPart_eq_ok_iff.mp hread) (ih hlt)

/-! ### The rule -/

/-- The rule for reading the parts of a version, whose integers are from a range. -/
structure Rule (P : Int → Prop) (parts : List (List Char)) (r : Except VersionError Version) : Prop where
  /-- The text is refused for its `i`-th part exactly when this one is among the first five parts and is the first of
  them that does not stand for an integer of the range. -/
  part : ∀ i, (∃ cause, r = .error (.part i cause)) ↔ i < 5 ∧ Refused (IsPart P) parts i
  /-- It is refused for the number of its parts exactly when there are more than five and the first five stand for
  integers of the range. -/
  count : r = .error .count ↔ 5 < parts.length ∧ ∀ t ∈ parts.take 5, IsPart P t
  /-- It is read as a version exactly when there are at most five parts and they stand for the parts of the version,
  with zeros in place of missing ones. -/
  version : ∀ v, r = .ok v ↔
    ∃ ns, List.Forall₂ (Gives P) parts ns ∧ parts.length ≤ 5 ∧ v.parts = ns ++ List.replicate (5 - ns.length) 0

/-- Missing parts are zero. -/
lemma parts_ofParts (h : ns.length ≤ 5) : (ofParts ns).parts = ns ++ List.replicate (5 - ns.length) 0 := by
  match ns, h with
  | [], _ | [_], _ | [_, _], _ | [_, _, _], _ | [_, _, _, _], _ | [_, _, _, _, _], _ => rfl

lemma parts_injective {v w : Version} (h : v.parts = w.parts) : v = w := congrArg ofParts h

lemma ofParts_eq_iff {v : Version} (h : ns.length ≤ 5) :
    ofParts ns = v ↔ v.parts = ns ++ List.replicate (5 - ns.length) 0 := by
  constructor
  · rintro rfl
    exact parts_ofParts h
  · exact fun hv => parts_injective ((parts_ofParts h).trans hv.symm)

/-- The verdict on all parts is that of the rule; its three cases exclude one another. -/
theorem Verdict.rule {r : Except VersionError (List Int)} (h : Verdict 0 parts r) :
    Rule IntType.int32.Holds parts (r.map ofParts) := by
  cases h with
  | @integers ns given few =>
    rw [Nat.zero_add] at few
    have hall : ∀ t ∈ parts.take 5, IsPart IntType.int32.Holds t := fun t ht =>
      isPart_of_forall₂ given t (List.mem_of_mem_take ht)
    refine ⟨fun i => iff_of_false (fun ⟨_, he⟩ => nomatch he) fun ⟨hi, hr⟩ => not_refused_of_good hall hi hr,
      iff_of_false nofun fun ⟨hmany, _⟩ => Nat.not_lt.mpr few hmany, fun v => ?_⟩
    have hlength : ns.length ≤ 5 := given.length_eq ▸ few
    constructor
    · exact fun hv => ⟨ns, given, few, (ofParts_eq_iff hlength).mp (Except.ok.inj hv)⟩
    · rintro ⟨ms, hms, -, hv⟩
      obtain rfl := forall₂_unique given hms
      exact congrArg Except.ok ((ofParts_eq_iff hlength).mpr hv)
  | @part k i cause refused place early =>
    obtain rfl : i = k := place.trans (Nat.zero_add k)
    refine ⟨fun j => ⟨?_, fun ⟨_, hr⟩ => hr.unique refused ▸ ⟨cause, rfl⟩⟩,
      iff_of_false nofun fun ⟨_, hall⟩ => not_refused_of_good hall early refused, fun v => iff_of_false nofun ?_⟩
    · rintro ⟨_, he⟩
      cases he
      exact ⟨early, refused⟩
    · rintro ⟨ns, hns, -⟩
      obtain ⟨-, t, ht, hnot⟩ := refused
      exact hnot (isPart_of_forall₂ hns t (List.mem_of_getElem? ht))
  | count good many =>
    rw [Nat.zero_add] at many
    exact ⟨fun i => iff_of_false (fun ⟨_, he⟩ => nomatch he) fun ⟨hi, hr⟩ => not_refused_of_good good hi hr,
      iff_of_true rfl ⟨many, good⟩, fun v => iff_of_false nofun fun ⟨_, _, hfew, _⟩ => Nat.not_lt.mpr hfew many⟩

/-- Texts are read by the rule for integers of 32 bits. -/
theorem rule_readChars {s : List Char} (h : Joined '.' parts s) : Rule IntType.int32.Holds parts (readChars s) := by
  rw [readChars, splitAt_eq_iff.mpr h]
  exact (verdict_readParts (Nat.zero_le 5)).rule

/-! ### The promised range -/

/-- A negative integer that a part may be. -/
def Negative (n : Int) : Prop := n < 0 ∧ IntType.int32.Holds n

lemma Promised.holds (h : Promised n) : IntType.int32.Holds n := ⟨Int.le_trans (by decide) h.1, h.2⟩

lemma IsPart.mono {Q : Int → Prop} (hPQ : ∀ n, P n → Q n) (h : IsPart P t) : IsPart Q t :=
  h.imp fun n hn => ⟨hn.1, hPQ n hn.2⟩

lemma IsPart.negative (h : IsPart IntType.int32.Holds t) (hp : ¬IsPart Promised t) : IsPart Negative t := by
  obtain ⟨n, hn, hrange⟩ := h
  have hlt : n < 0 := Int.not_le.mp fun h0 => hp ⟨n, hn, h0, hrange.2⟩
  exact ⟨n, hn, hlt, hrange⟩

/-- The first part out of the promised range is a negative integer that is read all the same. -/
def BreaksPromise (parts : List (List Char)) : Prop :=
  ∃ k < 5, Refused (IsPart Promised) parts k ∧ ∃ t, parts[k]? = some t ∧ IsPart Negative t

/-- Without such a part, the first five parts are in the promised range as soon as they are integers of 32 bits. -/
lemma promised_of_not_breaksPromise (h : ¬BreaksPromise parts) (hm : m ≤ 5)
    (hall : ∀ t ∈ parts.take m, IsPart IntType.int32.Holds t) : ∀ t ∈ parts.take m, IsPart Promised t := by
  by_contra hnot
  obtain ⟨k, hk, hr⟩ := exists_refused hnot
  obtain ⟨t, ht, hp⟩ := hr.2
  exact h ⟨k, Nat.lt_of_lt_of_le hk hm, hr, t, ht, (hall t (mem_take_of_getElem? ht hk)).negative hp⟩

lemma refused_promised_iff (h : ¬BreaksPromise parts) (hk : k < 5) :
    Refused (IsPart IntType.int32.Holds) parts k ↔ Refused (IsPart Promised) parts k := by
  constructor
  · rintro ⟨hall, t, ht, hnot⟩
    exact ⟨promised_of_not_breaksPromise h (Nat.le_of_lt hk) hall, t, ht,
      fun hp => hnot (hp.mono fun _ => Promised.holds)⟩
  · rintro ⟨hall, t, ht, hnot⟩
    refine ⟨fun u hu => (hall u hu).mono fun _ => Promised.holds, t, ht, fun hin => ?_⟩
    exact h ⟨k, hk, ⟨hall, t, ht, hnot⟩, t, ht, hin.negative hnot⟩

/-- Texts are read by the rule for the promised range, too, unless the first part out of it is a negative integer. -/
theorem rule_promised_iff {s : List Char} (h : Joined '.' parts s) :
    Rule Promised parts (readChars s) ↔ ¬BreaksPromise parts := by
  have hrule := rule_readChars h
  constructor
  · rintro hpromised ⟨k, hk, hr, t, ht, n, hn, hneg⟩
    obtain ⟨-, -, u, hu, hnot⟩ := (hrule.part k).mp ((hpromised.part k).mpr ⟨hk, hr⟩)
    obtain rfl := Option.some.inj (ht.symm.trans hu)
    exact hnot ⟨n, hn, hneg.2⟩
  · intro hno
    refine ⟨fun i => ?_, ?_, fun v => ?_⟩
    · rw [hrule.part]
      exact and_congr_right (refused_promised_iff hno)
    · rw [hrule.count]
      exact and_congr_right fun _ => ⟨promised_of_not_breaksPromise hno (Nat.le_refl 5),
        fun hall t ht => (hall t ht).mono fun _ => Promised.holds⟩
    · rw [hrule.version]
      refine exists_congr fun ns => ⟨fun ⟨hns, hle, hv⟩ => ⟨?_, hle, hv⟩, fun ⟨hns, hle, hv⟩ => ⟨?_, hle, hv⟩⟩
      · have hall := promised_of_not_breaksPromise hno (Nat.le_refl 5) fun t ht =>
          isPart_of_forall₂ hns t (List.mem_of_mem_take ht)
        rw [List.take_of_length_le hle] at hall
        refine ((List.forall₂_and_left _ _).mpr ⟨hall, hns⟩).imp fun t n ⟨⟨m, hm, hp⟩, hn⟩ => ?_
        exact ⟨hn.1, hm.unique hn.1 ▸ hp⟩
      · exact hns.imp fun t n hn => ⟨hn.1, hn.2.holds⟩

/-- Negative integers come from negative parts. -/
lemma exists_neg_iff (h : List.Forall₂ (Gives P) parts ns) :
    (∃ n ∈ ns, n < 0) ↔ ∃ t ∈ parts, ∃ n < 0, Denotes t n := by
  induction h with
  | nil => simp
  | @cons t n _ _ hn _ ih =>
    have hhead : n < 0 ↔ ∃ m < 0, Denotes t m :=
      ⟨fun hlt => ⟨n, hlt, hn.1⟩, fun ⟨m, hlt, hm⟩ => hn.1.unique hm ▸ hlt⟩
    rw [List.exists_mem_cons_iff, List.exists_mem_cons_iff, ih, hhead]

/-- How a text is read as a version. -/
structure ReadingLaw (s : String) : Prop where
  /-- A text is put together from parts with points between them in just one way. -/
  split : ∃! parts, Joined '.' parts s.toList
  /-- These parts are read by the rule for integers of 32 bits. -/
  range : ∀ parts, Joined '.' parts s.toList → Rule IntType.int32.Holds parts (read s)
  /-- They are read by the rule for the range that is promised, unless the first part out of that range is a negative
  integer of 32 bits. -/
  promised : ∀ parts, Joined '.' parts s.toList → (Rule Promised parts (read s) ↔ ¬BreaksPromise parts)
  /-- A version that is read has a negative part exactly when a part of the text stands for a negative integer. -/
  negative : ∀ parts v, Joined '.' parts s.toList → read s = .ok v →
    ((∃ n ∈ v.parts, n < 0) ↔ ∃ t ∈ parts, ∃ n < 0, Denotes t n)

/-- Every text is read by the law. -/
theorem readingLaw (s : String) : ReadingLaw s := by
  refine {
    split := ⟨_, splitAt_eq_iff.mp rfl, fun parts h => (splitAt_eq_iff.mpr h).symm⟩
    range := fun parts h => rule_readChars h
    promised := fun parts h => rule_promised_iff h
    negative := fun parts v h hv => ?_ }
  obtain ⟨ns, hns, -, hparts⟩ := ((rule_readChars h).version v).mp hv
  rw [← exists_neg_iff hns, hparts]
  constructor
  · rintro ⟨n, hn, hlt⟩
    rcases List.mem_append.mp hn with hn | hn
    · exact ⟨n, hn, hlt⟩
    · exact absurd (List.eq_of_mem_replicate hn ▸ hlt) (by decide)
  · exact fun ⟨n, hn, hlt⟩ => ⟨n, List.mem_append_left _ hn, hlt⟩

/-- A negative part is read, although the promised range has no negative integers. -/
theorem negative_part_is_read :
    Joined '.' [['-', '1']] "-1".toList ∧ read "-1" = .ok ⟨-1, 0, 0, 0, 0⟩ ∧
      ¬Rule Promised [['-', '1']] (read "-1") := by
  have hread : read "-1" = .ok ⟨-1, 0, 0, 0, 0⟩ := by decide +kernel
  refine ⟨splitAt_eq_iff.mp (by decide +kernel), hread, fun hrule => ?_⟩
  obtain ⟨ns, hns, -⟩ := (hrule.version _).mp hread
  cases hns with
  | cons hn _ =>
    have hminus : Denotes ['-', '1'] (-1) := ⟨.bare .minus [1] (by decide), rfl, rfl⟩
    exact absurd hn.2.1 (by rw [hn.1.unique hminus]; decide)

end DbClient.Version
