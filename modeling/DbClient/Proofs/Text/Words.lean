import DbClient.Text.Numeral
import Mathlib.Data.List.TakeWhile

/-! Texts that are put together: from parts with a separator between them, and from words with blank characters around
them. Splitting a text gives the parts, and the words, of which it is put together, and there are no others. -/
namespace DbClient.Text
variable {p : Char → Bool} {sep c : Char} {s : List Char} {parts ws : List (List Char)}

/-! ### Parts -/

lemma splitAt_eq_splitOnP (p : Char → Bool) (s : List Char) : splitAt p s = s.splitOnP p := by
  induction s with
  | nil => rfl
  | cons c rest ih =>
    rw [splitAt, List.splitOnP_cons_eq_if_modifyHead, ih]
    split
    · rfl
    · cases hs : rest.splitOnP p with
      | nil => exact absurd (ih.trans hs) (splitAt_ne_nil p rest)
      | cons part parts => rfl

/-- A text is put together from parts without separators, with one separator between any two of them. -/
structure Joined (sep : Char) (parts : List (List Char)) (s : List Char) : Prop where
  nonempty : parts ≠ []
  free : ∀ part ∈ parts, sep ∉ part
  joined : [sep].intercalate parts = s

/-- A character of such a text separates parts or is from one of them. -/
lemma mem_intercalate (h : c ∈ [sep].intercalate parts) : c = sep ∨ ∃ part ∈ parts, c ∈ part := by
  induction parts with
  | nil => exact absurd h (by simp)
  | cons part rest ih =>
    cases rest with
    | nil => exact .inr ⟨part, List.mem_cons_self, by simpa using h⟩
    | cons next rest =>
      rw [List.intercalate_cons_cons, List.mem_append, List.mem_append] at h
      rcases h with (h | h) | h
      · exact .inr ⟨part, List.mem_cons_self, h⟩
      · exact .inl (List.mem_singleton.mp h)
      · exact (ih h).imp_right fun ⟨other, ho, hc⟩ => ⟨other, List.mem_cons_of_mem _ ho, hc⟩

/-- No part that is split off has a separator. -/
lemma not_of_mem_splitAt (s : List Char) : ∀ part ∈ splitAt p s, ∀ c ∈ part, p c = false := by
  induction s with
  | nil => simp [splitAt]
  | cons c rest ih =>
    intro part hpart
    rw [splitAt] at hpart
    split at hpart
    · rcases List.mem_cons.mp hpart with rfl | hpart
      · exact fun d hd => absurd hd List.not_mem_nil
      · exact ih part hpart
    · rename_i hc
      cases hs : splitAt p rest with
      | nil => exact absurd hs (splitAt_ne_nil p rest)
      | cons first others =>
        rw [hs] at hpart ih
        rcases List.mem_cons.mp hpart with rfl | hpart
        · intro d hd
          rcases List.mem_cons.mp hd with rfl | hd
          · exact Bool.eq_false_iff.mpr hc
          · exact ih first List.mem_cons_self d hd
        · exact ih part (List.mem_cons_of_mem _ hpart)

/-- Splitting a text at a separator gives the parts of which it is put together. -/
theorem splitAt_eq_iff : splitAt (· = sep) s = parts ↔ Joined sep parts s := by
  have hsplit : ∀ t, splitAt (· = sep) t = t.splitOn sep := splitAt_eq_splitOnP _
  constructor
  · rintro rfl
    refine ⟨splitAt_ne_nil _ _, fun part hpart hsep => ?_, ?_⟩
    · exact absurd (not_of_mem_splitAt s part hpart sep hsep) (by simp)
    · rw [hsplit]
      exact List.intercalate_splitOn sep
  · rintro ⟨hne, hfree, rfl⟩
    rw [hsplit]
    exact List.splitOn_intercalate sep hfree hne

/-! ### Words -/

/-- A text is put together from words, which are not empty and without blank characters, with blank characters between
any two of them and perhaps at both ends. -/
inductive Spaced : List (List Char) → List Char → Prop
  | blank {s : List Char} (h : ∀ c ∈ s, isBlank c = true) : Spaced [] s
  | word {ws : List (List Char)} {before word rest : List Char} (blank : ∀ c ∈ before, isBlank c = true)
      (nonempty : word ≠ []) (solid : ∀ c ∈ word, isBlank c = false) (apart : ∀ c ∈ rest.head?, isBlank c = true)
      (tail : Spaced ws rest) : Spaced (word :: ws) (before ++ (word ++ rest))

/-- A blank character ends a word. -/
lemma words_append_cons (h : isBlank c = true) (s t : List Char) : words (s ++ c :: t) = words s ++ words t := by
  simp only [words, splitAt_eq_splitOnP, List.splitOnP_append_cons s t h, List.filter_append]

lemma words_cons_blank (h : isBlank c = true) : words (c :: s) = words s := words_append_cons h [] s

lemma words_of_solid {word : List Char} (hne : word ≠ []) (hsolid : ∀ c ∈ word, isBlank c = false) :
    words word = [word] := by
  rw [words, splitAt_eq_splitOnP, List.splitOnP_eq_singleton hsolid]
  exact List.filter_cons_of_pos (decide_eq_true hne)

lemma words_append_blank {before : List Char} (h : ∀ c ∈ before, isBlank c = true) (s : List Char) :
    words (before ++ s) = words s := by
  induction before with
  | nil => rfl
  | cons c rest ih =>
    rw [List.cons_append, words_cons_blank (h c List.mem_cons_self)]
    exact ih fun d hd => h d (List.mem_cons_of_mem _ hd)

/-- A word at the front of a text is the first of the words of the text. -/
lemma words_append {word rest : List Char} (hne : word ≠ []) (hsolid : ∀ c ∈ word, isBlank c = false)
    (hapart : ∀ c ∈ rest.head?, isBlank c = true) : words (word ++ rest) = word :: words rest := by
  cases rest with
  | nil => exact (congrArg words (List.append_nil word)).trans (words_of_solid hne hsolid)
  | cons c rest =>
    have hc : isBlank c = true := hapart c rfl
    rw [words_append_cons hc, words_of_solid hne hsolid, words_cons_blank hc]
    rfl

lemma Spaced.words_eq (h : Spaced ws s) : words s = ws := by
  induction h with
  | @blank s h => exact (congrArg words (List.append_nil s).symm).trans (words_append_blank h [])
  | word blank nonempty solid apart _ ih => rw [words_append_blank blank, words_append nonempty solid apart, ih]

/-- A blank character in front of a text does not change its words. -/
lemma Spaced.cons_blank (hc : isBlank c = true) (h : Spaced ws s) : Spaced ws (c :: s) := by
  cases h with
  | blank h => exact .blank (List.forall_mem_cons.mpr ⟨hc, h⟩)
  | word blank nonempty solid apart tail =>
    exact .word (List.forall_mem_cons.mpr ⟨hc, blank⟩) nonempty solid apart tail

/-- Another character in front of a text begins a word or belongs to the first one. -/
lemma Spaced.cons_solid (hc : isBlank c = false) (h : Spaced ws s) : ∃ ws', Spaced ws' (c :: s) := by
  have hnone : ∀ d ∈ ([] : List Char), isBlank d = true := fun _ hd => absurd hd List.not_mem_nil
  have halone : (∀ d ∈ s.head?, isBlank d = true) → Spaced ([c] :: ws) (c :: s) := fun hapart =>
    .word hnone (List.cons_ne_nil c []) (fun d hd => List.mem_singleton.mp hd ▸ hc) hapart h
  cases h with
  | blank h => exact ⟨_, halone fun d hd => h d (List.mem_of_mem_head? hd)⟩
  | @word ws before word rest blank nonempty solid apart tail =>
    cases before with
    | nil => exact ⟨_, .word hnone (List.cons_ne_nil c word) (List.forall_mem_cons.mpr ⟨hc, solid⟩) apart tail⟩
    | cons b before => exact ⟨_, halone fun d hd => Option.mem_some.mp hd ▸ blank b List.mem_cons_self⟩

/-- Every text is put together from words. -/
lemma exists_spaced (s : List Char) : ∃ ws, Spaced ws s := by
  induction s with
  | nil => exact ⟨[], .blank fun _ hc => absurd hc List.not_mem_nil⟩
  | cons c s ih =>
    obtain ⟨ws, h⟩ := ih
    cases hc : isBlank c with
    | true => exact ⟨ws, h.cons_blank hc⟩
    | false => exact h.cons_solid hc

/-- The words of a text are those from which it is put together. -/
theorem words_eq_iff : words s = ws ↔ Spaced ws s := by
  constructor
  · rintro rfl
    obtain ⟨ws, h⟩ := exists_spaced s
    exact h.words_eq ▸ h
  · exact Spaced.words_eq

end DbClient.Text
