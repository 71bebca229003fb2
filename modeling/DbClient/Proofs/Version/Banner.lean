import DbClient.Native.Library
import DbClient.Proofs.Version.Printing

/-! Versions in the banners of servers. The version of a banner is that of the first word that looks like one and is
one; the native library puts the version of its server between words that do not. -/
namespace DbClient.Version
open Text
variable {u : List Char} {ws : List (List Char)} {v : Version} {banner : String}

/-- A word stands for a version: it has a point or consists of digits, and it is read as the version. -/
def IsWord (u : List Char) (v : Version) : Prop := ('.' ∈ u ∨ ∀ c ∈ u, '0' ≤ c ∧ c ≤ '9') ∧ readChars u = .ok v

/-- The version for which a word stands, if there is one. -/
def ofWord? (u : List Char) : Option Version := if looksLikeVersion u then (readChars u).toOption else none

lemma looksLikeVersion_iff : looksLikeVersion u = true ↔ '.' ∈ u ∨ ∀ c ∈ u, '0' ≤ c ∧ c ≤ '9' := by
  have hdigit : ∀ c, isDigit c = true ↔ '0' ≤ c ∧ c ≤ '9' := fun c => by
    unfold isDigit digit?
    split <;> simp [*]
  simp only [looksLikeVersion, Bool.or_eq_true, List.contains_iff_mem, List.all_eq_true, hdigit]

lemma ofWord?_eq_some : ofWord? u = some v ↔ IsWord u v := by
  rw [ofWord?, IsWord, ← looksLikeVersion_iff]
  cases hr : readChars u <;> simp [Except.toOption]

lemma ofWord?_eq_none : ofWord? u = none ↔ ∀ v, ¬IsWord u v := by
  simp only [← ofWord?_eq_some, Option.eq_none_iff_forall_ne_some, ne_eq]

/-- The words that do not look like versions need not be left out beforehand. -/
lemma findSome?_filter (ws : List (List Char)) :
    (ws.filter looksLikeVersion).findSome? (fun u => (readChars u).toOption) = ws.findSome? ofWord? := by
  induction ws with
  | nil => rfl
  | cons u rest ih =>
    rw [List.findSome?_cons, ofWord?]
    cases hu : looksLikeVersion u with
    | false =>
      rw [List.filter_cons_of_neg (by simp [hu])]
      exact ih
    | true =>
      rw [List.filter_cons_of_pos hu, List.findSome?_cons, ih]
      rfl

lemma ofBanner_eq (banner : String) : ofBanner banner =
    match (words banner.toList).findSome? ofWord? with
    | some v => .ok v
    | none => .error .notFound := by
  rw [← findSome?_filter]
  rfl

/-- What is found in a banner. -/
structure BannerLaw (banner : String) : Prop where
  /-- A banner has words in just one way. -/
  split : ∃! ws, Spaced ws banner.toList
  /-- The version that is found is that of the first word that stands for one. -/
  found : ∀ ws v, Spaced ws banner.toList → (ofBanner banner = .ok v ↔
    ∃ before u after, ws = before ++ u :: after ∧ IsWord u v ∧ ∀ t ∈ before, ∀ w, ¬IsWord t w)
  /-- None is found exactly when no word stands for one. -/
  notFound : ∀ ws, Spaced ws banner.toList → (ofBanner banner = .error .notFound ↔ ∀ t ∈ ws, ∀ w, ¬IsWord t w)

/-- Banners are searched by the law. -/
theorem bannerLaw (banner : String) : BannerLaw banner where
  split := ⟨_, words_eq_iff.mp rfl, fun ws h => (words_eq_iff.mpr h).symm⟩
  found ws v h := by
    have hsome : ofBanner banner = .ok v ↔ ws.findSome? ofWord? = some v := by
      rw [ofBanner_eq, words_eq_iff.mpr h]
      cases ws.findSome? ofWord? <;> simp
    simp only [hsome, List.findSome?_eq_some_iff, ofWord?_eq_some, ofWord?_eq_none]
  notFound ws h := by
    have hnone : ofBanner banner = .error .notFound ↔ ws.findSome? ofWord? = none := by
      rw [ofBanner_eq, words_eq_iff.mpr h]
      cases ws.findSome? ofWord? <;> simp
    simp only [hnone, List.findSome?_eq_none_iff, ofWord?_eq_none]

/-! ### The banner of the native library -/

/-- A word cannot reach from one text into the other over the blank character between them. -/
lemma words_between (before s after : List Char) :
    words (before ++ [' '] ++ s ++ ' ' :: after) = words before ++ words s ++ words after := by
  have hblank : isBlank ' ' = true := by decide
  rw [words_append_cons hblank, List.append_assoc, List.singleton_append, words_append_cons hblank]

/-- The words around the version of the server do not look like versions. -/
lemma ofBanner_banner (l : Library) : ofBanner l.banner = ofBanner l.serverVersion := by
  have hchars : l.banner.toList = "Oracle Database Enterprise Edition Release".toList ++ [' '] ++
      l.serverVersion.toList ++ ' ' :: "- Production".toList :=
    (String.toList_append ..).trans (congrArg (· ++ _) (String.toList_append ..))
  have hbefore : (words "Oracle Database Enterprise Edition Release".toList).findSome? ofWord? = none := by
    decide +kernel
  have hafter : (words "- Production".toList).findSome? ofWord? = none := by decide +kernel
  rw [ofBanner_eq, ofBanner_eq, hchars, words_between, List.findSome?_append, List.findSome?_append, hbefore, hafter,
    Option.none_or, Option.or_none]

/-- The text of a version is one word, with a point. -/
lemma ofBanner_text (h : v.Fits) : ofBanner v.text = .ok v := by
  have hpoint : '.' ∈ v.text.toList := by
    rw [← (joined_text v).joined, parts, List.map_cons, List.map_cons, List.intercalate_cons_cons]
    exact List.mem_append_left _ (List.mem_append_right _ (List.mem_singleton_self _))
  have hsolid : ∀ c ∈ v.text.toList, isBlank c = false := fun c hc => by
    rw [← (joined_text v).joined] at hc
    rcases mem_intercalate hc with rfl | ⟨part, hpart, hc⟩
    · rfl
    · obtain ⟨n, -, rfl⟩ := List.mem_map.mp hpart
      exact (denotes_writeInteger n).not_blank c hc
  have hword : ofWord? v.text.toList = some v := ofWord?_eq_some.mpr ⟨.inl hpoint, readChars_text h⟩
  rw [ofBanner_eq, words_of_solid (List.ne_nil_of_mem hpoint) hsolid, List.findSome?_cons, hword]

/-- The version of the server is found in the banner of the native library. -/
theorem ofBanner_of_serverVersion {l : Library} (h : v.Fits) (hl : l.serverVersion = v.text) :
    ofBanner l.banner = .ok v := by
  rw [ofBanner_banner, hl, ofBanner_text h]

end DbClient.Version
