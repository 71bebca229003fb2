import DbClient.Proofs.Version.Reading

/-! Texts of versions. The text of a version is read as this version, so it is the canonical one among the texts that
are read so. -/
namespace DbClient.Version
open Text
variable {v w : Version}

/-- All parts are integers of 32 bits. -/
def Fits (v : Version) : Prop := ∀ n ∈ v.parts, IntType.int32.Holds n

/-- The text is put together from the numerals of the five parts. -/
theorem joined_text (v : Version) : Joined '.' (v.parts.map writeInteger) v.text.toList where
  nonempty := List.cons_ne_nil _ _
  free part hpart := by
    obtain ⟨n, -, rfl⟩ := List.mem_map.mp hpart
    exact (denotes_writeInteger n).point_notMem
  joined := by
    have hchars : String.toList ∘ decimal = writeInteger := funext fun n => String.toList_ofList
    rw [text, String.toList_intercalate, List.map_map, hchars]
    rfl

lemma forall₂_writeInteger (h : v.Fits) : List.Forall₂ (Gives IntType.int32.Holds) (v.parts.map writeInteger) v.parts :=
  List.forall₂_map_left_iff.mpr (List.forall₂_same.mpr fun n hn => ⟨denotes_writeInteger n, h n hn⟩)

/-- The text of a version is read as this version. -/
theorem readChars_text (h : v.Fits) : readChars v.text.toList = .ok v :=
  ((rule_readChars (joined_text v)).version v).mpr
    ⟨v.parts, forall₂_writeInteger h, Nat.le_of_eq (List.length_map _), (List.append_nil _).symm⟩

/-- Versions that are read have integers of 32 bits as their parts. -/
lemma fits_of_readChars {s : List Char} (h : readChars s = .ok v) : v.Fits := by
  obtain ⟨ns, hns, -, hv⟩ := ((rule_readChars (splitAt_eq_iff.mp rfl)).version v).mp h
  intro n hn
  rw [hv] at hn
  rcases List.mem_append.mp hn with hn | hn
  · exact holds_of_forall₂ hns n hn
  · rw [List.eq_of_mem_replicate hn]
    decide

lemma writeInteger_injective : Function.Injective writeInteger := fun n m h =>
  (denotes_writeInteger n).unique (h ▸ denotes_writeInteger m)

/-- Different versions have different texts. -/
theorem text_injective : Function.Injective text := fun v w h => by
  have hv := splitAt_eq_iff.mpr (joined_text v)
  have hw := splitAt_eq_iff.mpr (joined_text w)
  rw [h] at hv
  exact parts_injective (List.map_injective_iff.mpr writeInteger_injective (hv.symm.trans hw))

/-- How versions are printed and read. -/
structure PrintingLaw : Prop where
  /-- A version of integers of 32 bits is read from its text. -/
  again : ∀ v : Version, v.Fits → read v.text = .ok v
  /-- What is read from a text is such a version, so it is read from its own text, too. -/
  canonical : ∀ s v, read s = .ok v → v.Fits ∧ read v.text = .ok v
  /-- Two texts are read as the same version exactly when the texts of the versions are the same. -/
  same : ∀ s t v w, read s = .ok v → read t = .ok w → (v.text = w.text ↔ read s = read t)
  /-- Versions are the same exactly when their texts are. -/
  text : ∀ v w : Version, v.text = w.text ↔ v = w

/-- All versions are printed and read by the law. -/
theorem printingLaw : PrintingLaw where
  again _ := readChars_text
  canonical _ _ h := ⟨fits_of_readChars h, readChars_text (fits_of_readChars h)⟩
  same s t v w hv hw := by
    rw [hv, hw, Except.ok.injEq]
    exact text_injective.eq_iff
  text _ _ := text_injective.eq_iff

end DbClient.Version
