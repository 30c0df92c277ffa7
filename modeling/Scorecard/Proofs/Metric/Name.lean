import Scorecard.Metric.Name
import Scorecard.Proofs.Text.Case

/-!
The normal form of metric names is normal: a name that has been trimmed and put in upper case is trimmed and
in upper case. Neither the case of ASCII letters nor the blanks around a name make a difference to it.
-/
namespace Scorecard.Metric

/-- No blank stands at either end of the name, and each of its characters is its own upper case. -/
structure InNormalForm (name : String) : Prop where
  trimmed : Text.Trimmed name.toList
  capital : ∀ c ∈ name.toList, Text.upperChar c = [c]

theorem inNormalForm_normalize (name : String) : InNormalForm (normalize name) := by
  rw [normalize, Text.upper, Text.trim, String.toList_ofList]
  constructor
  · rw [String.toList_ofList]
    exact (Text.trimmed_trimChars name.toList).upper
  · intro c hc
    rw [String.toList_ofList] at hc
    obtain ⟨d, -, himage⟩ := List.mem_flatMap.mp hc
    exact Text.upperChar_of_mem himage

theorem InNormalForm.normalize_eq {name : String} (h : InNormalForm name) : normalize name = name := by
  have htrim : Text.trim name = name := by
    rw [Text.trim, Text.trimChars_of_trimmed h.trimmed, String.ofList_toList]
  rw [normalize, htrim, Text.upper, Text.flatMap_upperChar_eq_self h.capital, String.ofList_toList]

theorem normalize_normalize (name : String) : normalize (normalize name) = normalize name :=
  (inNormalForm_normalize name).normalize_eq

/-- The names in normal form are those that normalizing leaves alone. -/
theorem inNormalForm_iff {name : String} : InNormalForm name ↔ normalize name = name :=
  ⟨InNormalForm.normalize_eq, fun h => h ▸ inNormalForm_normalize name⟩

/-- Only names of blanks have nothing left in normal form. -/
theorem normalize_eq_empty_iff {name : String} : normalize name = "" ↔ Text.isBlankText name = true := by
  rw [normalize, Text.upper, String.ofList_eq_empty_iff, Text.trim, String.toList_ofList, List.flatMap_eq_nil_iff,
    Text.isBlankText, List.all_eq_true]
  constructor
  · intro h c hc
    by_contra hblank
    exact Text.upperChar_ne_nil c (h c (Text.mem_trimChars (eq_false_of_ne_true hblank) hc))
  · intro h
    have htrim := Text.trimChars_padded h (List.forall_mem_nil _) []
    rw [List.append_nil, List.append_nil] at htrim
    rw [htrim]
    exact List.forall_mem_nil _

/-- The normal form of a name is blank for blank names only. -/
theorem isBlankText_normalize (name : String) : Text.isBlankText (normalize name) = Text.isBlankText name := by
  rw [Bool.eq_iff_iff, ← normalize_eq_empty_iff, normalize_normalize, normalize_eq_empty_iff]

/-- Names that differ in the case of ASCII letters and in the blanks around them, if they differ at all. -/
inductive SameName : String → String → Prop
  | intro {front core back front' core' back' : List Char} (hfront : ∀ c ∈ front, Text.isBlank c = true)
      (hback : ∀ c ∈ back, Text.isBlank c = true) (hfront' : ∀ c ∈ front', Text.isBlank c = true)
      (hback' : ∀ c ∈ back', Text.isBlank c = true) (hcore : core.map Char.toUpper = core'.map Char.toUpper) :
      SameName (String.ofList (front ++ core ++ back)) (String.ofList (front' ++ core' ++ back'))

/-- Names that have the same letters in capitals, by the full mappings, between the blanks around them. -/
inductive SameCapitals : String → String → Prop
  | intro {front core back front' core' back' : List Char} (hfront : ∀ c ∈ front, Text.isBlank c = true)
      (hback : ∀ c ∈ back, Text.isBlank c = true) (hfront' : ∀ c ∈ front', Text.isBlank c = true)
      (hback' : ∀ c ∈ back', Text.isBlank c = true) (hcore : core.flatMap Text.upperChar = core'.flatMap Text.upperChar) :
      SameCapitals (String.ofList (front ++ core ++ back)) (String.ofList (front' ++ core' ++ back'))

/-- The normal form depends on the capitals between the blanks only. -/
theorem normalize_capitals {front back : List Char} (hfront : ∀ c ∈ front, Text.isBlank c = true)
    (hback : ∀ c ∈ back, Text.isBlank c = true) (core : List Char) :
    normalize (String.ofList (front ++ core ++ back)) = String.ofList (Text.trimChars (core.flatMap Text.upperChar)) := by
  rw [normalize, Text.trim, String.toList_ofList, Text.trimChars_padded hfront hback, Text.upper, String.toList_ofList,
    Text.trimChars_flatMap_upperChar]

theorem SameCapitals.normalize_eq {a b : String} (h : SameCapitals a b) : normalize a = normalize b := by
  cases h with
  | intro hfront hback hfront' hback' hcore => rw [normalize_capitals hfront hback, normalize_capitals hfront' hback', hcore]

/-- Letters of ASCII that differ in case are the same in capitals. -/
theorem SameName.sameCapitals {a b : String} (h : SameName a b) : SameCapitals a b := by
  cases h with
  | @intro front core back front' core' back' hfront hback hfront' hback' hcore =>
      have hupper (cs : List Char) : (cs.map Char.toUpper).flatMap Text.upperChar = cs.flatMap Text.upperChar := by
        rw [List.flatMap_map]
        exact List.flatMap_congr fun c _ => Text.upperChar_toUpper c
      exact .intro hfront hback hfront' hback' (by rw [← hupper core, hcore, hupper core'])

/-- Names that are the same but for letter case and blanks stand for the same metric. -/
theorem SameName.normalize_eq {a b : String} (h : SameName a b) : normalize a = normalize b :=
  h.sameCapitals.normalize_eq

end Scorecard.Metric
