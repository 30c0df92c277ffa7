import Mathlib
import Scorecard.Decimal.Reader
import Scorecard.Proofs.Text.Case

/-!
What the reader of numbers makes of a text, by the first characters of the text. The reader makes no difference
between capital and small letters.
-/
namespace Scorecard.Decimal

theorem splitSign_cons {c : Char} (hminus : c ≠ '-') (hplus : c ≠ '+') (cs : List Char) :
    splitSign (c :: cs) = (false, c :: cs) := by
  unfold splitSign
  split
  · rename_i heq
    exact absurd (List.cons.inj heq).1 hminus
  · rename_i heq
    exact absurd (List.cons.inj heq).1 hplus
  · rfl

theorem splitSign_of_isDigit {c : Char} (hc : c.isDigit = true) (cs : List Char) :
    splitSign (c :: cs) = (false, c :: cs) := by
  refine splitSign_cons ?_ ?_ cs
  · rintro rfl
    exact absurd hc (by decide)
  · rintro rfl
    exact absurd hc (by decide)

theorem splitFraction_cons {c : Char} (h : c ≠ '.') (cs : List Char) : splitFraction (c :: cs) = ([], c :: cs) := by
  unfold splitFraction
  split
  · rename_i heq
    exact absurd (List.cons.inj heq).1 h
  · rfl

theorem readChars_eq_ok_iff {cs : List Char} {x : Float} :
    readChars cs = .ok x ↔ cs ≠ [] ∧ readMagnitude? (splitSign cs).2 (splitSign cs).1 = some x := by
  unfold readChars
  cases cs with
  | nil => simp
  | cons c cs =>
      cases h : readMagnitude? (splitSign (c :: cs)).2 (splitSign (c :: cs)).1 <;> simp [h]

/-- A text that starts with a letter is a word or nothing, and no word stands for a finite number. -/
theorem not_isFinite_of_readChars {c : Char} (hdigit : c.isDigit = false) (hpoint : c ≠ '.') (hminus : c ≠ '-')
    (hplus : c ≠ '+') {cs : List Char} {x : Float} (h : readChars (c :: cs) = .ok x) : x.isFinite = false := by
  have hdecimal : readDecimal? (c :: cs) = none := by
    simp [readDecimal?, splitDigits, splitFraction_cons hpoint, hdigit]
  obtain ⟨-, h⟩ := readChars_eq_ok_iff.mp h
  rw [splitSign_cons hminus hplus, readMagnitude?, hdecimal] at h
  dsimp only at h
  split at h
  · obtain rfl := Option.some.inj h
    decide
  · split at h
    · obtain rfl := Option.some.inj h
      rfl
    · contradiction

/-! ### Letter case -/

/-- What is no letter is where it was, and an exponent's letter is one in either case. -/
theorem toUpper_eq_iff (c : Char) :
    (c.toUpper = '-' ↔ c = '-') ∧ (c.toUpper = '+' ↔ c = '+') ∧ (c.toUpper = '.' ↔ c = '.') ∧
      (c.toUpper = 'e' ∨ c.toUpper = 'E' ↔ c = 'e' ∨ c = 'E') :=
  Text.toUpper_forall
    (P := fun c d => (d = '-' ↔ c = '-') ∧ (d = '+' ↔ c = '+') ∧ (d = '.' ↔ c = '.') ∧
      (d = 'e' ∨ d = 'E' ↔ c = 'e' ∨ c = 'E'))
    (fun _ => by simp) (by decide) c

theorem isDigit_toUpper (c : Char) : c.toUpper.isDigit = c.isDigit :=
  Text.toUpper_forall (P := fun c d => d.isDigit = c.isDigit) (fun _ => rfl) (by decide) c

theorem toUpper_of_isDigit {c : Char} : c.isDigit = true → c.toUpper = c :=
  Text.toUpper_forall (P := fun c d => c.isDigit = true → d = c) (fun _ _ => rfl) (by decide) c

theorem toLower_toUpper (c : Char) : c.toUpper.toLower = c.toLower :=
  Text.toUpper_forall (P := fun c d => d.toLower = c.toLower) (fun _ => rfl) (by decide) c

theorem splitSign_map_toUpper (cs : List Char) :
    splitSign (cs.map Char.toUpper) = ((splitSign cs).1, (splitSign cs).2.map Char.toUpper) := by
  cases cs with
  | nil => rfl
  | cons c cs =>
      obtain ⟨hminus, hplus, -, -⟩ := toUpper_eq_iff c
      by_cases hc : c = '-'
      · subst hc
        rfl
      · by_cases hc' : c = '+'
        · subst hc'
          rfl
        · rw [List.map_cons, splitSign_cons (mt hminus.mp hc) (mt hplus.mp hc'), splitSign_cons hc hc']
          rfl

theorem splitDigits_map_toUpper (cs : List Char) :
    splitDigits (cs.map Char.toUpper) = ((splitDigits cs).1, (splitDigits cs).2.map Char.toUpper) := by
  have hdigit : Char.isDigit ∘ Char.toUpper = Char.isDigit := funext isDigit_toUpper
  rw [splitDigits, List.takeWhile_map, List.dropWhile_map, hdigit]
  refine congrArg (·, _) ?_
  exact (List.map_congr_left fun c hc => toUpper_of_isDigit (List.mem_takeWhile_imp hc)).trans (List.map_id' _)

theorem splitFraction_map_toUpper (cs : List Char) :
    splitFraction (cs.map Char.toUpper) = ((splitFraction cs).1, (splitFraction cs).2.map Char.toUpper) := by
  cases cs with
  | nil => rfl
  | cons c cs =>
      obtain ⟨-, -, hpoint, -⟩ := toUpper_eq_iff c
      by_cases hc : c = '.'
      · subst hc
        exact splitDigits_map_toUpper cs
      · rw [List.map_cons, splitFraction_cons (mt hpoint.mp hc), splitFraction_cons hc]
        rfl

theorem readExponent?_map_toUpper (cs : List Char) : readExponent? (cs.map Char.toUpper) = readExponent? cs := by
  cases cs with
  | nil => rfl
  | cons c cs =>
      obtain ⟨-, -, -, hletter⟩ := toUpper_eq_iff c
      rw [List.map_cons, readExponent?, readExponent?, splitSign_map_toUpper]
      dsimp only
      rw [splitDigits_map_toUpper]
      simp only [hletter, List.isEmpty_map]

theorem readDecimal?_map_toUpper (cs : List Char) : readDecimal? (cs.map Char.toUpper) = readDecimal? cs := by
  rw [readDecimal?, splitDigits_map_toUpper]
  dsimp only
  rw [splitFraction_map_toUpper]
  dsimp only
  rw [readExponent?_map_toUpper]
  rfl

theorem readMagnitude?_map_toUpper (cs : List Char) (negative : Bool) :
    readMagnitude? (cs.map Char.toUpper) negative = readMagnitude? cs negative := by
  have hword : (cs.map Char.toUpper).map Char.toLower = cs.map Char.toLower := by
    rw [List.map_map]
    exact List.map_congr_left fun c _ => toLower_toUpper c
  rw [readMagnitude?, readMagnitude?, hword, readDecimal?_map_toUpper]

/-- Texts that differ in the case of letters only stand for the same number. -/
theorem read_map_toUpper (s : String) : read (s.map Char.toUpper) = read s := by
  rw [read, read, String.toList_map, readChars, readChars, List.isEmpty_map, splitSign_map_toUpper]
  dsimp only
  rw [readMagnitude?_map_toUpper]

end Scorecard.Decimal
