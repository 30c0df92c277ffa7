import Mathlib
import Scorecard.Json.Parser
import Scorecard.Json.Printer

/-!
The texts of strings. What the writer escapes the reader takes back, character by character, so a string's
text is read as the string up to its closing quote and whatever follows it is left.
-/
namespace Scorecard.Json

/-- A control character comes back from the two hexadecimal digits of its number. -/
theorem escapeUnit?_of_control {c : Char} (h : c.toNat < 0x20) (cs : List Char) :
    escapeUnit? ('u' :: '0' :: '0' :: Text.hexDigit (c.toNat / 16) :: Text.hexDigit (c.toNat % 16) :: cs) =
      some (.char c, cs) := by
  have hzero : Text.hexValue? '0' = some 0 := rfl
  have hhigh : Text.hexValue? (Text.hexDigit (c.toNat / 16)) = some (c.toNat / 16) :=
    Text.hexValue?_hexDigit (by omega)
  have hlow : Text.hexValue? (Text.hexDigit (c.toNat % 16)) = some (c.toNat % 16) :=
    Text.hexValue?_hexDigit (by omega)
  have hunit : ((0 * 16 + 0) * 16 + c.toNat / 16) * 16 + c.toNat % 16 = c.toNat := by omega
  have hsurrogate : ¬(0xD800 ≤ c.toNat ∧ c.toNat < 0xE000) := by omega
  simp only [escapeUnit?, hexUnit?, hzero, hhigh, hlow, hunit, Option.bind_eq_bind, Option.bind_some, Option.pure_def,
    if_neg hsurrogate, Char.ofNat_toNat]

/-- A character is written as itself or as a backslash with something that is read as the character. -/
theorem escapeChar_cases (c : Char) :
    (escapeChar c = [c] ∧ c ≠ '"' ∧ c ≠ '\\' ∧ ¬c.toNat < 0x20) ∨
      ∃ tail, escapeChar c = '\\' :: tail ∧ ∀ cs, escapeUnit? (tail ++ cs) = some (.char c, cs) := by
  unfold escapeChar
  by_cases hquote : c = '"'
  · subst hquote
    exact .inr ⟨_, rfl, fun _ => rfl⟩
  by_cases hbackslash : c = '\\'
  · subst hbackslash
    exact .inr ⟨_, rfl, fun _ => rfl⟩
  rw [if_neg hquote, if_neg hbackslash]
  by_cases hcontrol : c.toNat < 0x20
  · rw [if_pos hcontrol]
    refine .inr ?_
    -- The control characters with a letter of their own, and then the others, by number.
    split
    · subst_vars
      exact ⟨_, rfl, fun _ => rfl⟩
    split
    · subst_vars
      exact ⟨_, rfl, fun _ => rfl⟩
    split
    · subst_vars
      exact ⟨_, rfl, fun _ => rfl⟩
    split
    · rename_i hbackspace
      obtain rfl : c = '\x08' := Char.toNat_inj.mp hbackspace
      exact ⟨_, rfl, fun _ => rfl⟩
    split
    · rename_i hformFeed
      obtain rfl : c = '\x0C' := Char.toNat_inj.mp hformFeed
      exact ⟨_, rfl, fun _ => rfl⟩
    · exact ⟨_, rfl, escapeUnit?_of_control hcontrol⟩
  · rw [if_neg hcontrol]
    exact .inl ⟨rfl, hquote, hbackslash, hcontrol⟩

/-- A character as it is written is read as that character. -/
theorem stringUnits?_escapeChar (fuel : Nat) (c : Char) (cs : List Char) :
    stringUnits? (fuel + 1) (escapeChar c ++ cs) =
      (stringUnits? fuel cs).map fun (units, rest) => (.char c :: units, rest) := by
  rcases escapeChar_cases c with ⟨hself, hquote, hbackslash, hcontrol⟩ | ⟨tail, hescaped, hread⟩
  · rw [hself, List.singleton_append, stringUnits?, if_neg hcontrol]
    · cases stringUnits? fuel cs <;> rfl
    · exact hquote
    · exact hbackslash
  · rw [hescaped, List.cons_append, stringUnits?, hread, Option.bind_eq_bind, Option.bind_some]
    dsimp only
    cases stringUnits? fuel cs <;> rfl

theorem stringUnits?_flatMap_escapeChar {fuel : Nat} (cs rest : List Char) (h : cs.length < fuel) :
    stringUnits? fuel (cs.flatMap escapeChar ++ '"' :: rest) = some (cs.map .char, rest) := by
  induction cs generalizing fuel with
  | nil =>
      obtain ⟨fuel, rfl⟩ := Nat.exists_eq_add_one_of_ne_zero (Nat.ne_zero_of_lt h)
      rfl
  | cons c cs ih =>
      obtain ⟨fuel, rfl⟩ := Nat.exists_eq_add_one_of_ne_zero (Nat.ne_zero_of_lt h)
      rw [List.length_cons, Nat.succ_lt_succ_iff] at h
      rw [List.flatMap_cons, List.append_assoc, stringUnits?_escapeChar, ih h]
      rfl

theorem joinUnits?_map_char (cs : List Char) : joinUnits? (cs.map .char) = some cs := by
  induction cs with
  | nil => rfl
  | cons c cs ih => simp [joinUnits?, ih]

theorem length_le_flatMap_escapeChar (cs : List Char) : cs.length ≤ (cs.flatMap escapeChar).length := by
  induction cs with
  | nil => exact Nat.zero_le _
  | cons c cs ih =>
      have hpos : 0 < (escapeChar c).length := by
        rcases escapeChar_cases c with ⟨hself, -⟩ | ⟨tail, hescaped, -⟩
        · simp [hself]
        · simp [hescaped]
      simp only [List.flatMap_cons, List.length_append, List.length_cons]
      omega

/-- A string's text behind its opening quote is read as the string. -/
theorem parseString?_flatMap_escapeChar (s : String) (rest : List Char) :
    parseString? (s.toList.flatMap escapeChar ++ '"' :: rest) = some (some s, rest) := by
  have hfuel : s.toList.length < (s.toList.flatMap escapeChar ++ '"' :: rest).length + 1 := by
    have hlength := length_le_flatMap_escapeChar s.toList
    rw [List.length_append]
    omega
  rw [parseString?, stringUnits?_flatMap_escapeChar _ _ hfuel]
  simp [joinUnits?_map_char]

/-- Where a string's text ends is seen from the text alone. -/
theorem stringChars_append_inj {s t : String} {rest rest' : List Char}
    (h : stringChars s ++ rest = stringChars t ++ rest') : s = t ∧ rest = rest' := by
  have htext : s.toList.flatMap escapeChar ++ '"' :: rest = t.toList.flatMap escapeChar ++ '"' :: rest' := by
    simpa [stringChars] using h
  have hparse := congrArg parseString? htext
  rw [parseString?_flatMap_escapeChar, parseString?_flatMap_escapeChar] at hparse
  simpa using hparse

end Scorecard.Json
