import Scorecard.Decimal.Layout
import Scorecard.Proofs.Decimal.Bits
import Scorecard.Proofs.Decimal.Reading
import Scorecard.Proofs.Decimal.Rounding
import Scorecard.Proofs.Text.Span

/-!
Plain decimals read back. The text of a finite number is a sign, digits and at most one point; what is
read from it has the value of the shortest decimal, which is nearest to the number that was written.
-/
namespace Scorecard.Decimal

/-- Digits with at most one point, and the decimal that they write. -/
inductive Plain : List Char → Decimal → Prop
  | whole {ds : List Char} (hds : ∀ c ∈ ds, c.isDigit = true) (hne : ds ≠ []) :
      Plain ds ⟨Nat.ofDigitChars 10 ds 0, 0⟩
  | point {ds fs : List Char} (hds : ∀ c ∈ ds, c.isDigit = true) (hne : ds ≠ []) (hfs : ∀ c ∈ fs, c.isDigit = true) :
      Plain (ds ++ '.' :: fs) ⟨Nat.ofDigitChars 10 (ds ++ fs) 0, -fs.length⟩

/-! ### Reading plain decimals -/

theorem splitDigits_append {ds rest : List Char} (hds : ∀ c ∈ ds, c.isDigit = true)
    (hrest : ∀ c ∈ rest.head?, c.isDigit = false) : splitDigits (ds ++ rest) = (ds, rest) := by
  obtain ⟨htake, hdrop⟩ := Text.span_append hds hrest
  rw [splitDigits, htake, hdrop]

theorem splitDigits_digits {ds : List Char} (hds : ∀ c ∈ ds, c.isDigit = true) : splitDigits ds = (ds, []) := by
  have hsplit : splitDigits (ds ++ []) = (ds, []) := splitDigits_append hds (by simp)
  rwa [List.append_nil] at hsplit

/-- A plain decimal is read as far as it goes, and what follows it is read as its exponent. -/
theorem Plain.readDecimal?_append {cs rest : List Char} {d : Decimal} (h : Plain cs d)
    (hrest : ∀ c ∈ rest.head?, c.isDigit = false ∧ c ≠ '.') :
    Decimal.readDecimal? (cs ++ rest) = (readExponent? rest).map fun e => ⟨d.coefficient, e + d.exponent⟩ := by
  have hdigit : ∀ c ∈ rest.head?, c.isDigit = false := fun c hc => (hrest c hc).1
  cases h with
  | @whole ds hds hne =>
      have hnone : splitFraction rest = ([], rest) := by
        cases rest with
        | nil => rfl
        | cons c rest => exact splitFraction_cons (hrest c rfl).2 rest
      simp [Decimal.readDecimal?, splitDigits_append hds hdigit, hnone, hne]
  | @point ds fs hds hne hfs =>
      have hwhole : splitDigits (ds ++ '.' :: (fs ++ rest)) = (ds, '.' :: (fs ++ rest)) :=
        splitDigits_append hds (by simp)
      simp [Decimal.readDecimal?, hwhole, splitFraction, splitDigits_append hfs hdigit, hne, Int.sub_eq_add_neg]

theorem Plain.readDecimal? {cs : List Char} {d : Decimal} (h : Plain cs d) : readDecimal? cs = some d := by
  have hread : Decimal.readDecimal? (cs ++ []) = _ := h.readDecimal?_append (by simp)
  rwa [List.append_nil, readExponent?, Option.map_some, Int.zero_add] at hread

/-- A plain decimal starts with a digit, and only digits and points follow. -/
theorem Plain.exists_cons {cs : List Char} {d : Decimal} (h : Plain cs d) :
    ∃ c rest, cs = c :: rest ∧ c.isDigit = true ∧ ∀ e ∈ rest, e.isDigit = true ∨ e = '.' := by
  cases h with
  | @whole ds hds hne =>
      obtain ⟨c, rest, rfl⟩ := List.exists_cons_of_ne_nil hne
      exact ⟨c, rest, rfl, hds c List.mem_cons_self, fun e he => .inl (hds e (List.mem_cons_of_mem _ he))⟩
  | @point ds fs hds hne hfs =>
      obtain ⟨c, rest, rfl⟩ := List.exists_cons_of_ne_nil hne
      refine ⟨c, rest ++ '.' :: fs, rfl, hds c List.mem_cons_self, fun e he => ?_⟩
      rcases List.mem_append.mp he with he | he
      · exact .inl (hds e (List.mem_cons_of_mem _ he))
      · rcases List.mem_cons.mp he with rfl | he
        · exact .inr rfl
        · exact .inl (hfs e he)

theorem toLower_of_isDigit {c : Char} (hc : c.isDigit = true) : c.toLower = c := by
  apply Char.toLower_eq_of_not_isUpper
  intro hupper
  obtain ⟨-, hnine⟩ := Char.isDigit_iff_toNat.mp hc
  simp only [Char.isUpper, decide_eq_true_eq, ge_iff_le, UInt32.le_iff_toNat_le] at hupper
  have hletter : 'A'.toNat ≤ c.toNat := hupper.1
  exact absurd (Nat.le_trans hletter hnine) (by decide)

/-- A text that starts with a digit is none of the words. -/
theorem readMagnitude?_of_isDigit {c : Char} (hc : c.isDigit = true) (cs : List Char) (negative : Bool) :
    readMagnitude? (c :: cs) negative = (readDecimal? (c :: cs)).map fun d => ofRank negative d.nearest := by
  have hword : ∀ word : String, (∀ e ∈ word.toList.head?, e.isDigit = false) →
      String.ofList ((c :: cs).map Char.toLower) ≠ word := by
    rintro word hstart rfl
    have := hstart c (by simp [toLower_of_isDigit hc])
    rw [hc] at this
    contradiction
  have hnan := hword "nan" (by simp)
  have hinf := hword "inf" (by simp)
  have hinfinity := hword "infinity" (by simp)
  rw [readMagnitude?]
  rw [if_neg hnan, if_neg (not_or.mpr ⟨hinf, hinfinity⟩)]

/-! ### Setting out digits -/

theorem isDigit_of_mem_toDigits {n : Nat} {c : Char} (h : c ∈ Nat.toDigits 10 n) : c.isDigit = true :=
  Nat.isDigit_of_mem_toDigits (by decide) (by decide) h

/-- The digits of a decimal with their place are the decimal. -/
theorem ofDigitChars_magnitude (d : Decimal) :
    ⟨Nat.ofDigitChars 10 (Nat.toDigits 10 d.coefficient) 0,
      d.magnitude - 1 + 1 - (Nat.toDigits 10 d.coefficient).length⟩ = d := by
  have hexponent : d.magnitude - 1 + 1 - (Nat.toDigits 10 d.coefficient).length = d.exponent := by
    rw [magnitude]
    omega
  rw [hexponent, Nat.ofDigitChars_ten_toDigits]

theorem isDigit_of_mem_zeros {n : Nat} {c : Char} (hc : c ∈ zeros n) : c.isDigit = true := by
  rw [List.eq_of_mem_replicate hc]
  rfl

/-- Digits with the point after place zero write a decimal that is as great as the digits are with an
exponent that puts the first one at its place. -/
theorem plain_positionalChars {ds : List Char} (hds : ∀ c ∈ ds, c.isDigit = true) (hne : ds ≠ []) (lead : Int) :
    ∃ d, Plain (positionalChars [] ds lead) d ∧
      d.nearest = (⟨Nat.ofDigitChars 10 ds 0, lead + 1 - ds.length⟩ : Decimal).nearest := by
  unfold positionalChars
  by_cases hlead : lead < 0
  · rw [if_pos hlead]
    have hall : ∀ c ∈ zeros (-lead - 1).toNat ++ ds, c.isDigit = true := by
      intro c hc
      rcases List.mem_append.mp hc with hc | hc
      · exact isDigit_of_mem_zeros hc
      · exact hds c hc
    have hcoefficient : Nat.ofDigitChars 10 (['0'] ++ (zeros (-lead - 1).toNat ++ ds)) 0 = Nat.ofDigitChars 10 ds 0 := by
      rw [Nat.ofDigitChars_append, Nat.ofDigitChars_append, zeros, Nat.ofDigitChars_replicate_zero]
      rfl
    have hexponent : -((zeros (-lead - 1).toNat ++ ds).length : Int) = lead + 1 - ds.length := by
      rw [List.length_append, zeros, List.length_replicate]
      omega
    have hzero : ∀ c ∈ ['0'], c.isDigit = true := List.forall_mem_singleton.mpr rfl
    refine ⟨_, .point hzero (by simp) hall, ?_⟩
    rw [hcoefficient, hexponent]
  · rw [if_neg hlead]
    by_cases hlength : ds.length ≤ lead.toNat + 1
    · dsimp only
      rw [if_pos hlength, List.append_nil]
      have hall : ∀ c ∈ ds ++ zeros (lead.toNat + 1 - ds.length), c.isDigit = true := by
        intro c hc
        rcases List.mem_append.mp hc with hc | hc
        · exact hds c hc
        · exact isDigit_of_mem_zeros hc
      refine ⟨_, .whole hall (by simp [hne]), ?_⟩
      have hexponent : (0 : Int) = lead + 1 - ds.length - (lead.toNat + 1 - ds.length : Nat) := by omega
      rw [Nat.ofDigitChars_append, zeros, Nat.ofDigitChars_replicate_zero, Nat.mul_comm, hexponent, nearest_mul_pow]
    · dsimp only
      rw [if_neg hlength]
      have htake : ∀ c ∈ ds.take (lead.toNat + 1), c.isDigit = true := fun c hc => hds c (List.mem_of_mem_take hc)
      have hdrop : ∀ c ∈ ds.drop (lead.toNat + 1), c.isDigit = true := fun c hc => hds c (List.mem_of_mem_drop hc)
      refine ⟨_, .point htake (by simp [hne]) hdrop, ?_⟩
      have hexponent : -((ds.drop (lead.toNat + 1)).length : Int) = lead + 1 - ds.length := by
        rw [List.length_drop]
        omega
      rw [List.take_append_drop, hexponent]

/-- What is written for a rank is a plain decimal that reads back as the rank. -/
theorem plain_magnitudeChars {rank : Nat} (h : rank < infinityRank) :
    ∃ d, Plain (plain.magnitudeChars rank) d ∧ d.nearest = rank := by
  unfold Layout.magnitudeChars
  by_cases hzero : rank = 0
  · rw [if_pos hzero, hzero]
    show ∃ d, Plain ['0'] d ∧ d.nearest = 0
    have hdigits : ∀ c ∈ ['0'], c.isDigit = true := List.forall_mem_singleton.mpr rfl
    exact ⟨⟨0, 0⟩, .whole hdigits (by simp), rfl⟩
  · rw [if_neg hzero]
    generalize hd : shortest plain.tie rank = d
    have hnearest : d.nearest = rank := hd ▸ nearest_shortest plain.tie (Nat.pos_of_ne_zero hzero) h
    obtain ⟨d', hplain, hnearest'⟩ :=
      plain_positionalChars (fun _ hc => isDigit_of_mem_toDigits hc) Nat.toDigits_ne_nil (d.magnitude - 1)
    rw [ofDigitChars_magnitude] at hnearest'
    exact ⟨d', hplain, hnearest'.trans hnearest⟩

/-- A finite number is written as a sign, if it is negative, and a plain decimal. -/
theorem exists_plain_write {x : Float} (h : x.isFinite = true) :
    ∃ cs d, (plain.write x).toList = signChars x ++ cs ∧ Plain cs d ∧ d.nearest = rankOf x := by
  obtain ⟨d, hplain, hnearest⟩ := plain_magnitudeChars (isFinite_iff.mp h)
  refine ⟨_, d, ?_, hplain, hnearest⟩
  rw [Layout.write, String.toList_ofList, Layout.chars, writeChars, not_isNaN_of_isFinite h, if_pos h]
  rfl

/-- A sign and a decimal that is nearest to the magnitude of a number are read as the number. -/
theorem readChars_signChars {x : Float} {c : Char} {cs : List Char} {d : Decimal} (hc : c.isDigit = true)
    (hd : readDecimal? (c :: cs) = some d) (hnearest : d.nearest = rankOf x) :
    readChars (signChars x ++ c :: cs) = .ok x := by
  have hsign : splitSign (signChars x ++ c :: cs) = (isNegative x, c :: cs) := by
    unfold signChars
    cases isNegative x with
    | true => rfl
    | false => exact splitSign_of_isDigit hc cs
  rw [readChars_eq_ok_iff, hsign, readMagnitude?_of_isDigit hc, hd, Option.map_some, hnearest, ofRank_isNegative_rankOf]
  exact ⟨by simp, rfl⟩

/-- The text of a finite number is read as the number, zeros with their signs. -/
theorem read_write {x : Float} (h : x.isFinite = true) : Decimal.read (plain.write x) = .ok x := by
  obtain ⟨cs, d, htext, hplain, hnearest⟩ := exists_plain_write h
  obtain ⟨c, rest, rfl, hc, -⟩ := hplain.exists_cons
  rw [Decimal.read, htext]
  exact readChars_signChars hc hplain.readDecimal? hnearest

end Scorecard.Decimal
