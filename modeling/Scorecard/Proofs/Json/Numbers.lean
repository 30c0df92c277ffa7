import Scorecard.Json.Printer
import Scorecard.Proofs.Decimal.RoundTrip

/-!
The texts of numbers in JSON. A double's text is read back as the double, with a point or with an exponent
in it, and no integer's text has either; so the text of a number tells which number it is. It also tells
where it ends, since nothing that follows a number is a character of one.
-/
namespace Scorecard

namespace Decimal

/-! ### Exponents -/

theorem readExponent?_signed (lead : Int) :
    readExponent? ('e' :: (if lead < 0 then '-' else '+') :: Nat.toDigits 10 lead.natAbs) = some lead := by
  have hdigits : splitDigits (Nat.toDigits 10 lead.natAbs) = (Nat.toDigits 10 lead.natAbs, []) :=
    splitDigits_digits fun _ hc => isDigit_of_mem_toDigits hc
  by_cases hlead : lead < 0
  · simp [readExponent?, hlead, splitSign, hdigits, Nat.ofDigitChars_ten_toDigits, -Nat.cast_natAbs]
    omega
  · simp [readExponent?, hlead, splitSign, hdigits, Nat.ofDigitChars_ten_toDigits, -Nat.cast_natAbs]
    omega

/-- The digits with the point after the first one. -/
theorem plain_mantissa {ds : List Char} (hds : ∀ c ∈ ds, c.isDigit = true) (hne : ds ≠ []) :
    Plain (ds.take 1 ++ if ds.length ≤ 1 then [] else '.' :: ds.drop 1) ⟨Nat.ofDigitChars 10 ds 0, 1 - ds.length⟩ := by
  by_cases hone : ds.length ≤ 1
  · have hlength : ds.length = 1 := Nat.le_antisymm hone (List.length_pos_iff.mpr hne)
    have hexponent : (1 : Int) - ds.length = 0 := by omega
    rw [if_pos hone, List.append_nil, List.take_of_length_le hone, hexponent]
    exact .whole hds hne
  · have htake : ∀ c ∈ ds.take 1, c.isDigit = true := fun c hc => hds c (List.mem_of_mem_take hc)
    have hdrop : ∀ c ∈ ds.drop 1, c.isDigit = true := fun c hc => hds c (List.mem_of_mem_drop hc)
    have hexponent : (1 : Int) - ds.length = -(ds.drop 1).length := by
      rw [List.length_drop]
      omega
    have hplain := Plain.point htake (by simp [hne]) hdrop
    rw [List.take_append_drop] at hplain
    rwa [if_neg hone, hexponent]

theorem readDecimal?_scientificChars {ds : List Char} (hds : ∀ c ∈ ds, c.isDigit = true) (hne : ds ≠ []) (lead : Int) :
    readDecimal? (scientificChars ds lead) = some ⟨Nat.ofDigitChars 10 ds 0, lead + 1 - ds.length⟩ := by
  have hread : readDecimal? (_ ++ 'e' :: (if lead < 0 then '-' else '+') :: Nat.toDigits 10 lead.natAbs) = _ :=
    (plain_mantissa hds hne).readDecimal?_append (by simp)
  rw [readExponent?_signed, Option.map_some, ← Int.add_sub_assoc] at hread
  exact hread

/-! ### Points -/

theorem positionalChars_of_whole (suffix ds : List Char) {lead : Int} (h : 0 ≤ lead)
    (hlength : ds.length ≤ lead.toNat + 1) :
    positionalChars suffix ds lead = ds ++ zeros (lead.toNat + 1 - ds.length) ++ suffix := by
  simp [positionalChars, Int.not_lt.mpr h, hlength]

/-- Only whole numbers have the suffix. -/
theorem positionalChars_of_not_whole (suffix ds : List Char) {lead : Int}
    (h : ¬(0 ≤ lead ∧ ds.length ≤ lead.toNat + 1)) : positionalChars suffix ds lead = positionalChars [] ds lead := by
  unfold positionalChars
  by_cases hlead : lead < 0
  · simp [hlead]
  · have hlength : ¬ds.length ≤ lead.toNat + 1 := fun hle => h ⟨Int.not_lt.mp hlead, hle⟩
    simp [hlead, hlength]

/-- Digits with a point, which is behind them all in a whole number, write the same decimal as without. -/
theorem plain_positionalChars_pointZero {ds : List Char} (hds : ∀ c ∈ ds, c.isDigit = true) (hne : ds ≠ [])
    (lead : Int) :
    ∃ d, Plain (positionalChars ['.', '0'] ds lead) d ∧
      d.nearest = (⟨Nat.ofDigitChars 10 ds 0, lead + 1 - ds.length⟩ : Decimal).nearest := by
  by_cases hwhole : 0 ≤ lead ∧ ds.length ≤ lead.toNat + 1
  · obtain ⟨hlead, hlength⟩ := hwhole
    have hall : ∀ c ∈ ds ++ zeros (lead.toNat + 1 - ds.length), c.isDigit = true :=
      List.forall_mem_append.mpr ⟨hds, fun _ hc => isDigit_of_mem_zeros hc⟩
    have hzero : ∀ c ∈ ['0'], c.isDigit = true := List.forall_mem_singleton.mpr rfl
    have hzeros : zeros (lead.toNat + 1 - ds.length) ++ ['0'] = zeros (lead.toNat + 1 - ds.length + 1) :=
      (List.replicate_succ' ..).symm
    have hexponent : -((['0'] : List Char).length : Int) =
        lead + 1 - ds.length - (lead.toNat + 1 - ds.length + 1 : Nat) := by
      simp only [List.length_singleton]
      omega
    rw [positionalChars_of_whole _ _ hlead hlength]
    refine ⟨_, .point hall (by simp [hne]) hzero, ?_⟩
    rw [List.append_assoc, hzeros, Nat.ofDigitChars_append, zeros, Nat.ofDigitChars_replicate_zero, Nat.mul_comm,
      hexponent, nearest_mul_pow]
  · rw [positionalChars_of_not_whole _ _ hwhole]
    exact plain_positionalChars hds hne lead

end Decimal

namespace Json

open Decimal (Plain)

/-! ### Doubles -/

/-- The characters in the texts of numbers. -/
def isNumberPart (c : Char) : Bool := c.isDigit || c = '-' || c = '+' || c = '.' || c = 'e'

theorem isNumberPart_of_isDigit {c : Char} (h : c.isDigit = true) : isNumberPart c = true := by
  simp [isNumberPart, h]

theorem isNumberPart_of_mem_plain {cs : List Char} {d : Decimal} (h : Plain cs d) :
    ∀ c ∈ cs, isNumberPart c = true := by
  obtain ⟨c, rest, rfl, hc, hrest⟩ := h.exists_cons
  intro e he
  rcases List.mem_cons.mp he with rfl | he
  · exact isNumberPart_of_isDigit hc
  · rcases hrest e he with he | rfl
    · exact isNumberPart_of_isDigit he
    · rfl

/-- The characters are a text of the rank: they are read as a decimal nearest to it, and have a point or
an exponent. -/
structure Writes (cs : List Char) (rank : Nat) : Prop where
  starts : ∃ c rest, cs = c :: rest ∧ c.isDigit = true
  reads : ∃ d, Decimal.readDecimal? cs = some d ∧ d.nearest = rank
  parts : ∀ c ∈ cs, isNumberPart c = true
  marked : '.' ∈ cs ∨ 'e' ∈ cs

section

variable {ds : List Char} {lead : Int} {rank : Nat}

theorem writes_positionalChars (hds : ∀ c ∈ ds, c.isDigit = true) (hne : ds ≠ [])
    (hnearest : (⟨Nat.ofDigitChars 10 ds 0, lead + 1 - ds.length⟩ : Decimal).nearest = rank) :
    Writes (Decimal.positionalChars ['.', '0'] ds lead) rank := by
  obtain ⟨d, hplain, hd⟩ := Decimal.plain_positionalChars_pointZero hds hne lead
  obtain ⟨c, rest, hcons, hc, -⟩ := hplain.exists_cons
  refine ⟨⟨c, rest, hcons, hc⟩, ⟨d, hplain.readDecimal?, hd.trans hnearest⟩, isNumberPart_of_mem_plain hplain, .inl ?_⟩
  unfold Decimal.positionalChars
  dsimp only
  split
  · simp
  · split
    · simp
    · simp

theorem writes_scientificChars (hds : ∀ c ∈ ds, c.isDigit = true) (hne : ds ≠ [])
    (hnearest : (⟨Nat.ofDigitChars 10 ds 0, lead + 1 - ds.length⟩ : Decimal).nearest = rank) :
    Writes (Decimal.scientificChars ds lead) rank := by
  refine ⟨?_, ⟨_, Decimal.readDecimal?_scientificChars hds hne lead, hnearest⟩, ?_, .inr ?_⟩
  · obtain ⟨c, rest, rfl⟩ := List.exists_cons_of_ne_nil hne
    exact ⟨c, _, rfl, hds c List.mem_cons_self⟩
  · intro c hc
    rcases List.mem_append.mp hc with hc | hc
    · exact isNumberPart_of_mem_plain (Decimal.plain_mantissa hds hne) c hc
    · rcases List.mem_cons.mp hc with rfl | hc
      · rfl
      · rcases List.mem_cons.mp hc with rfl | hc
        · split <;> rfl
        · exact isNumberPart_of_isDigit (Decimal.isDigit_of_mem_toDigits hc)
  · simp [Decimal.scientificChars]

theorem writes_magnitudeChars (h : rank < Decimal.infinityRank) : Writes (floatLayout.magnitudeChars rank) rank := by
  unfold Decimal.Layout.magnitudeChars
  by_cases hzero : rank = 0
  · rw [if_pos hzero, hzero]
    have hdigits : ∀ c ∈ ['0'], c.isDigit = true := List.forall_mem_singleton.mpr rfl
    exact writes_positionalChars hdigits (by simp) rfl
  · rw [if_neg hzero]
    dsimp only [floatLayout]
    generalize hd : Decimal.shortest .even rank = d
    have hnearest : d.nearest = rank := hd ▸ Decimal.nearest_shortest .even (Nat.pos_of_ne_zero hzero) h
    have hdigits : ∀ c ∈ Nat.toDigits 10 d.coefficient, c.isDigit = true :=
      fun _ hc => Decimal.isDigit_of_mem_toDigits hc
    rw [← Decimal.ofDigitChars_magnitude d] at hnearest
    split
    · exact writes_positionalChars hdigits Nat.toDigits_ne_nil hnearest
    · exact writes_scientificChars hdigits Nat.toDigits_ne_nil hnearest

end

/-- A double is written as its sign, if it is negative, and a text of its rank. -/
theorem exists_writes {x : Float} (h : x.isFinite = true) :
    ∃ cs, floatLayout.chars x = Decimal.signChars x ++ cs ∧ Writes cs (Decimal.rankOf x) := by
  refine ⟨_, ?_, writes_magnitudeChars (Decimal.isFinite_iff.mp h)⟩
  rw [Decimal.Layout.chars, Decimal.writeChars, Decimal.not_isNaN_of_isFinite h, if_pos h]
  rfl

/-- The text of a double is read as the double. -/
theorem readChars_chars {x : Float} (h : x.isFinite = true) : Decimal.readChars (floatLayout.chars x) = .ok x := by
  obtain ⟨cs, htext, hwrites⟩ := exists_writes h
  obtain ⟨c, rest, rfl, hc⟩ := hwrites.starts
  obtain ⟨d, hread, hnearest⟩ := hwrites.reads
  rw [htext]
  exact Decimal.readChars_signChars hc hread hnearest

/-! ### Integers -/

/-- An integer is written as its minus, if it is negative, and the digits of its magnitude. -/
theorem integerChars_eq (n : Int) :
    ∃ c ds, integerChars n = (if n < 0 then ['-'] else []) ++ c :: ds ∧ Nat.toDigits 10 n.natAbs = c :: ds ∧
      ∀ e ∈ c :: ds, e.isDigit = true := by
  obtain ⟨c, ds, h⟩ := List.exists_cons_of_ne_nil (Nat.toDigits_ne_nil (b := 10) (n := n.natAbs))
  refine ⟨c, ds, ?_, h, fun e he => Decimal.isDigit_of_mem_toDigits (h ▸ he)⟩
  unfold integerChars
  rw [h]
  split <;> rfl

theorem splitSign_integerChars (n : Int) :
    Decimal.splitSign (integerChars n) = (decide (n < 0), Nat.toDigits 10 n.natAbs) := by
  obtain ⟨c, ds, htext, hdigits, hall⟩ := integerChars_eq n
  have hc := hall c List.mem_cons_self
  rw [htext, hdigits]
  by_cases h : n < 0
  · simp [h, Decimal.splitSign]
  · simp [h, Decimal.splitSign_of_isDigit hc]

theorem integerChars_injective {n m : Int} (h : integerChars n = integerChars m) : n = m := by
  have hparts := congrArg Decimal.splitSign h
  rw [splitSign_integerChars, splitSign_integerChars, Prod.mk.injEq, decide_eq_decide] at hparts
  obtain ⟨hsign, hdigits⟩ := hparts
  have hmagnitude := congrArg (Nat.ofDigitChars 10 · 0) hdigits
  simp only [Nat.ofDigitChars_ten_toDigits] at hmagnitude
  omega

theorem isDigit_or_minus_of_mem_integerChars {n : Int} {c : Char} (h : c ∈ integerChars n) :
    c.isDigit = true ∨ c = '-' := by
  obtain ⟨d, ds, htext, -, hall⟩ := integerChars_eq n
  rw [htext, List.mem_append] at h
  rcases h with h | h
  · split at h
    · exact .inr (List.mem_singleton.mp h)
    · cases h
  · exact .inl (hall c h)

/-! ### Numbers -/

/-- No integer has the text of a double. -/
theorem integerChars_ne_chars (n : Int) {x : Float} (h : x.isFinite = true) : integerChars n ≠ floatLayout.chars x := by
  intro heq
  obtain ⟨cs, htext, hwrites⟩ := exists_writes h
  have hmem : ∀ c ∈ cs, c.isDigit = true ∨ c = '-' := by
    intro c hc
    refine isDigit_or_minus_of_mem_integerChars (n := n) ?_
    rw [heq, htext]
    exact List.mem_append_right _ hc
  rcases hwrites.marked with hpoint | hexponent
  · exact absurd (hmem _ hpoint) (by decide)
  · exact absurd (hmem _ hexponent) (by decide)

theorem Number.chars_injective {n m : Number} (h : n.chars = m.chars) : n = m := by
  cases n with
  | integer n hn =>
      cases m with
      | integer m hm =>
          obtain rfl := integerChars_injective h
          rfl
      | float y hy => exact absurd h (integerChars_ne_chars n hy)
  | float x hx =>
      cases m with
      | integer m hm => exact absurd h.symm (integerChars_ne_chars m hx)
      | float y hy =>
          have hread : Decimal.readChars (floatLayout.chars x) = Decimal.readChars (floatLayout.chars y) :=
            congrArg Decimal.readChars h
          rw [readChars_chars hx, readChars_chars hy] at hread
          cases hread
          rfl

theorem isNumberPart_of_mem_chars {n : Number} : ∀ c ∈ n.chars, isNumberPart c = true := by
  intro c hc
  cases n with
  | integer n hn =>
      rcases isDigit_or_minus_of_mem_integerChars hc with hc | rfl
      · exact isNumberPart_of_isDigit hc
      · rfl
  | float x hx =>
      obtain ⟨cs, htext, hwrites⟩ := exists_writes hx
      change c ∈ floatLayout.chars x at hc
      rw [htext, Decimal.signChars] at hc
      rcases List.mem_append.mp hc with hc | hc
      · split at hc
        · rw [List.mem_singleton.mp hc]
          rfl
        · cases hc
      · exact hwrites.parts c hc

/-- A number starts with a digit or its minus. -/
theorem Number.exists_cons_chars (n : Number) : ∃ c cs, n.chars = c :: cs ∧ (c.isDigit = true ∨ c = '-') := by
  have hsigned {negative : Prop} [Decidable negative] {c : Char} {cs : List Char} (hc : c.isDigit = true) :
      ∃ d ds, (if negative then ['-'] else []) ++ c :: cs = d :: ds ∧ (d.isDigit = true ∨ d = '-') := by
    split
    · exact ⟨'-', c :: cs, rfl, .inr rfl⟩
    · exact ⟨c, cs, rfl, .inl hc⟩
  cases n with
  | integer n hn =>
      obtain ⟨c, ds, htext, -, hall⟩ := integerChars_eq n
      rw [Number.chars, htext]
      exact hsigned (hall c List.mem_cons_self)
  | float x hx =>
      obtain ⟨cs, htext, hwrites⟩ := exists_writes hx
      obtain ⟨c, rest, rfl, hc⟩ := hwrites.starts
      rw [Number.chars, htext, Decimal.signChars]
      exact hsigned hc

end Json

end Scorecard
