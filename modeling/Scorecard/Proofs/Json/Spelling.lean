import Scorecard.Proofs.Decimal.Exact
import Scorecard.Proofs.Json.Canonical
import Scorecard.Proofs.Json.Literals

/-!
Spellings of one number. A number in a value is a rational, whether it is an integer or a double, and so is a
literal in a text. A whole number below the limit has one canonical form in all its spellings, the integer; so what
becomes of a literal depends on the number that is read from it, which for long literals may be another than the
one that is written.
-/
namespace Scorecard.Json

/-! ### Numbers -/

/-- The number that a number in a value is, exactly. -/
def Number.value : Number → ℚ
  | .integer n _ => n
  | .float x _ => Decimal.value x

theorem value_of_units {x : Float} {a : Nat} (h : Decimal.units (Decimal.rankOf x) = a * Decimal.unitsPerOne) :
    Decimal.value x = ((if Decimal.isNegative x then -(a : Int) else a : Int) : ℚ) := by
  have hne : (Decimal.unitsPerOne : ℚ) ≠ 0 := Nat.cast_ne_zero.mpr Decimal.unitsPerOne_pos.ne'
  rw [Decimal.value, h, Nat.cast_mul, mul_div_cancel_right₀ _ hne]
  split <;> simp

/-- A double that is a whole number has the units of its magnitude. -/
theorem units_of_value {x : Float} {k : Int} (h : Decimal.value x = k) :
    Decimal.units (Decimal.rankOf x) = k.natAbs * Decimal.unitsPerOne := by
  have hne : (Decimal.unitsPerOne : ℚ) ≠ 0 := Nat.cast_ne_zero.mpr Decimal.unitsPerOne_pos.ne'
  have habs : |Decimal.value x| = (Decimal.units (Decimal.rankOf x) : ℚ) / Decimal.unitsPerOne := by
    have hnonneg : (0 : ℚ) ≤ (Decimal.units (Decimal.rankOf x) : ℚ) / Decimal.unitsPerOne :=
      div_nonneg (Nat.cast_nonneg _) (Nat.cast_nonneg _)
    rw [Decimal.value, abs_mul, abs_of_nonneg hnonneg]
    split <;> simp
  rw [h, eq_div_iff hne, ← Int.cast_abs, ← Nat.cast_natAbs, ← Nat.cast_mul] at habs
  exact (Nat.cast_injective habs).symm

/-- The doubles that become integers are the whole numbers below the limit. -/
theorem wholeBelowLimit?_eq_some_iff {x : Float} {k : Int} :
    wholeBelowLimit? x = some k ↔ Decimal.value x = k ∧ k.natAbs < wholeLimit := by
  have hpos := Decimal.unitsPerOne_pos
  unfold wholeBelowLimit?
  dsimp only
  constructor
  · intro h
    split at h
    · next hx =>
        have hunits := Nat.div_mul_cancel (Nat.dvd_of_mod_eq_zero hx.1)
        have hlt := hx.2
        rw [← hunits] at hlt
        obtain rfl := Option.some.inj h
        refine ⟨value_of_units hunits.symm, ?_⟩
        rw [apply_ite Int.natAbs, Int.natAbs_neg, Int.natAbs_natCast, ite_self]
        exact Nat.lt_of_mul_lt_mul_right hlt
    · cases h
  · rintro ⟨hvalue, hlimit⟩
    have hunits := units_of_value hvalue
    have hsign := (value_of_units hunits).symm.trans hvalue
    have hrange : k.natAbs * Decimal.unitsPerOne % Decimal.unitsPerOne = 0 ∧
        k.natAbs * Decimal.unitsPerOne < wholeLimit * Decimal.unitsPerOne :=
      ⟨Nat.mul_mod_left _ _, Nat.mul_lt_mul_of_pos_right hlimit hpos⟩
    rw [hunits, if_pos hrange, Nat.mul_div_cancel _ hpos]
    exact congrArg some (Int.cast_injective hsign)

/-! ### Canonical numbers -/

/-- A whole number below the limit becomes the integer, in whichever way it is a number. -/
theorem Number.canonical_of_whole {n : Number} {k : Int} (h : n.value = k) (hk : k.natAbs < wholeLimit) :
    ∃ fits, n.canonical = .integer k fits := by
  cases n with
  | integer m hm =>
      obtain rfl : m = k := Int.cast_injective h
      exact ⟨hm, rfl⟩
  | float x hx =>
      have hwhole := wholeBelowLimit?_eq_some_iff.mpr ⟨h, hk⟩
      refine ⟨fitsWord_of_wholeBelowLimit? hwhole, ?_⟩
      rw [canonical]
      split
      · next hsome =>
          cases hsome.symm.trans hwhole
          rfl
      · next hnone => cases hnone.symm.trans hwhole

/-- No number is changed by its canonical form. -/
theorem Number.value_canonical (n : Number) : n.canonical.value = n.value := by
  cases n with
  | integer m hm => rfl
  | float x hx =>
      rw [canonical]
      split
      · next hsome => exact (wholeBelowLimit?_eq_some_iff.mp hsome).1.symm
      · rfl

theorem Number.canonical_canonical (n : Number) : n.canonical.canonical = n.canonical := by
  cases n with
  | integer m hm => rfl
  | float x hx =>
      cases hwhole : wholeBelowLimit? x with
      | some k =>
          obtain ⟨hvalue, hlimit⟩ := wholeBelowLimit?_eq_some_iff.mp hwhole
          obtain ⟨fits, hcanonical⟩ := canonical_of_whole (n := .float x hx) hvalue hlimit
          rw [hcanonical]
          rfl
      | none =>
          have hself : (Number.float x hx).canonical = .float x hx := by
            rw [canonical]
            split
            · next hsome => cases hsome.symm.trans hwhole
            · rfl
          rw [hself, hself]

/-! ### Literals -/

namespace Literal

/-- The number that the digits of a literal form, on both sides of the point. -/
def digits (l : Literal) : Nat := Nat.ofDigitChars 10 (l.whole ++ l.fraction) 0

def writtenExponent (l : Literal) : Int :=
  match l.exponent with
  | none => 0
  | some (negative, ds) => if negative then -(Nat.ofDigitChars 10 ds 0 : Int) else Nat.ofDigitChars 10 ds 0

/-- The power of ten by which the digits are scaled. -/
def place (l : Literal) : Int := l.writtenExponent - l.fraction.length

/-- The number that a literal spells, exactly. -/
def value (l : Literal) : ℚ := (if l.negative then -1 else 1) * (l.digits * 10 ^ l.place)

/-- What is read from the literal is the number that it spells. -/
def Exact (l : Literal) : Prop := ∃ n, l.number? = some n ∧ n.value = l.value

/-- The digits and the power of ten by which they are scaled are doubles both. -/
structure Moderate (l : Literal) : Prop where
  digits_lt : l.digits < 2 ^ 53
  place_le : l.place.natAbs ≤ 22
  exponent_lt : l.writtenExponent.natAbs < 2 ^ 31

end Literal

theorem value_powerOfTen {e : Nat} (he : e ≤ 22) :
    (Decimal.powerOfTen e).isFinite = true ∧ Decimal.value (Decimal.powerOfTen e) = (10 ^ e : Nat) := by
  have hall : ∀ e < 23, (Decimal.powerOfTen e).isFinite = true ∧ Decimal.isNegative (Decimal.powerOfTen e) = false ∧
      Decimal.units (Decimal.rankOf (Decimal.powerOfTen e)) = 10 ^ e * Decimal.unitsPerOne := by decide +kernel
  obtain ⟨hfinite, hsign, hunits⟩ := hall e (by omega)
  refine ⟨hfinite, ?_⟩
  rw [value_of_units hunits, hsign, if_neg Bool.false_ne_true, Int.cast_natCast]

theorem isInf_eq_false {x : Float} (hx : x.isFinite = true) : x.isInf = false := by
  have hfinite : x.toModel.unpack.isFinite = true := hx
  change x.toModel.unpack.isInf = false
  cases hunpack : x.toModel.unpack with
  | infinity s =>
      rw [hunpack] at hfinite
      cases hfinite
  | zero s | finite s m e hm | notANumber => rfl

theorem scaleTen_of_nonneg {x : Float} {j : Nat} (hj : j ≤ 22) (h : (x * Decimal.powerOfTen j).isFinite = true) :
    Literal.scaleTen x j = some (x * Decimal.powerOfTen j) := by
  rw [Literal.scaleTen, if_pos (by omega), if_pos (by omega), Int.toNat_natCast]
  simp only [isInf_eq_false h, Bool.false_eq_true, if_false]

theorem scaleTen_of_neg {x : Float} {j : Nat} (hj : j ≤ 22) (hpos : j ≠ 0) :
    Literal.scaleTen x (-j) = some (x / Decimal.powerOfTen j) := by
  rw [Literal.scaleTen, if_pos (by omega), if_neg (by omega), Int.natAbs_neg, Int.natAbs_natCast]

theorem scaleTen_zero {e : Int} (he : e.natAbs ≤ 22) : Literal.scaleTen 0 e = some 0 := by
  have hall : ∀ j < 23, (0 : Float) * Decimal.powerOfTen j = 0 ∧ (0 : Float) / Decimal.powerOfTen j = 0 := by
    decide +kernel
  obtain ⟨j, rfl | rfl⟩ := e.eq_nat_or_neg
  · obtain ⟨hmul, -⟩ := hall j (by omega)
    rw [scaleTen_of_nonneg (by omega) (by rw [hmul]; rfl), hmul]
  · obtain ⟨hmul, hdiv⟩ := hall j (by omega)
    by_cases hj : j = 0
    · rw [hj] at hmul ⊢
      exact (scaleTen_of_nonneg (Nat.zero_le _) (by rw [hmul]; rfl)).trans (congrArg some hmul)
    · rw [scaleTen_of_neg (by omega) hj, hdiv]

/-- Scaling by a power of ten is exact where it makes a whole number. -/
theorem scaleTen_exact {n k : Nat} {e : Int} (hn : n < 2 ^ 53) (hpos : n ≠ 0) (he : e.natAbs ≤ 22) (hk : k < 2 ^ 53)
    (h : (n : ℚ) * 10 ^ e = k) :
    ∃ x, Literal.scaleTen n.toUInt64.toFloat e = some x ∧ x.isFinite = true ∧ Decimal.value x = k := by
  obtain ⟨hfinite, hvalue⟩ := Decimal.value_toFloat hn
  have hone : 1 ≤ Decimal.value n.toUInt64.toFloat := by
    rw [hvalue]
    exact_mod_cast Nat.pos_of_ne_zero hpos
  have hpower {j : Nat} (hj : j ≤ 22) : 1 ≤ Decimal.value (Decimal.powerOfTen j) := by
    rw [(value_powerOfTen hj).2]
    exact_mod_cast Nat.one_le_pow j 10 (by decide)
  by_cases hsign : 0 ≤ e
  · obtain ⟨j, rfl⟩ := Int.eq_ofNat_of_zero_le hsign
    have hj : j ≤ 22 := he
    have hproduct : Decimal.value n.toUInt64.toFloat * Decimal.value (Decimal.powerOfTen j) = k := by
      rw [hvalue, (value_powerOfTen hj).2, ← h, zpow_natCast, Nat.cast_pow, Nat.cast_ofNat]
    have hmul := Decimal.value_mul hfinite (value_powerOfTen hj).1 hone (hpower hj) hk hproduct
    exact ⟨_, scaleTen_of_nonneg hj hmul.1, hmul⟩
  · obtain ⟨j, rfl⟩ := Int.exists_eq_neg_ofNat (by omega : e ≤ 0)
    have hj : j ≤ 22 := by omega
    have hquotient : Decimal.value n.toUInt64.toFloat = k * Decimal.value (Decimal.powerOfTen j) := by
      rw [hvalue, (value_powerOfTen hj).2, ← h, zpow_neg, zpow_natCast, Nat.cast_pow, Nat.cast_ofNat, mul_assoc,
        inv_mul_cancel₀ (pow_ne_zero _ (by norm_num)), mul_one]
    have hdiv := Decimal.value_div hfinite (value_powerOfTen hj).1 hone (hpower hj) hk hquotient
    exact ⟨_, scaleTen_of_neg hj (by omega), hdiv⟩

/-- The sign is put before a whole number without a change. -/
theorem value_signed (negative : Bool) {x : Float} (hx : x.isFinite = true) (hx1 : 1 ≤ Decimal.value x) :
    (Literal.signed negative x).isFinite = true ∧
      Decimal.value (Literal.signed negative x) = (if negative then -1 else 1) * Decimal.value x := by
  cases negative with
  | false => exact ⟨hx, (one_mul _).symm⟩
  | true =>
      obtain ⟨hfinite, hvalue⟩ := Decimal.value_neg hx hx1
      exact ⟨hfinite, hvalue.trans (neg_one_mul _).symm⟩

theorem value_signed_zero (negative : Bool) :
    (Literal.signed negative 0).isFinite = true ∧ Decimal.value (Literal.signed negative 0) = 0 := by
  cases negative with
  | false => exact ⟨rfl, Decimal.value_zero⟩
  | true => exact ⟨rfl, (Decimal.unpackedValue_unpack rfl).symm⟩

theorem float?_of_isFinite {x : Float} (hx : x.isFinite = true) : Literal.float? x = some (.float x hx) := dif_pos hx

/-- Digits and a power of ten are read exactly where they are of moderate size and make a whole number. -/
theorem scaled?_exact (negative : Bool) {n k : Nat} {e : Int} (hn : n < 2 ^ 53) (he : e.natAbs ≤ 22) (hk : k < 2 ^ 53)
    (h : (n : ℚ) * 10 ^ e = k) :
    ∃ m, Literal.scaled? negative n e = some m ∧ m.value = (if negative then -1 else 1) * (k : ℚ) := by
  by_cases hzero : n = 0
  · have hx : (0 : Nat).toUInt64.toFloat = 0 := rfl
    rw [hzero, Nat.cast_zero, zero_mul] at h
    obtain ⟨hfinite, hvalue⟩ := value_signed_zero negative
    refine ⟨.float _ hfinite, ?_, ?_⟩
    · rw [Literal.scaled?, hzero, hx, scaleTen_zero he, Option.bind_some, float?_of_isFinite hfinite]
    · rw [Number.value, hvalue, ← h, mul_zero]
  · obtain ⟨x, hscale, hx, hvalue⟩ := scaleTen_exact hn hzero he hk h
    have hone : 1 ≤ Decimal.value x := by
      have hne : (k : ℚ) ≠ 0 := by
        rw [← h]
        exact mul_ne_zero (Nat.cast_ne_zero.mpr hzero) (zpow_ne_zero _ (by norm_num))
      rw [hvalue]
      exact_mod_cast Nat.one_le_iff_ne_zero.mpr (Nat.cast_ne_zero.mp hne)
    obtain ⟨hfinite, hsigned⟩ := value_signed negative hx hone
    refine ⟨.float _ hfinite, ?_, ?_⟩
    · rw [Literal.scaled?, hscale, Option.bind_some, float?_of_isFinite hfinite]
    · rw [Number.value, hsigned, hvalue]

theorem integer?_exact (negative : Bool) {n : Nat} (hn : n < 2 ^ 53) :
    ∃ m, Literal.integer? negative n = some m ∧ m.value = (if negative then -1 else 1) * (n : ℚ) := by
  unfold Literal.integer?
  dsimp only
  split
  · next hzero =>
      obtain ⟨hfinite, hvalue⟩ := value_signed_zero true
      refine ⟨.float _ hfinite, float?_of_isFinite hfinite, ?_⟩
      rw [Number.value, hvalue, hzero.2, Nat.cast_zero, mul_zero]
  · have hfits : FitsWord (if negative = true then -(n : Int) else n) := by
      unfold FitsWord
      split <;> omega
    rw [dif_pos hfits]
    refine ⟨_, rfl, ?_⟩
    rw [Number.value]
    split <;> simp

namespace Literal

variable {l : Literal}

/-- The digits of a literal of moderate size are gathered on both sides of the point. -/
theorem gather_of_digits_lt (h : l.digits < 2 ^ 53) :
    ∃ n, gather 0 l.whole = (n, []) ∧ gather n l.fraction = (l.digits, []) := by
  have hsplit : l.digits = Nat.ofDigitChars 10 l.fraction (Nat.ofDigitChars 10 l.whole 0) := by
    rw [digits, Nat.ofDigitChars, List.foldl_append, Nat.ofDigitChars, Nat.ofDigitChars]
  have hsize : 2 ^ 53 < UInt64.size := by decide
  have hwhole : Nat.ofDigitChars 10 l.whole 0 ≤ l.digits := hsplit ▸ le_ofDigitChars _ _
  refine ⟨Nat.ofDigitChars 10 l.whole 0, gather_eq (by omega), ?_⟩
  rw [hsplit]
  exact gather_eq (by omega)

theorem natAbs_eq_of_whole {k : Int} (h : l.value = k) : (l.digits : ℚ) * 10 ^ l.place = k.natAbs := by
  have hnonneg : (0 : ℚ) ≤ l.digits * 10 ^ l.place := by positivity
  have habs : |l.value| = l.digits * 10 ^ l.place := by
    rw [value, abs_mul, abs_of_nonneg hnonneg]
    split <;> simp
  rw [← habs, h, Nat.cast_natAbs, Int.cast_abs]

theorem place_of_plain (hfraction : l.fraction = []) (hexponent : l.exponent = none) : l.place = 0 := by
  rw [place, writtenExponent, hexponent, hfraction]
  rfl

theorem exponentValue?_of_lt {negative : Bool} {ds : List Char} (hexponent : l.exponent = some (negative, ds))
    (h : l.writtenExponent.natAbs < 2 ^ 31) : exponentValue? negative ds = some l.writtenExponent := by
  have hword : Nat.ofDigitChars 10 ds 0 < UInt32.size / 2 := by
    have hhalf : UInt32.size / 2 = 2 ^ 31 := rfl
    rw [writtenExponent, hexponent] at h
    dsimp only at h
    split at h <;> omega
  rw [writtenExponent, hexponent, exponentValue?, if_pos hword]

/-- All digits and the whole exponent of a literal of moderate size are made use of. -/
theorem Moderate.number?_eq (hl : l.Moderate) :
    l.number? =
      if l.fraction.isEmpty && l.exponent.isNone then integer? l.negative l.digits
      else scaled? l.negative l.digits l.place := by
  obtain ⟨n, hwhole, hfraction⟩ := gather_of_digits_lt hl.digits_lt
  have hplace : (([] : List Char).length : Int) - (l.fraction.length - ([] : List Char).length) = -l.fraction.length := by
    simp
  rw [number?, hwhole]
  dsimp only
  rw [List.isEmpty_nil, Bool.and_true]
  split
  · next hplain =>
      have hnone := List.isEmpty_iff.mp ((Bool.and_eq_true _ _).mp hplain).1
      rw [hnone, gather, Prod.mk.injEq] at hfraction
      rw [hfraction.1]
  · rw [hfraction, hplace]
    cases hexponent : l.exponent with
    | none => rw [place, writtenExponent, hexponent, Int.zero_sub]
    | some e =>
        obtain ⟨negative, ds⟩ := e
        dsimp only
        rw [exponentValue?_of_lt hexponent hl.exponent_lt]
        dsimp only
        rw [place, Int.add_comm, ← Int.sub_eq_add_neg]

/-- A literal of moderate size that spells a whole number below the limit is read as this number. -/
theorem Moderate.exact (hl : l.Moderate) {k : Int} (h : l.value = k) (hk : k.natAbs < wholeLimit) : l.Exact := by
  have habs := natAbs_eq_of_whole h
  have hlimit : k.natAbs < 2 ^ 53 := hk.trans (by decide)
  rw [Exact, hl.number?_eq]
  split
  · next hplain =>
      simp only [Bool.and_eq_true, List.isEmpty_iff, Option.isNone_iff_eq_none] at hplain
      obtain ⟨n, hnumber, hvalue⟩ := integer?_exact l.negative hl.digits_lt
      refine ⟨n, hnumber, ?_⟩
      rw [hvalue, value, place_of_plain hplain.1 hplain.2, zpow_zero, mul_one]
  · obtain ⟨n, hnumber, hvalue⟩ := scaled?_exact l.negative hl.digits_lt hl.place_le hlimit habs
    refine ⟨n, hnumber, ?_⟩
    rw [hvalue, value, habs]

end Literal

end Scorecard.Json
