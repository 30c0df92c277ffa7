import Mathlib
import Scorecard.Decimal.Binary

/-!
The numbers behind the ranks. A number is its bit pattern, and its sign and its rank are the two parts
of the pattern, so they give the number back; the finite numbers are those whose rank is below that of
infinity. Finite numbers are also those that are equal to themselves or to another finite number.
-/
namespace Scorecard.Decimal

open Float.Model Float.Model.UnpackedFloat

/-! ### Ranks -/

/-- A number is its sign and its rank. -/
theorem ofRank_isNegative_rankOf (x : Float) : ofRank (isNegative x) (rankOf x) = x := by
  have hbits : (if isNegative x then signBit + rankOf x else rankOf x) = x.toBits.toNat := by
    have hlt : x.toBits.toNat < 2 ^ 64 := x.toBits.toNat_lt
    have hparts := Nat.div_add_mod x.toBits.toNat signBit
    unfold isNegative rankOf
    rw [signBit] at hparts ⊢
    by_cases hsign : x.toBits.toNat / 0x8000000000000000 = 1
    · rw [if_pos (beq_iff_eq.mpr hsign)]
      omega
    · rw [if_neg (mt beq_iff_eq.mp hsign)]
      omega
  rw [ofRank, hbits, UInt64.ofNat_toNat, Float.ofBits_toBits]

/-! ### Finite numbers -/

theorem toNat_unpackExponent (b : BitVec Format.binary64.numBits) :
    (unpackExponent b).toNat = b.toNat / 2 ^ 52 % 2 ^ 11 := by
  simp [unpackExponent, BitVec.extractLsb, Nat.shiftRight_eq_div_pow]

/-- A pattern with the greatest exponent is infinite or no number, every other is finite. -/
theorem isFinite_unpack (b : BitVec Format.binary64.numBits) :
    (UnpackedFloat.unpack Format.binary64 b).isFinite = true ↔ (unpackExponent b).toNat ≠ 2047 := by
  fun_cases UnpackedFloat.unpack Format.binary64 b with
  | case1 mantissa exponent s sign hexp _ | case2 mantissa exponent hexp _ =>
      have hn : (unpackExponent b).toNat = 2047 := congrArg BitVec.toNat hexp
      simp [UnpackedFloat.isFinite, hn]
  | case3 mantissa exponent s sign hexp _ _ | case4 mantissa exponent e s sign hexp _ _
  | case5 mantissa exponent e s sign hexp _ =>
      have hn : (unpackExponent b).toNat ≠ 2047 := fun heq => hexp (BitVec.eq_of_toNat_eq heq)
      simp [UnpackedFloat.isFinite, hn]

/-- The finite numbers are those below infinity. -/
theorem isFinite_iff {x : Float} : x.isFinite = true ↔ rankOf x < infinityRank := by
  have hfinite : x.isFinite = (UnpackedFloat.unpack Format.binary64 x.toBits.toBitVec).isFinite := rfl
  have hrank : rankOf x = x.toBits.toNat % 0x8000000000000000 := rfl
  have hinfinity : infinityRank = 2047 * 0x10000000000000 := rfl
  have hnat : x.toBits.toBitVec.toNat = x.toBits.toNat := rfl
  rw [hfinite, isFinite_unpack, toNat_unpackExponent, hrank, hinfinity, hnat]
  omega

theorem ne_nan_of_isFinite {x : Float} (h : x.isFinite = true) : x ≠ Float.nan := by
  rintro rfl
  have hnan : Float.nan.isFinite = false := rfl
  rw [hnan] at h
  cases h

theorem not_isNaN_of_isFinite {x : Float} (h : x.isFinite = true) : x.isNaN = false := by
  rw [Float.isNaN_eq_decide_eq_nan]
  exact decide_eq_false (ne_nan_of_isFinite h)

/-- A finite number equals itself. -/
theorem beq_self_of_isFinite {x : Float} (h : x.isFinite = true) : (x == x) = true :=
  Float.beq_self_iff.mpr (ne_nan_of_isFinite h)

/-- What equals a finite number is finite. -/
theorem isFinite_of_beq {x y : Float} (hx : x.isFinite = true) (h : (x == y) = true) : y.isFinite = true := by
  obtain ⟨-, -, heq⟩ := Float.beq_iff_ne_nan_and_eq.mp h
  rcases heq with rfl | ⟨-, rfl⟩ | ⟨-, rfl⟩
  · exact hx
  · rfl
  · rfl

end Scorecard.Decimal
