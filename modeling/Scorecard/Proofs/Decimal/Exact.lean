import Scorecard.Proofs.Decimal.Overflow
import Scorecard.Proofs.Decimal.Rounding

/-!
Doubles as exact numbers. A finite double is a rational, its sign times its units, and what is unpacked of it is
the same rational written as a mantissa and a power of two. Nothing is lost where there is nothing to round: a
whole number below `2 ^ 53` that comes about by converting a count, by multiplying or by dividing comes about
exactly.
-/
namespace Scorecard.Decimal

open Float.Model Float.Model.UnpackedFloat

/-! ### Values -/

/-- The number that a finite double is, exactly. -/
def value (x : Float) : ℚ := (if isNegative x then -1 else 1) * ((units (rankOf x) : ℚ) / unitsPerOne)

def signValue : Sign → ℚ
  | .negative => -1
  | .positive => 1

/-- The number that an unpacked double is, if it is finite. -/
def unpackedValue : UnpackedFloat → ℚ
  | .finite s m e _ => signValue s * (m * 2 ^ e)
  | .zero _ | .infinity _ | .notANumber => 0

theorem unitsPerOne_eq : (unitsPerOne : ℚ) = 2 ^ (1074 : ℤ) := by
  have hshift (n : Nat) : ((1 <<< n : Nat) : ℚ) = 2 ^ (n : ℤ) := by
    rw [Nat.one_shiftLeft, Nat.cast_pow, Nat.cast_ofNat, zpow_natCast]
  exact hshift 1074

theorem units_subnormal {m : Nat} (hm : m < 2 ^ 52) : units m = m := by
  have hbinade : m < binade := hm
  rw [units_eq, significand, if_pos hbinade, scale, Nat.div_eq_of_lt hbinade, Nat.zero_sub, Nat.pow_zero, Nat.mul_one]

theorem units_normal {e m : Nat} (he : e ≠ 0) (hm : m < 2 ^ 52) :
    units (e * 2 ^ 52 + m) = (2 ^ 52 + m) * 2 ^ (e - 1) := by
  have hdiv : (e * 2 ^ 52 + m) / 2 ^ 52 = e := by omega
  have hmod : (e * 2 ^ 52 + m) % 2 ^ 52 = m := by omega
  have hle : ¬e * 2 ^ 52 + m < 2 ^ 52 := by omega
  rw [units_eq, significand, scale, binade_eq, if_neg hle, hdiv, hmod]

/-! ### Unpacking -/

theorem toNat_unpackMantissa (b : BitVec Format.binary64.numBits) : (unpackMantissa b).toNat = b.toNat % 2 ^ 52 := by
  simp [unpackMantissa, BitVec.extractLsb]

theorem toNat_unpackSign (b : BitVec Format.binary64.numBits) : (unpackSign b).toNat = b.toNat / 2 ^ 63 % 2 := by
  simp [unpackSign, BitVec.extractLsb, Nat.shiftRight_eq_div_pow]

theorem toNat_mod_signBit (b : BitVec Format.binary64.numBits) :
    b.toNat % signBit = (unpackExponent b).toNat * 2 ^ 52 + (unpackMantissa b).toNat := by
  have hbit : signBit = 2 ^ 63 := rfl
  rw [hbit, toNat_unpackExponent, toNat_unpackMantissa]
  omega

theorem signValue_unpackSign (b : BitVec Format.binary64.numBits) :
    signValue (Sign.ofBitVec (unpackSign b)) = if b.toNat / signBit == 1 then -1 else 1 := by
  have hlt : b.toNat < 2 ^ 64 := b.isLt
  have hsign : unpackSign b = 0#1 ↔ ¬(b.toNat / signBit == 1) = true := by
    have hbit : signBit = 2 ^ 63 := rfl
    rw [← BitVec.toNat_inj, toNat_unpackSign, beq_iff_eq, hbit]
    change _ = 0 ↔ _
    omega
  unfold Sign.ofBitVec
  by_cases h : (b.toNat / signBit == 1) = true
  · rw [if_pos h, if_neg fun heq => hsign.mp heq h]
    rfl
  · rw [if_neg h, if_pos (hsign.mpr h)]
    rfl

theorem unpackedValue_unpack_bits {b : BitVec Format.binary64.numBits} (hb : (unpackExponent b).toNat ≠ 2047) :
    unpackedValue (UnpackedFloat.unpack Format.binary64 b) =
      (if b.toNat / signBit == 1 then -1 else 1) * ((units (b.toNat % signBit) : ℚ) / unitsPerOne) := by
  have hmantissa : (unpackMantissa b).toNat < 2 ^ 52 := (unpackMantissa b).isLt
  have hbias : Format.binary64.exponentBias = 1023 := rfl
  rw [← signValue_unpackSign, toNat_mod_signBit, unitsPerOne_eq, div_eq_mul_inv, ← zpow_neg]
  unfold UnpackedFloat.unpack
  simp only
  rw [if_neg fun heq => hb (congrArg BitVec.toNat heq)]
  split
  · next hzero =>
      have hnat : (unpackExponent b).toNat = 0 := congrArg BitVec.toNat hzero
      rw [hnat, Nat.zero_mul, Nat.zero_add, units_subnormal hmantissa]
      split
      · next hnone =>
          have hnat' : (unpackMantissa b).toNat = 0 := congrArg BitVec.toNat hnone
          rw [hnat', Nat.cast_zero, zero_mul, mul_zero]
          rfl
      · rfl
  · next hnormal =>
      have hne : (unpackExponent b).toNat ≠ 0 := fun h => hnormal (BitVec.eq_of_toNat_eq h)
      have happend := toNat_one_append (unpackMantissa b)
      have hexponent : ((unpackExponent b).toNat : ℤ) - (1023 + 52) = ((unpackExponent b).toNat - 1 : Nat) + -1074 := by
        omega
      rw [units_normal hne hmantissa, Nat.cast_mul, Nat.cast_pow, Nat.cast_ofNat (R := ℚ),
        mul_assoc _ _ (2 ^ (-1074 : ℤ)), ← zpow_natCast (2 : ℚ), ← zpow_add₀ two_ne_zero, ← hexponent, ← happend, hbias]
      rfl

/-- What is unpacked of a finite double has its value. -/
theorem unpackedValue_unpack {x : Float} (hx : x.isFinite = true) : unpackedValue x.toModel.unpack = value x :=
  unpackedValue_unpack_bits ((isFinite_unpack _).mp hx)

theorem value_of_unpack {x : Float} {s : Sign} {m : Nat} {e : Int} {hm : 0 < m}
    (h : x.toModel.unpack = .finite s m e hm) : x.isFinite = true ∧ value x = signValue s * (m * 2 ^ e) := by
  have hfinite : x.isFinite = true := by
    change x.toModel.unpack.isFinite = true
    rw [h]
    rfl
  rw [← unpackedValue_unpack hfinite, h]
  exact ⟨hfinite, rfl⟩

/-! ### Rounding whole numbers -/

theorem two_zpow_mul_two_pow {e : Int} (h : e ≤ 0) : (2 : ℚ) ^ e * 2 ^ (-e).toNat = 1 := by
  rw [← zpow_natCast, ← zpow_add₀ two_ne_zero, Int.toNat_of_nonneg (by omega), add_neg_cancel, zpow_zero]

/-- There is nothing to round where there are no odd halves. -/
theorem roundedMantissa_of_halves {em : ExtendedMantissa} {m : Nat} (h : halves em = 2 * m) :
    em.mantissa = m ∧ em.roundedMantissa = m := by
  have hlow := mantissa_le_roundedMantissa em
  have hhigh := roundedMantissa_le em
  have hbit := Bool.toNat_le em.roundBit
  unfold halves at h hhigh
  omega

theorem halves_exact (m : Nat) : halves (ExtendedMantissa.ofMantissaAndAccuracy m .exact) = 2 * m := rfl

/-- A mantissa of 53 bits is not shifted. -/
theorem shiftToTargetExponent_of_bits {m : Nat} {e : Int} (hlow : 2 ^ 52 ≤ m) (hhigh : m < 2 ^ 53) (he : -1074 ≤ e) :
    (shiftToTargetExponent Format.binary64 m e .exact).1.mantissa = m ∧
      (shiftToTargetExponent Format.binary64 m e .exact).2 = e := by
  have hlog : m.log2 = 52 := (Nat.log2_eq_iff (by omega)).mpr ⟨hlow, hhigh⟩
  have hexponent : (shiftToTargetExponent Format.binary64 m e .exact).2 = e := by
    rw [shiftToTargetExponent_snd, hlog]
    omega
  refine ⟨(roundedMantissa_of_halves ?_).1, hexponent⟩
  rw [halves_shiftToTargetExponent, hexponent, Int.sub_self, Int.toNat_zero, Nat.pow_zero, Nat.div_one, halves_exact]

/-- Only zeros are shifted out of a whole number below `2 ^ 53` that is written with more bits. -/
theorem exists_mul_two_pow {m k j : Nat} (hm : m ≠ 0) (hk : k < 2 ^ 53) (hmk : m = k * 2 ^ j) :
    m.log2 - 52 ≤ j ∧ ∃ m', m = m' * 2 ^ (m.log2 - 52) := by
  have hlog : m.log2 < 53 + j := by
    rw [Nat.log2_lt hm, Nat.pow_add, hmk]
    exact Nat.mul_lt_mul_of_pos_right hk (Nat.two_pow_pos _)
  refine ⟨by omega, k * 2 ^ (j - (m.log2 - 52)), ?_⟩
  rw [Nat.mul_assoc, ← Nat.pow_add, Nat.sub_add_cancel (by omega)]
  exact hmk

/-- A whole number below `2 ^ 53`, written with at least 53 bits, is rounded to itself. -/
theorem roundWithAccuracy_whole (s : Sign) {m k : Nat} {e : Int} (hm : 2 ^ 52 ≤ m) (he : -1074 ≤ e) (hle : e ≤ 0)
    (hk : k < 2 ^ 53) (hmk : m = k * 2 ^ (-e).toNat) :
    ∃ m' e' hm', roundWithAccuracy Format.binary64 s m e .exact = .finite s m' e' hm' ∧ 2 ^ 52 ≤ m' ∧ m' < 2 ^ 53 ∧
      -1074 ≤ e' ∧ e' ≤ 971 ∧ (m' : ℚ) * 2 ^ e' = k := by
  have hpos : m ≠ 0 := by omega
  have hlog : 52 ≤ m.log2 := (Nat.le_log2 hpos).mpr hm
  obtain ⟨hshift, m', hm'⟩ := exists_mul_two_pow hpos hk hmk
  obtain ⟨hlow, hhigh, -⟩ := shiftToTargetExponent_normal .exact hm he
  have hexponent : (shiftToTargetExponent Format.binary64 m e .exact).2 = e + (m.log2 - 52 : Nat) := by
    rw [shiftToTargetExponent_snd]
    omega
  have hhalves := halves_shiftToTargetExponent m e .exact
  have hround := roundWithAccuracy_eq s m e .exact
  dsimp only at hround
  generalize shiftToTargetExponent Format.binary64 m e .exact = first at *
  generalize m.log2 - 52 = j at *
  have hfirst : halves first.1 = 2 * m' := by
    have hdrop : (first.2 - e).toNat = j := by omega
    rw [hhalves, halves_exact, hdrop, hm', ← Nat.mul_assoc, Nat.mul_div_cancel _ (Nat.two_pow_pos _)]
  obtain ⟨hmantissa, hrounded⟩ := roundedMantissa_of_halves hfirst
  generalize hr : first.1.roundedMantissa = r at hround
  obtain rfl : r = m' := hr.symm.trans hrounded
  obtain ⟨hmantissa', hexponent'⟩ :=
    shiftToTargetExponent_of_bits (e := first.2) (hmantissa ▸ hlow) (hmantissa ▸ hhigh) (by omega)
  generalize shiftToTargetExponent Format.binary64 r first.2 .exact = second at *
  have hne : second.1.mantissa ≠ 0 := by omega
  rw [dif_neg hne] at hround
  refine ⟨_, _, _, hround, by omega, by omega, by omega, by omega, ?_⟩
  have hfactor : (r : ℚ) * 2 ^ j = k * 2 ^ (-e).toNat := by
    exact_mod_cast hm'.symm.trans hmk
  calc (second.1.mantissa : ℚ) * 2 ^ second.2 = r * 2 ^ (j + e) := by rw [hmantissa', hexponent', hexponent, add_comm]
    _ = r * 2 ^ j * 2 ^ e := by rw [zpow_add₀ two_ne_zero, zpow_natCast, mul_assoc]
    _ = k := by rw [hfactor, mul_assoc, mul_comm (2 ^ (-e).toNat), two_zpow_mul_two_pow hle, mul_one]

/-- What is rounded from a whole number below `2 ^ 53` is that number. -/
theorem value_of_rounded {x : Float} {s : Sign} {m k : Nat} {e : Int}
    (hx : x.toModel.unpack = UnpackedFloat.unpack Format.binary64
      (UnpackedFloat.pack Format.binary64 (roundWithAccuracy Format.binary64 s m e .exact)))
    (hm : 2 ^ 52 ≤ m) (he : -1074 ≤ e) (hle : e ≤ 0) (hk : k < 2 ^ 53) (hmk : m = k * 2 ^ (-e).toNat) :
    x.isFinite = true ∧ value x = signValue s * k := by
  obtain ⟨m', e', hm', hround, hlow, hhigh, he', hle', hvalue⟩ := roundWithAccuracy_whole s hm he hle hk hmk
  rw [hround, unpack_pack hlow hhigh he' hle'] at hx
  rw [← hvalue]
  exact value_of_unpack hx

/-! ### Arithmetic on whole numbers -/

theorem value_zero : value 0 = 0 := by
  rw [← unpackedValue_unpack rfl]
  rfl

/-- Counts are converted exactly. -/
theorem value_toFloat {n : Nat} (hn : n < 2 ^ 53) :
    n.toUInt64.toFloat.isFinite = true ∧ value n.toUInt64.toFloat = n := by
  have hnat : n.toUInt64.toNat = n := Nat.mod_eq_of_lt (by omega)
  by_cases hzero : n = 0
  · rw [hzero, Nat.cast_zero]
    exact ⟨rfl, value_zero⟩
  · have hne : n.toUInt64 ≠ 0 := fun h => hzero (hnat.symm.trans (congrArg UInt64.toNat h))
    have hlog : n.log2 < 53 := (Nat.log2_lt hzero).mpr hn
    let j := (0 - max ((n.log2 : Int) + 1 + 0 - 53) (-1074)).toNat
    have hj : j = 52 - n.log2 := by omega
    have hpack : n.toUInt64.toFloat.toModel.unpack = UnpackedFloat.unpack Format.binary64
        (UnpackedFloat.pack Format.binary64 (roundWithAccuracy Format.binary64 .positive (n <<< j) (0 - j) .exact)) := by
      change UnpackedFloat.unpack Format.binary64
        (UnpackedFloat.pack Format.binary64 (UnpackedFloat.ofUInt64 Format.binary64 n.toUInt64)) = _
      rw [ofUInt64_eq_round hne, hnat]
      rfl
    have hvalue := value_of_rounded (k := n) hpack ?_ (by omega) (by omega) hn ?_
    · rwa [signValue, one_mul] at hvalue
    · rw [Nat.shiftLeft_eq]
      calc 2 ^ 52 = 2 ^ (n.log2 + j) := by rw [show n.log2 + j = 52 by omega]
        _ = 2 ^ n.log2 * 2 ^ j := Nat.pow_add ..
        _ ≤ n * 2 ^ j := Nat.mul_le_mul_right _ (Nat.log2_self_le hzero)
    · rw [Nat.shiftLeft_eq, show (-(0 - (j : Int))).toNat = j by omega]

/-- A number from one upwards is not far behind the point. -/
theorem exponent_of_one_le {m : Nat} {e : Int} (hm : m < 2 ^ 53) (h : (1 : ℚ) ≤ m * 2 ^ e) : -52 ≤ e := by
  by_contra hsmall
  have hcast : (m : ℚ) < 2 ^ (53 : ℤ) := by exact_mod_cast hm
  have hle : (2 : ℚ) ^ e ≤ 2 ^ (-53 : ℤ) := zpow_le_zpow_right₀ one_le_two (by omega)
  have hlt : (m : ℚ) * 2 ^ e < 2 ^ (53 : ℤ) * 2 ^ (-53 : ℤ) := mul_lt_mul hcast hle (zpow_pos two_pos e) (by positivity)
  rw [← zpow_add₀ two_ne_zero, add_neg_cancel, zpow_zero] at hlt
  exact absurd h (not_le.mpr hlt)

/-- A number from one upwards is a positive mantissa of 53 bits and an exponent. -/
theorem unpack_of_one_le {x : Float} (hx : x.isFinite = true) (h : 1 ≤ value x) :
    ∃ m e hm, x.toModel.unpack = .finite .positive m e hm ∧ 2 ^ 52 ≤ m ∧ m < 2 ^ 53 ∧ -52 ≤ e ∧
      value x = (m : ℚ) * 2 ^ e := by
  have hfinite : x.toModel.unpack.isFinite = true := hx
  rw [← unpackedValue_unpack hx] at h ⊢
  cases hunpack : x.toModel.unpack with
  | infinity s | notANumber =>
      rw [hunpack] at hfinite
      cases hfinite
  | zero s =>
      rw [hunpack, unpackedValue] at h
      exact absurd h (by norm_num)
  | finite s m e hm =>
      rw [hunpack, unpackedValue] at h
      have hnonneg : (0 : ℚ) ≤ m * 2 ^ e := by positivity
      cases s with
      | negative =>
          rw [signValue] at h
          exact absurd h (by linarith)
      | positive =>
          rw [signValue, one_mul] at h
          obtain ⟨hbits, -, -, hnormal⟩ := unpack_finite_bounds hunpack
          have hlow := exponent_of_one_le hbits h
          have hbits' : 2 ^ 52 ≤ m := hnormal.resolve_right (by omega)
          exact ⟨m, e, hm, rfl, hbits', hbits, hlow, by rw [unpackedValue, signValue, one_mul]⟩

/-- A whole number below `2 ^ 53` that is written with 53 bits or more has its last bits behind the point. -/
theorem exponent_of_whole {m k : Nat} {e : Int} (hm : 2 ^ 52 ≤ m) (hk : k < 2 ^ 53) (h : (m : ℚ) * 2 ^ e = k) :
    e ≤ 0 ∧ m = k * 2 ^ (-e).toNat := by
  have hle : e ≤ 0 := by
    by_contra hpos
    have htwo : (2 : ℚ) ^ (1 : ℤ) ≤ 2 ^ e := zpow_le_zpow_right₀ one_le_two (by omega)
    have hcast : (2 : ℚ) ^ 52 ≤ m := by exact_mod_cast hm
    have hcast' : (k : ℚ) < 2 ^ 53 := by exact_mod_cast hk
    have hmul : (2 : ℚ) ^ 52 * 2 ^ (1 : ℤ) ≤ m * 2 ^ e := mul_le_mul hcast htwo (by positivity) (Nat.cast_nonneg m)
    rw [h] at hmul
    norm_num at hmul hcast'
    linarith
  refine ⟨hle, ?_⟩
  have hcast : (m : ℚ) = k * 2 ^ (-e).toNat := by
    rw [← h, mul_assoc, two_zpow_mul_two_pow hle, mul_one]
  exact_mod_cast hcast

/-- How far the exponents of a whole quotient can be apart. -/
theorem shift_of_quotient {m m' k : Nat} {d : Int} (hlow : 2 ^ 52 ≤ m) (hhigh : m < 2 ^ 53) (hlow' : 2 ^ 52 ≤ m')
    (hhigh' : m' < 2 ^ 53) (hpos : k ≠ 0) (hk : k < 2 ^ 53) (h : (m : ℚ) * 2 ^ d = (k * m' : Nat)) :
    ∃ j : Nat, d = j ∧ j ≤ 53 ∧ m * 2 ^ j = k * m' := by
  have hle : m' ≤ k * m' := Nat.le_mul_of_pos_left m' (Nat.pos_of_ne_zero hpos)
  have hlt : k * m' < 2 ^ 53 * 2 ^ 53 := Nat.mul_lt_mul'' hk hhigh'
  obtain ⟨j, rfl | rfl⟩ := d.eq_nat_or_neg
  · rw [zpow_natCast] at h
    have hwhole : m * 2 ^ j = k * m' := by exact_mod_cast h
    refine ⟨j, rfl, ?_, hwhole⟩
    by_contra hj
    have hpow : 2 ^ 54 ≤ 2 ^ j := Nat.pow_le_pow_right two_pos (by omega)
    have hmul : 2 ^ 52 * 2 ^ 54 ≤ m * 2 ^ j := Nat.mul_le_mul hlow hpow
    omega
  · rw [zpow_neg, ← div_eq_mul_inv, zpow_natCast, div_eq_iff (pow_ne_zero _ two_ne_zero)] at h
    have hwhole : m = k * m' * 2 ^ j := by exact_mod_cast h
    have hj : j = 0 := by
      by_contra hj
      have hpow : 2 ^ 1 ≤ 2 ^ j := Nat.pow_le_pow_right two_pos (by omega)
      have hmul : 2 ^ 52 * 2 ^ 1 ≤ k * m' * 2 ^ j := Nat.mul_le_mul (hlow'.trans hle) hpow
      omega
    rw [hj, Nat.pow_zero, Nat.mul_one] at hwhole
    exact ⟨0, by rw [hj]; rfl, Nat.zero_le _, by rw [Nat.pow_zero, Nat.mul_one, hwhole]⟩

section

variable {x y : Float} {k : Nat}

/-- A product that is a whole number below `2 ^ 53` is exact. -/
theorem value_mul (hx : x.isFinite = true) (hy : y.isFinite = true) (hx1 : 1 ≤ value x) (hy1 : 1 ≤ value y)
    (hk : k < 2 ^ 53) (h : value x * value y = k) : (x * y).isFinite = true ∧ value (x * y) = k := by
  obtain ⟨m, e, hm, hunpack, hlow, -, he, hvalue⟩ := unpack_of_one_le hx hx1
  obtain ⟨m', e', hm', hunpack', hlow', -, he', hvalue'⟩ := unpack_of_one_le hy hy1
  have hproduct : ((m * m' : Nat) : ℚ) * 2 ^ (e + e') = k := by
    rw [zpow_add₀ two_ne_zero, Nat.cast_mul, mul_mul_mul_comm, ← hvalue, ← hvalue', h]
  have hbits : 2 ^ 52 ≤ m * m' := hlow.trans (Nat.le_mul_of_pos_right m hm')
  obtain ⟨hle, hwhole⟩ := exponent_of_whole hbits hk hproduct
  have hpack : (x * y).toModel.unpack = UnpackedFloat.unpack Format.binary64
      (UnpackedFloat.pack Format.binary64 (roundWithAccuracy Format.binary64 .positive (m * m') (e + e') .exact)) := by
    change UnpackedFloat.unpack Format.binary64
      (UnpackedFloat.pack Format.binary64 (UnpackedFloat.mul Format.binary64 x.toModel.unpack y.toModel.unpack)) = _
    rw [hunpack, hunpack']
    rfl
  have hresult := value_of_rounded hpack hbits (by omega) hle hk hwhole
  rwa [signValue, one_mul] at hresult

/-- A quotient that is a whole number below `2 ^ 53` is exact. -/
theorem value_div (hx : x.isFinite = true) (hy : y.isFinite = true) (hx1 : 1 ≤ value x) (hy1 : 1 ≤ value y)
    (hk : k < 2 ^ 53) (h : value x = k * value y) : (x / y).isFinite = true ∧ value (x / y) = k := by
  obtain ⟨m, e, hm, hunpack, hlow, hhigh, he, hvalue⟩ := unpack_of_one_le hx hx1
  obtain ⟨m', e', hm', hunpack', hlow', hhigh', he', hvalue'⟩ := unpack_of_one_le hy hy1
  have hlog : m.log2 = 52 := (Nat.log2_eq_iff (by omega)).mpr ⟨hlow, hhigh⟩
  have hlog' : m'.log2 = 52 := (Nat.log2_eq_iff (by omega)).mpr ⟨hlow', hhigh'⟩
  have hquotient : (m : ℚ) * 2 ^ (e - e') = (k * m' : Nat) := by
    rw [zpow_sub₀ two_ne_zero, ← mul_div_assoc, ← hvalue, h, hvalue', Nat.cast_mul, ← mul_assoc,
      mul_div_cancel_right₀ _ (zpow_ne_zero _ two_ne_zero)]
  have hpos : k ≠ 0 := by
    rintro rfl
    rw [Nat.cast_zero, zero_mul] at h
    rw [h] at hx1
    exact absurd hx1 (by norm_num)
  obtain ⟨d, hd, hle, hwhole⟩ := shift_of_quotient hlow hhigh hlow' hhigh' hpos hk hquotient
  -- Both mantissas have 53 bits, so the dividend is given 53 bits more, and the divisor goes into it.
  have hexponent : quotientExponent m e m' e' = d - 53 := by
    unfold quotientExponent
    omega
  have hfull : m * 2 ^ 53 = k * 2 ^ (53 - d) * m' := by
    calc m * 2 ^ 53 = m * 2 ^ d * 2 ^ (53 - d) := by rw [Nat.mul_assoc, ← Nat.pow_add, Nat.add_sub_cancel' hle]
      _ = k * 2 ^ (53 - d) * m' := by rw [hwhole, Nat.mul_right_comm]
  have hbits : 2 ^ 52 ≤ k * 2 ^ (53 - d) := by
    refine Nat.le_of_mul_le_mul_right ?_ hm'
    rw [← hfull]
    exact Nat.mul_le_mul hlow hhigh'.le
  have hpack : (x / y).toModel.unpack = UnpackedFloat.unpack Format.binary64
      (UnpackedFloat.pack Format.binary64 (roundWithAccuracy Format.binary64 .positive
        (m <<< (e - e' - quotientExponent m e m' e').toNat / m') (quotientExponent m e m' e')
        (accuracyOfFraction (m <<< (e - e' - quotientExponent m e m' e').toNat % m') m'))) := by
    change UnpackedFloat.unpack Format.binary64
      (UnpackedFloat.pack Format.binary64 (UnpackedFloat.div Format.binary64 x.toModel.unpack y.toModel.unpack)) = _
    rw [hunpack, hunpack']
    rfl
  have hshift : (e - e' - quotientExponent m e m' e').toNat = 53 := by omega
  rw [hshift, Nat.shiftLeft_eq, hfull, Nat.mul_div_cancel _ hm', Nat.mul_mod_left, hexponent] at hpack
  have hback : (-((d : Int) - 53)).toNat = 53 - d := by omega
  have hresult := value_of_rounded hpack hbits (by omega) (by omega) hk (by rw [hback])
  rwa [signValue, one_mul] at hresult

theorem value_neg (hx : x.isFinite = true) (hx1 : 1 ≤ value x) : (-x).isFinite = true ∧ value (-x) = -value x := by
  obtain ⟨m, e, hm, hunpack, hlow, hhigh, he, hvalue⟩ := unpack_of_one_le hx hx1
  have hle : e ≤ 971 := (unpack_finite_bounds hunpack).2.2.1
  have hneg : (-x).toModel.unpack = .finite .negative m e hm := by
    rw [← unpack_pack hlow hhigh (by omega) hle]
    change UnpackedFloat.unpack Format.binary64 (UnpackedFloat.pack Format.binary64 x.toModel.unpack.neg) = _
    rw [hunpack]
    rfl
  obtain ⟨hfinite, hresult⟩ := value_of_unpack hneg
  refine ⟨hfinite, ?_⟩
  rw [hresult, hvalue, signValue, neg_one_mul]

end

end Scorecard.Decimal
