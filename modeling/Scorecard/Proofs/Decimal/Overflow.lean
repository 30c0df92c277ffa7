import Scorecard.Proofs.Decimal.Bits

/-!
Where arithmetic leaves the finite numbers. Nothing finite comes of adding to a number that is not, so a sum that
is finite has finite parts. The quotient of a finite number and a count is finite: what it is rounded from is no
greater than the number, and rounding does not go beyond the greatest finite number from below it.
-/
namespace Scorecard.Decimal

open Float.Model Float.Model.UnpackedFloat

/-! ### Packing -/

/-- The number is finite once it is packed. -/
def Fits (u : UnpackedFloat) : Prop :=
  (UnpackedFloat.unpack Format.binary64 (UnpackedFloat.pack Format.binary64 u)).isFinite = true

theorem not_fits_notANumber : ¬Fits .notANumber := by
  unfold Fits
  decide

theorem not_fits_infinity (s : Sign) : ¬Fits (.infinity s) := by
  unfold Fits
  cases s <;> decide

theorem fits_zero (s : Sign) : Fits (.zero s) := by
  unfold Fits
  cases s <;> decide

/-- Above the exponent 971 there are no finite numbers. -/
theorem fits_finite_iff {s : Sign} {m : Nat} {e : Int} (hm : 0 < m) : Fits (.finite s m e hm) ↔ e ≤ 971 := by
  unfold Fits
  rw [isFinite_unpack, UnpackedFloat.pack]
  change (unpackExponent (if 2 ^ 11 ≤ (e + 1023 + 52).toNat + 1 then _
    else if m.log2 + 1 = 53 then _ else _)).toNat ≠ 2047 ↔ _
  split
  · next hbiased =>
      rw [packedInfinity, unpackExponent_packComponents]
      refine iff_of_false (fun hne => hne ?_) (by omega)
      decide
  · next hbiased =>
      split
      · next hnormal =>
          rw [unpackExponent_packComponents, BitVec.toNat_ofNat]
          change (e + 1023 + 52).toNat % 2048 ≠ 2047 ↔ _
          omega
      · next hsubnormal =>
          rw [unpackExponent_packComponents]
          change 0 ≠ 2047 ↔ _
          omega

/-- The bit in front of a mantissa that the pattern leaves out. -/
theorem toNat_one_append (mantissa : BitVec 52) : (1#1 ++ mantissa).toNat = 2 ^ 52 + mantissa.toNat := by
  rw [BitVec.toNat_append, ← Nat.shiftLeft_add_eq_or_of_lt (BitVec.isLt _)]
  rfl

/-- What is unpacked is no number, an infinity, zero, or a mantissa with an exponent within the bounds of the format. The
mantissa has 53 bits unless the exponent is the least one. -/
theorem unpack_finite_bounds {b : BitVec Format.binary64.numBits} {s : Sign} {m : Nat} {e : Int} {hm : 0 < m}
    (h : UnpackedFloat.unpack Format.binary64 b = .finite s m e hm) :
    m < 2 ^ 53 ∧ -1074 ≤ e ∧ e ≤ 971 ∧ (2 ^ 52 ≤ m ∨ e = -1074) := by
  have hbias : Format.binary64.exponentBias = 1023 := rfl
  have hwidth : Format.binary64.mantissaBitsWithoutImplicit = 52 := rfl
  have hexponent : (unpackExponent b).toNat < 2 ^ 11 := (unpackExponent b).isLt
  have hmantissa : (unpackMantissa b).toNat < 2 ^ 52 := (unpackMantissa b).isLt
  unfold UnpackedFloat.unpack at h
  dsimp only at h
  split at h
  · split at h <;> cases h
  · next hfinite =>
      have hne : (unpackExponent b).toNat ≠ 2047 := fun heq => hfinite (BitVec.eq_of_toNat_eq heq)
      rw [hbias] at h
      split at h
      · next hzero =>
          split at h
          · cases h
          · obtain ⟨-, rfl, rfl⟩ := UnpackedFloat.finite.inj h
            have hnat : (unpackExponent b).toNat = 0 := congrArg BitVec.toNat hzero
            omega
      · next hnormal =>
          obtain ⟨-, rfl, rfl⟩ := UnpackedFloat.finite.inj h
          have hpos : (unpackExponent b).toNat ≠ 0 := fun heq => hnormal (BitVec.eq_of_toNat_eq heq)
          have happend := toNat_one_append (unpackMantissa b)
          omega

/-! ### Sums -/

theorem Fits.isFinite {u : UnpackedFloat} (h : Fits u) : u.isFinite = true := by
  cases u with
  | zero s | finite s m e hm => rfl
  | infinity s => exact absurd h (not_fits_infinity s)
  | notANumber => exact absurd h not_fits_notANumber

theorem isFinite_of_isFinite_unpacked_add {u v : UnpackedFloat}
    (h : (UnpackedFloat.add Format.binary64 u v).isFinite = true) : u.isFinite = true ∧ v.isFinite = true := by
  cases u with
  | notANumber => cases h
  | infinity s =>
      cases v with
      | infinity s' =>
          rw [UnpackedFloat.add] at h
          split at h <;> cases h
      | notANumber | zero s' | finite s' m' e' hm' => cases h
  | zero s | finite s m e hm =>
      cases v with
      | zero s' | finite s' m' e' hm' => exact ⟨rfl, rfl⟩
      | infinity s' | notANumber => cases h

/-- The parts of a finite sum are finite. -/
theorem isFinite_of_isFinite_add {x y : Float} (h : (x + y).isFinite = true) :
    x.isFinite = true ∧ y.isFinite = true :=
  isFinite_of_isFinite_unpacked_add (Fits.isFinite h)

/-! ### Rounding -/

/-- The halves in an extended mantissa, less what is sticky. -/
def halves (em : ExtendedMantissa) : Nat := 2 * em.mantissa + em.roundBit.toNat

theorem halves_shiftRightOne (em : ExtendedMantissa) : halves em.shiftRightOne = halves em / 2 := by
  obtain ⟨m, r, s⟩ := em
  have hbit : (m % 2 != 0).toNat = m % 2 := by
    rcases Nat.mod_two_eq_zero_or_one m with h | h <;> rw [h] <;> rfl
  have hle : r.toNat ≤ 1 := Bool.toNat_le r
  show 2 * (m / 2) + (m % 2 != 0).toNat = (2 * m + r.toNat) / 2
  omega

theorem halves_shiftRight (em : ExtendedMantissa) (k : Nat) : halves (em >>> k) = halves em / 2 ^ k := by
  induction k with
  | zero => simp [HShiftRight.hShiftRight, Nat.repeat]
  | succ k ih =>
      change halves (em >>> k).shiftRightOne = _
      rw [halves_shiftRightOne, ih, Nat.div_div_eq_div_mul, Nat.pow_succ]

/-- Rounding goes up by half a unit at most. -/
theorem roundedMantissa_le (em : ExtendedMantissa) : em.roundedMantissa ≤ (halves em + 1) / 2 := by
  obtain ⟨m, r, s⟩ := em
  cases r <;> cases s <;>
    simp [ExtendedMantissa.roundedMantissa, ExtendedMantissa.accuracy, Accuracy.roundToNearestEven, halves]
  all_goals omega

theorem mantissa_le_roundedMantissa (em : ExtendedMantissa) : em.mantissa ≤ em.roundedMantissa := by
  obtain ⟨m, r, s⟩ := em
  cases r <;> cases s <;>
    simp [ExtendedMantissa.roundedMantissa, ExtendedMantissa.accuracy, Accuracy.roundToNearestEven]

theorem shiftToTargetExponent_snd (m : Nat) (e : Int) (a : Accuracy) :
    (shiftToTargetExponent Format.binary64 m e a).2 = max e (max (m.log2 + 1 + e - 53) (-1074)) := by
  change e + ((max ((m.log2 : Int) + 1 + e - 53) (-1074) - e).toNat : Int) = _
  omega

theorem halves_shiftToTargetExponent (m : Nat) (e : Int) (a : Accuracy) :
    halves (shiftToTargetExponent Format.binary64 m e a).1 =
      halves (ExtendedMantissa.ofMantissaAndAccuracy m a) /
        2 ^ ((shiftToTargetExponent Format.binary64 m e a).2 - e).toNat := by
  rw [shiftToTargetExponent_snd]
  change halves (_ >>> _) = _
  rw [halves_shiftRight]
  congr 2
  change (max ((m.log2 : Int) + 1 + e - 53) (-1074) - e).toNat = _
  omega

/-- A mantissa that stays below the greatest finite number is not moved beyond it. -/
theorem shiftToTargetExponent_snd_le {m : Nat} {e : Int} {a : Accuracy} (he : e ≤ 971)
    (hm : m < 2 ^ 53 * 2 ^ (971 - e).toNat) : (shiftToTargetExponent Format.binary64 m e a).2 ≤ 971 := by
  have hlog : m.log2 < 53 + (971 - e).toNat := by
    by_cases hzero : m = 0
    · rw [hzero, Nat.log2_zero]
      omega
    · rw [Nat.log2_lt hzero, Nat.pow_add]
      exact hm
  rw [shiftToTargetExponent_snd]
  omega

/-- Rounding shifts, rounds, and shifts again what the rounding has carried. -/
theorem roundWithAccuracy_eq (s : Sign) (m : Nat) (e : Int) (a : Accuracy) :
    let first := shiftToTargetExponent Format.binary64 m e a
    let second := shiftToTargetExponent Format.binary64 first.1.roundedMantissa first.2 .exact
    roundWithAccuracy Format.binary64 s m e a =
      if h : second.1.mantissa = 0 then .zero s
      else .finite s second.1.mantissa second.2 (Nat.pos_of_ne_zero h) := rfl

theorem halves_ofMantissaAndAccuracy (m : Nat) (a : Accuracy) :
    2 * m ≤ halves (ExtendedMantissa.ofMantissaAndAccuracy m a) ∧
      halves (ExtendedMantissa.ofMantissaAndAccuracy m a) ≤ 2 * m + 1 := by
  have hbit (r : Bool) : r.toNat ≤ 1 := Bool.toNat_le r
  cases a with
  | exact => exact ⟨Nat.le_add_right _ _, Nat.add_le_add_left (hbit _) _⟩
  | inexact o => cases o <;> exact ⟨Nat.le_add_right _ _, Nat.add_le_add_left (hbit _) _⟩

/-- What is less than half a unit above the greatest finite number is rounded to a finite number. -/
theorem fits_roundWithAccuracy {s : Sign} {m : Nat} {e : Int} {a : Accuracy} (he : e ≤ 971)
    (h : halves (ExtendedMantissa.ofMantissaAndAccuracy m a) < (2 ^ 54 - 1) * 2 ^ (971 - e).toNat) :
    Fits (roundWithAccuracy Format.binary64 s m e a) := by
  rw [roundWithAccuracy_eq]
  have hmantissa := (halves_ofMantissaAndAccuracy m a).1
  have hfirst : (shiftToTargetExponent Format.binary64 m e a).2 ≤ 971 :=
    shiftToTargetExponent_snd_le he (by omega)
  have hle : e ≤ (shiftToTargetExponent Format.binary64 m e a).2 := by
    rw [shiftToTargetExponent_snd]
    omega
  have hhalves := halves_shiftToTargetExponent m e a
  generalize shiftToTargetExponent Format.binary64 m e a = first at *
  have hrounded : first.1.roundedMantissa < 2 ^ 53 * 2 ^ (971 - first.2).toNat := by
    have hsplit : (971 - e).toNat = (971 - first.2).toNat + (first.2 - e).toNat := by omega
    have hshifted : halves first.1 < (2 ^ 54 - 1) * 2 ^ (971 - first.2).toNat := by
      rw [hhalves, Nat.div_lt_iff_lt_mul (Nat.two_pow_pos _), Nat.mul_assoc, ← Nat.pow_add, ← hsplit]
      exact h
    have hup := roundedMantissa_le first.1
    have hpos : 0 < 2 ^ (971 - first.2).toNat := Nat.two_pow_pos _
    omega
  have hsecond := shiftToTargetExponent_snd_le (a := .exact) hfirst hrounded
  split
  · exact fits_zero s
  · exact (fits_finite_iff _).mpr hsecond

/-! ### Quotients by counts -/

/-- The number is at least one, whichever its sign. -/
def IsAtLeastOne : UnpackedFloat → Prop
  | .finite _ m e _ => 2 ^ (-e).toNat ≤ m
  | _ => False

/-- The mantissa of a quotient is rounded from the whole number of its halves. -/
theorem halves_accuracyOfFraction (n : Nat) {d : Nat} (hd : 0 < d) :
    halves (ExtendedMantissa.ofMantissaAndAccuracy (n / d) (accuracyOfFraction (n % d) d)) = 2 * n / d := by
  have hparts : 2 * n / d = 2 * (n / d) + 2 * (n % d) / d := by
    calc 2 * n / d = (d * (2 * (n / d)) + 2 * (n % d)) / d := by
          conv_lhs => rw [← Nat.div_add_mod n d, Nat.mul_add, Nat.mul_left_comm]
      _ = 2 * (n / d) + 2 * (n % d) / d := Nat.mul_add_div hd _ _
  have hrest : n % d < d := Nat.mod_lt n hd
  rw [hparts]
  unfold accuracyOfFraction
  split
  · next hzero =>
      rw [hzero, Nat.mul_zero, Nat.zero_div]
      rfl
  · cases hcompare : compare (2 * (n % d)) d with
    | lt =>
        rw [Nat.div_eq_of_lt (Nat.compare_eq_lt.mp hcompare)]
        rfl
    | eq =>
        rw [Nat.compare_eq_eq.mp hcompare, Nat.div_self hd]
        rfl
    | gt =>
        have hlt : d < 2 * (n % d) := Nat.compare_eq_gt.mp hcompare
        have hdiv : 2 * (n % d) / d = 1 := Nat.div_eq_of_lt_le (by omega) (by omega)
        rw [hdiv]
        rfl

/-- The exponent that the quotient is computed with. -/
def quotientExponent (m : Nat) (e : Int) (m' : Nat) (e' : Int) : Int :=
  min (e - e') (max (m.log2 + 1 + e - (m'.log2 + 1 + e') - 53) (-1074))

theorem fits_div {u v : UnpackedFloat} (hu : u.isFinite = true)
    (hbounds : ∀ s m e hm, u = .finite s m e hm → m < 2 ^ 53 ∧ e ≤ 971) (hv : IsAtLeastOne v) :
    Fits (UnpackedFloat.div Format.binary64 u v) := by
  cases v with
  | zero s' | infinity s' | notANumber => cases hv
  | finite s' m' e' hm' =>
      cases u with
      | infinity s | notANumber => cases hu
      | zero s => exact fits_zero _
      | finite s m e hm =>
          obtain ⟨hmantissa, hexponent⟩ := hbounds s m e hm rfl
          have hone : 2 ^ (-e').toNat ≤ m' := hv
          have hlog' : (-e').toNat ≤ m'.log2 := (Nat.le_log2 (Nat.ne_of_gt hm')).mpr hone
          have hlog : m.log2 < 53 := (Nat.log2_lt (Nat.ne_of_gt hm)).mpr hmantissa
          change Fits (roundWithAccuracy Format.binary64 _ (m <<< (e - e' - quotientExponent m e m' e').toNat / m')
            (quotientExponent m e m' e') (accuracyOfFraction (m <<< (e - e' - quotientExponent m e m' e').toNat % m') m'))
          have hle : quotientExponent m e m' e' ≤ 971 := by
            unfold quotientExponent
            omega
          have hshift : (e - e' - quotientExponent m e m' e').toNat ≤
              (971 - quotientExponent m e m' e').toNat + (-e').toNat := by
            omega
          generalize quotientExponent m e m' e' = t at *
          apply fits_roundWithAccuracy hle
          rw [halves_accuracyOfFraction _ hm', Nat.div_lt_iff_lt_mul hm', Nat.shiftLeft_eq]
          have hpow : 2 ^ (e - e' - t).toNat ≤ 2 ^ (971 - t).toNat * m' :=
            calc 2 ^ (e - e' - t).toNat ≤ 2 ^ ((971 - t).toNat + (-e').toNat) := Nat.pow_le_pow_right (by decide) hshift
              _ = 2 ^ (971 - t).toNat * 2 ^ (-e').toNat := Nat.pow_add ..
              _ ≤ 2 ^ (971 - t).toNat * m' := Nat.mul_le_mul_left _ hone
          have hpos : 0 < 2 ^ (971 - t).toNat * m' := Nat.mul_pos (Nat.two_pow_pos _) hm'
          calc 2 * (m * 2 ^ (e - e' - t).toNat) = 2 * m * 2 ^ (e - e' - t).toNat := (Nat.mul_assoc ..).symm
            _ ≤ (2 ^ 54 - 2) * (2 ^ (971 - t).toNat * m') := Nat.mul_le_mul (by omega) hpow
            _ < (2 ^ 54 - 1) * (2 ^ (971 - t).toNat * m') := Nat.mul_lt_mul_of_pos_right (by decide) hpos
            _ = (2 ^ 54 - 1) * 2 ^ (971 - t).toNat * m' := (Nat.mul_assoc ..).symm

/-- A mantissa of at least 53 bits is shifted to 53 bits. -/
theorem shiftToTargetExponent_normal {m : Nat} {e : Int} (a : Accuracy) (hm : 2 ^ 52 ≤ m) (he : -1074 ≤ e) :
    2 ^ 52 ≤ (shiftToTargetExponent Format.binary64 m e a).1.mantissa ∧
      (shiftToTargetExponent Format.binary64 m e a).1.mantissa < 2 ^ 53 ∧
        e ≤ (shiftToTargetExponent Format.binary64 m e a).2 := by
  have hpos : m ≠ 0 := by omega
  have hlog : 52 ≤ m.log2 := (Nat.le_log2 hpos).mpr hm
  have hshift : ((shiftToTargetExponent Format.binary64 m e a).2 - e).toNat = m.log2 - 52 := by
    rw [shiftToTargetExponent_snd]
    omega
  have hhalves := halves_shiftToTargetExponent m e a
  rw [hshift] at hhalves
  have hdouble := halves_ofMantissaAndAccuracy m a
  have hlow : 2 ^ 53 * 2 ^ (m.log2 - 52) ≤ 2 * m := by
    rw [← Nat.pow_add, show 53 + (m.log2 - 52) = m.log2 + 1 by omega, Nat.pow_succ, Nat.mul_comm]
    exact Nat.mul_le_mul_left 2 (Nat.log2_self_le hpos)
  have hhigh : 2 * m + 1 < 2 ^ 54 * 2 ^ (m.log2 - 52) := by
    have hlt : m < 2 ^ (m.log2 + 1) := Nat.lt_log2_self
    rw [← Nat.pow_add, show 54 + (m.log2 - 52) = m.log2 + 1 + 1 by omega, Nat.pow_succ]
    omega
  have hpow : 0 < 2 ^ (m.log2 - 52) := Nat.two_pow_pos _
  have hge : 2 ^ 53 ≤ halves (shiftToTargetExponent Format.binary64 m e a).1 := by
    rw [hhalves, Nat.le_div_iff_mul_le hpow]
    exact hlow.trans hdouble.1
  have hlt : halves (shiftToTargetExponent Format.binary64 m e a).1 < 2 ^ 54 := by
    rw [hhalves, Nat.div_lt_iff_lt_mul hpow]
    exact hdouble.2.trans_lt hhigh
  have hbit := Bool.toNat_le (shiftToTargetExponent Format.binary64 m e a).1.roundBit
  rw [shiftToTargetExponent_snd]
  unfold halves at hge hlt
  omega

theorem unpackSign_packComponents {spec : Format} (s : Sign) (exponent : BitVec spec.exponentBits)
    (mantissa : BitVec spec.mantissaBitsWithoutImplicit) :
    Sign.ofBitVec (unpackSign (packComponents spec s exponent mantissa)) = s := by
  have hsign : unpackSign (packComponents spec s exponent mantissa) = s.toBitVec := by
    apply BitVec.eq_of_getLsbD_eq
    intro i hi
    obtain rfl : i = 0 := Nat.lt_one_iff.mp hi
    simp [unpackSign, packComponents, BitVec.getLsbD_append, BitVec.getElem_append]
  rw [hsign]
  cases s <;> rfl

/-- A mantissa of 53 bits comes back from its pattern. -/
theorem unpack_pack {s : Sign} {m : Nat} {e : Int} {hm : 0 < m} (hlow : 2 ^ 52 ≤ m) (hhigh : m < 2 ^ 53)
    (he : -1074 ≤ e) (hfits : e ≤ 971) :
    UnpackedFloat.unpack Format.binary64 (UnpackedFloat.pack Format.binary64 (.finite s m e hm)) = .finite s m e hm := by
  have hpack : UnpackedFloat.pack Format.binary64 (.finite s m e hm) =
      packComponents Format.binary64 s (BitVec.ofNat 11 (e + 1023 + 52).toNat) (BitVec.ofNat 52 m) := by
    have hlog : m.log2 + 1 = 53 := by
      rw [(Nat.log2_eq_iff (Nat.ne_of_gt hm)).mpr ⟨hlow, hhigh⟩]
    rw [UnpackedFloat.pack]
    change (if 2 ^ 11 ≤ (e + 1023 + 52).toNat + 1 then _ else if m.log2 + 1 = 53 then _ else _) = _
    rw [if_neg (by omega), if_pos hlog]
    rfl
  have hexponent : (BitVec.ofNat 11 (e + 1023 + 52).toNat).toNat = (e + 1023 + 52).toNat := by
    rw [BitVec.toNat_ofNat, Nat.mod_eq_of_lt (by omega)]
  have hfinite : BitVec.ofNat 11 (e + 1023 + 52).toNat ≠ -1#11 := by
    intro heq
    rw [heq] at hexponent
    change 2047 = _ at hexponent
    omega
  have hnormal : BitVec.ofNat 11 (e + 1023 + 52).toNat ≠ 0#11 := by
    intro heq
    rw [heq] at hexponent
    change 0 = _ at hexponent
    omega
  have hmantissa : (1#1 ++ BitVec.ofNat 52 m).toNat = m := by
    rw [toNat_one_append, BitVec.toNat_ofNat]
    omega
  rw [hpack]
  unfold UnpackedFloat.unpack
  simp only [unpackExponent_packComponents, unpackMantissa_packComponents]
  rw [if_neg hfinite, if_neg hnormal, unpackSign_packComponents, UnpackedFloat.finite.injEq]
  refine ⟨rfl, hmantissa, ?_⟩
  rw [hexponent]
  change ((e + 1023 + 52).toNat : Int) - (1023 + 52) = e
  omega

/-- What is rounded from a whole number of moderate size is at least one. -/
theorem isAtLeastOne_unpack_pack {s : Sign} {m : Nat} {e : Int} (hlow : 2 ^ 52 ≤ m) (hhigh : m < 2 ^ 64) (he : -52 ≤ e)
    (hle : e ≤ 0) :
    IsAtLeastOne (UnpackedFloat.unpack Format.binary64
      (UnpackedFloat.pack Format.binary64 (roundWithAccuracy Format.binary64 s m e .exact))) := by
  have hfits : Fits (roundWithAccuracy Format.binary64 s m e .exact) := by
    apply fits_roundWithAccuracy (by omega)
    have hpow : 2 ^ 12 ≤ 2 ^ (971 - e).toNat := Nat.pow_le_pow_right (by decide) (by omega)
    have hhalves := (halves_ofMantissaAndAccuracy m .exact).2
    omega
  rw [roundWithAccuracy_eq] at hfits ⊢
  obtain ⟨hfirst, -, hfirst'⟩ := shiftToTargetExponent_normal .exact hlow (e := e) (by omega)
  generalize shiftToTargetExponent Format.binary64 m e .exact = first at *
  have hrounded := hfirst.trans (mantissa_le_roundedMantissa first.1)
  obtain ⟨hsecond, hsecond', hexponent⟩ := shiftToTargetExponent_normal .exact hrounded (e := first.2) (by omega)
  generalize shiftToTargetExponent Format.binary64 first.1.roundedMantissa first.2 .exact = second at *
  have hpos : second.1.mantissa ≠ 0 := by omega
  rw [dif_neg hpos] at hfits ⊢
  rw [fits_finite_iff] at hfits
  rw [unpack_pack hsecond hsecond' (by omega) hfits]
  calc 2 ^ (-second.2).toNat ≤ 2 ^ 52 := Nat.pow_le_pow_right (by decide) (by omega)
    _ ≤ second.1.mantissa := hsecond

theorem ofUInt64_eq_round {n : UInt64} (hn : n ≠ 0) :
    UnpackedFloat.ofUInt64 Format.binary64 n = UnpackedFloat.round Format.binary64 .positive n.toNat 0 := by
  have hpos : 0 < n.toNat := Nat.pos_of_ne_zero fun h => hn (UInt64.toNat_inj.mp h)
  have hcompare : compare (n.toNat : Int) 0 = .gt := by
    rw [Int.compare_eq_gt]
    omega
  change (match compare (n.toNat : Int) 0 with | .lt => _ | .eq => _ | .gt => _) = _
  rw [hcompare]
  rfl

/-- A count is at least one, however it is rounded. -/
theorem isAtLeastOne_toFloat {n : UInt64} (hn : n ≠ 0) : IsAtLeastOne n.toFloat.toModel.unpack := by
  change IsAtLeastOne (UnpackedFloat.unpack Format.binary64
    (UnpackedFloat.pack Format.binary64 (UnpackedFloat.ofUInt64 Format.binary64 n)))
  have hpos : n.toNat ≠ 0 := fun h => hn (UInt64.toNat_inj.mp h)
  have hlt : n.toNat < 2 ^ 64 := n.toNat_lt
  have hlog : n.toNat.log2 < 64 := (Nat.log2_lt hpos).mpr hlt
  let k := (0 - max ((n.toNat.log2 : Int) + 1 + 0 - 53) (-1074)).toNat
  rw [ofUInt64_eq_round hn]
  change IsAtLeastOne (UnpackedFloat.unpack Format.binary64 (UnpackedFloat.pack Format.binary64
    (roundWithAccuracy Format.binary64 .positive (n.toNat <<< k) (0 - k) .exact)))
  have hk : k = 52 - n.toNat.log2 := by omega
  apply isAtLeastOne_unpack_pack
  · rw [Nat.shiftLeft_eq]
    calc 2 ^ 52 ≤ 2 ^ (n.toNat.log2 + k) := Nat.pow_le_pow_right (by decide) (by omega)
      _ = 2 ^ n.toNat.log2 * 2 ^ k := Nat.pow_add ..
      _ ≤ n.toNat * 2 ^ k := Nat.mul_le_mul_right _ (Nat.log2_self_le hpos)
  · rw [Nat.shiftLeft_eq]
    calc n.toNat * 2 ^ k < 2 ^ (n.toNat.log2 + 1) * 2 ^ k := Nat.mul_lt_mul_of_pos_right Nat.lt_log2_self (Nat.two_pow_pos _)
      _ = 2 ^ (n.toNat.log2 + 1 + k) := (Nat.pow_add ..).symm
      _ ≤ 2 ^ 64 := Nat.pow_le_pow_right (by decide) (by omega)
  · omega
  · omega

theorem isFinite_of_isFinite_unpacked_div {u v : UnpackedFloat} (hv : IsAtLeastOne v)
    (h : (UnpackedFloat.div Format.binary64 u v).isFinite = true) : u.isFinite = true := by
  cases v with
  | zero s' | infinity s' | notANumber => cases hv
  | finite s' m' e' hm' =>
      cases u with
      | zero s | finite s m e hm => rfl
      | infinity s | notANumber => cases h

/-- A quotient by a count is finite exactly if the number is. -/
theorem isFinite_div_toFloat_iff {x : Float} {n : UInt64} (hn : n ≠ 0) :
    (x / n.toFloat).isFinite = true ↔ x.isFinite = true := by
  constructor
  · intro h
    exact isFinite_of_isFinite_unpacked_div (isAtLeastOne_toFloat hn) (Fits.isFinite h)
  · intro hx
    refine fits_div hx (fun s m e hm h => ?_) (isAtLeastOne_toFloat hn)
    obtain ⟨hmantissa, -, hexponent, -⟩ := unpack_finite_bounds h
    exact ⟨hmantissa, hexponent⟩

/-- No quotient by zero is finite. -/
theorem not_isFinite_div_zero (x : Float) : (x / (0 : UInt64).toFloat).isFinite = false := by
  have hzero : (0 : UInt64).toFloat.toModel.unpack = .zero .positive := rfl
  rw [← Bool.not_eq_true]
  intro h
  have hfinite : (UnpackedFloat.div Format.binary64 x.toModel.unpack (0 : UInt64).toFloat.toModel.unpack).isFinite = true :=
    Fits.isFinite h
  rw [hzero] at hfinite
  cases hx : x.toModel.unpack <;> rw [hx] at hfinite <;> cases hfinite

end Scorecard.Decimal
