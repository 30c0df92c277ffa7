import Mathlib
import Scorecard.Decimal.Shortest

/-!
Rounding decimals to numbers. The number nearest to a decimal depends on its value only, not on how the
value is spread over coefficient and exponent, and the number of a rank, written in full, is nearest to
itself. So the shortest decimal of a rank reads back as that rank, whichever grid the search ends on.
-/
namespace Scorecard.Decimal

/-! ### Quotients -/

theorem roundQuotient_mul_right (tie : Tie) {k : Nat} (hk : 0 < k) (n d : Nat) :
    roundQuotient tie (n * k) (d * k) = roundQuotient tie n d := by
  have hlt (a b : Nat) : a * k < b * k ↔ a < b := Nat.mul_lt_mul_right hk
  unfold roundQuotient
  simp only [Nat.mul_div_mul_right _ _ hk, Nat.mul_mod_mul_right, ← Nat.mul_assoc, hlt]

theorem roundQuotient_mul_self (tie : Tie) {d : Nat} (hd : 0 < d) (n : Nat) : roundQuotient tie (n * d) d = n := by
  simp [roundQuotient, Nat.mul_div_cancel n hd, hd]

/-- The nearest number depends on the quotient only. -/
theorem nearestRank_mul_right {k : Nat} (hk : 0 < k) (n d : Nat) : nearestRank (n * k) (d * k) = nearestRank n d := by
  have hscaled : n * k * unitsPerOne = n * unitsPerOne * k := Nat.mul_right_comm ..
  have hshifted (e : Nat) : (d * k) <<< e = d <<< e * k := by
    rw [Nat.shiftLeft_eq, Nat.shiftLeft_eq, Nat.mul_right_comm]
  unfold nearestRank
  simp only [hscaled, hshifted, Nat.mul_div_mul_right _ _ hk, roundQuotient_mul_right _ hk]

/-! ### Ranks -/

theorem unitsPerOne_pos : 0 < unitsPerOne := by
  rw [unitsPerOne, Nat.one_shiftLeft]
  exact Nat.two_pow_pos 1074

theorem units_eq (rank : Nat) : units rank = significand rank * 2 ^ scale rank := Nat.shiftLeft_eq ..

theorem binade_eq : binade = 2 ^ 52 := rfl

/-- Beyond the first binade, significands fill the binade from `2 ^ 52` to `2 ^ 53`. -/
theorem significand_bounds {rank : Nat} (h : binade ≤ rank) :
    2 ^ 52 ≤ significand rank ∧ significand rank < 2 ^ 53 := by
  have hmod : rank % binade < binade := Nat.mod_lt _ (by decide)
  rw [significand, if_neg (Nat.not_lt.mpr h), binade_eq] at *
  omega

/-- A rank is the count of the binades below it and its place in its own binade. -/
theorem scale_mul_binade_add_significand (rank : Nat) : scale rank * binade + significand rank = rank := by
  have hparts := Nat.div_add_mod rank binade
  unfold scale significand
  by_cases h : rank < binade
  · rw [if_pos h, Nat.div_eq_of_lt h]
    omega
  · have hpos : 0 < rank / binade := Nat.div_pos (Nat.not_lt.mp h) (by decide)
    rw [if_neg h, Nat.sub_mul, Nat.one_mul, Nat.mul_comm]
    have hle : binade ≤ binade * (rank / binade) := Nat.le_mul_of_pos_right _ hpos
    omega

/-- The grid on which a number is rounded is that of its own rank. -/
theorem log2_units (rank : Nat) : (units rank).log2 - 52 = scale rank := by
  by_cases h : rank < binade
  · have hscale : scale rank = 0 := by rw [scale, Nat.div_eq_of_lt h]
    have hunits : units rank = rank := by
      rw [units_eq, hscale, significand, if_pos h, Nat.pow_zero, Nat.mul_one]
    rw [hunits, hscale]
    by_cases hzero : rank = 0
    · rw [hzero]
      rfl
    · have : rank.log2 < 52 := (Nat.log2_lt hzero).mpr h
      omega
  · obtain ⟨hlow, hhigh⟩ := significand_bounds (Nat.not_lt.mp h)
    have hpos : 0 < 2 ^ scale rank := Nat.two_pow_pos _
    have hlog : (units rank).log2 = 52 + scale rank := by
      rw [units_eq]
      refine (Nat.log2_eq_iff (Nat.ne_of_gt (Nat.mul_pos (Nat.lt_of_lt_of_le (by decide) hlow) hpos))).mpr ⟨?_, ?_⟩
      · rw [Nat.pow_add]
        exact Nat.mul_le_mul_right _ hlow
      · rw [Nat.add_right_comm, Nat.pow_add]
        exact Nat.mul_lt_mul_of_pos_right hhigh hpos
    omega

/-- The number of a rank is nearest to itself. -/
theorem nearestRank_units {rank : Nat} (h : rank < infinityRank) : nearestRank (units rank) unitsPerOne = rank := by
  have hpos : 0 < 2 ^ scale rank := Nat.two_pow_pos _
  have hround : roundQuotient .even (units rank * unitsPerOne) (unitsPerOne <<< scale rank) = significand rank := by
    rw [Nat.shiftLeft_eq, Nat.mul_comm unitsPerOne, roundQuotient_mul_right _ unitsPerOne_pos, units_eq,
      roundQuotient_mul_self _ hpos]
  unfold nearestRank
  simp only [Nat.mul_div_cancel _ unitsPerOne_pos, log2_units, hround, scale_mul_binade_add_significand]
  exact Nat.min_eq_right (Nat.le_of_lt h)

/-! ### Decimals -/

theorem toDigits_mul_ten {c : Nat} (hc : 0 < c) : Nat.toDigits 10 (c * 10) = Nat.toDigits 10 c ++ ['0'] := by
  have happend := Nat.toDigits_append_toDigits (b := 10) (by decide) hc (by decide : 0 < 10)
  rw [Nat.mul_comm, ← Nat.add_zero (10 * c), ← happend]
  rfl

/-- A zero moved from the exponent to the coefficient leaves the nearest number. -/
theorem nearest_mul_ten (c : Nat) (e : Int) : (⟨c * 10, e - 1⟩ : Decimal).nearest = (⟨c, e⟩ : Decimal).nearest := by
  cases Nat.eq_zero_or_pos c with
  | inl hzero => simp [hzero, nearest]
  | inr hpos =>
      have hmagnitude : (⟨c * 10, e - 1⟩ : Decimal).magnitude = (⟨c, e⟩ : Decimal).magnitude := by
        simp only [magnitude, toDigits_mul_ten hpos, List.length_append, List.length_singleton]
        omega
      have hrank : nearestRank (⟨c * 10, e - 1⟩ : Decimal).numerator (⟨c * 10, e - 1⟩ : Decimal).denominator =
          nearestRank (⟨c, e⟩ : Decimal).numerator (⟨c, e⟩ : Decimal).denominator := by
        simp only [numerator, denominator, Nat.pow_eq]
        cases Int.lt_or_le 0 e with
        | inl he =>
            have hup : e.toNat = (e - 1).toNat + 1 := by omega
            have hdown : (-(e - 1)).toNat = (-e).toNat := by omega
            rw [hup, hdown, Nat.pow_succ, Nat.mul_assoc, Nat.mul_comm 10]
        | inr he =>
            have hup : (e - 1).toNat = e.toNat := by omega
            have hdown : (-(e - 1)).toNat = (-e).toNat + 1 := by omega
            rw [hup, hdown, Nat.pow_succ, Nat.mul_right_comm]
            exact nearestRank_mul_right (by decide) _ _
      have hne : c * 10 ≠ 0 := by omega
      simp only [nearest, hmagnitude, hrank, hne, Nat.ne_of_gt hpos]

theorem nearest_mul_pow (c k : Nat) (e : Int) :
    (⟨c * 10 ^ k, e - k⟩ : Decimal).nearest = (⟨c, e⟩ : Decimal).nearest := by
  induction k with
  | zero => simp
  | succ k ih =>
      rw [← ih, ← nearest_mul_ten (c * 10 ^ k), Nat.pow_succ, Nat.mul_assoc, Int.natCast_succ, Int.sub_sub]

theorem nearest_strip (d : Decimal) : d.strip.nearest = d.nearest := by
  induction d using strip.induct with
  | case1 d h ih =>
      obtain ⟨c, e⟩ := d
      have hc : c / 10 * 10 = c := Nat.div_mul_cancel (Nat.dvd_of_mod_eq_zero h.2)
      rw [strip, if_pos h, ih, ← nearest_mul_ten, hc, Int.add_sub_cancel]
  | case2 d h => rw [strip, if_neg h]

/-! ### The shortest decimal -/

/-- The number of a rank as a decimal written in full, if `2 ^ k` units make one. -/
def inFull (k rank : Nat) : Decimal := ⟨units rank * Nat.pow 5 k, -k⟩

theorem coefficient_inFull (k rank : Nat) : (inFull k rank).coefficient = units rank * 5 ^ k := rfl

theorem pow_ten (k : Nat) : 10 ^ k = 1 <<< k * 5 ^ k := by
  rw [Nat.one_shiftLeft]
  exact Nat.mul_pow 2 5 k

theorem units_pos {rank : Nat} (h : 0 < rank) : 0 < units rank := by
  have hsignificand : 0 < significand rank := by
    rw [significand]
    split
    · exact h
    · exact Nat.add_pos_left (by decide) _
  rw [units_eq]
  exact Nat.mul_pos hsignificand (Nat.two_pow_pos _)

theorem numerator_inFull (k rank : Nat) : (inFull k rank).numerator = units rank * 5 ^ k := by
  have hk : (-(k : Int)).toNat = 0 := by omega
  rw [inFull, numerator, hk]
  exact Nat.mul_one _

theorem denominator_inFull (k rank : Nat) : (inFull k rank).denominator = 1 <<< k * 5 ^ k := by
  have hk : (- -(k : Int)).toNat = k := by omega
  rw [inFull, denominator, hk, Nat.pow_eq, pow_ten]

/-- A number in full is nearest to itself, if it is in the range in which numbers are rounded. -/
theorem nearest_inFull {k rank : Nat} (hk : unitsPerOne = 1 <<< k) (hpos : 0 < rank) (h : rank < infinityRank)
    (hlow : -330 ≤ (inFull k rank).magnitude) (hhigh : (inFull k rank).magnitude ≤ 310) :
    (inFull k rank).nearest = rank := by
  have hfive : 0 < 5 ^ k := Nat.pow_pos (by decide)
  have hne : (inFull k rank).coefficient ≠ 0 := Nat.ne_of_gt (Nat.mul_pos (units_pos hpos) hfive)
  rw [nearest, if_neg (by omega), if_neg (by omega), numerator_inFull, denominator_inFull, ← hk,
    nearestRank_mul_right hfive, nearestRank_units h]

theorem scale_le {rank : Nat} (h : rank < infinityRank) : scale rank ≤ 2045 := by
  have hbinade : rank / binade < 2047 := Nat.div_lt_of_lt_mul (Nat.mul_comm .. ▸ h)
  rw [scale]
  omega

theorem units_lt {rank k : Nat} (h : scale rank ≤ k) : units rank < 2 ^ (53 + k) := by
  have hsignificand : significand rank < 2 ^ 53 := by
    by_cases h : rank < binade
    · rw [significand, if_pos h]
      exact Nat.lt_trans h (by decide)
    · exact (significand_bounds (Nat.not_lt.mp h)).2
  calc units rank = significand rank * 2 ^ scale rank := units_eq rank
    _ < 2 ^ 53 * 2 ^ scale rank := Nat.mul_lt_mul_of_pos_right hsignificand (Nat.two_pow_pos _)
    _ ≤ 2 ^ 53 * 2 ^ k := Nat.mul_le_mul_left _ (Nat.pow_le_pow_right (by decide) h)
    _ = 2 ^ (53 + k) := (Nat.pow_add 2 53 k).symm

theorem lt_length_inFull {k n rank : Nat} (hpos : 0 < rank) (hn : 0 < n) (hpow : 10 ^ n ≤ 5 ^ k) :
    n < (Nat.toDigits 10 (inFull k rank).coefficient).length := by
  apply Nat.lt_of_not_le
  rw [Nat.length_toDigits_le_iff (by decide) hn, Nat.not_lt, coefficient_inFull]
  exact Nat.le_trans hpow (Nat.le_mul_of_pos_left _ (units_pos hpos))

theorem length_inFull_le {k m n rank : Nat} (hscale : scale rank ≤ m) (hn : 0 < n)
    (hpow : 2 ^ (53 + m) * 5 ^ k ≤ 10 ^ n) :
    (Nat.toDigits 10 (inFull k rank).coefficient).length ≤ n := by
  rw [Nat.length_toDigits_le_iff (by decide) hn, coefficient_inFull]
  have hfive : 0 < 5 ^ k := Nat.pow_pos (by decide)
  exact Nat.lt_of_lt_of_le (Nat.mul_lt_mul_of_pos_right (units_lt hscale) hfive) hpow

/-- The numbers in full have between 744 and 1384 digits. -/
theorem magnitude_inFull {rank : Nat} (hpos : 0 < rank) (h : rank < infinityRank) :
    -330 ≤ (inFull 1074 rank).magnitude ∧ (inFull 1074 rank).magnitude ≤ 310 := by
  have hfew : 743 < (Nat.toDigits 10 (inFull 1074 rank).coefficient).length :=
    lt_length_inFull hpos (by decide) (by decide +kernel)
  have hmany : (Nat.toDigits 10 (inFull 1074 rank).coefficient).length ≤ 1384 :=
    length_inFull_le (scale_le h) (by decide) (by decide +kernel)
  have hmagnitude : (inFull 1074 rank).magnitude = (Nat.toDigits 10 (inFull 1074 rank).coefficient).length - 1074 := rfl
  omega

/-- The shortest decimal of a rank reads back as the rank. -/
theorem nearest_shortest (tie : Tie) {rank : Nat} (hpos : 0 < rank) (h : rank < infinityRank) :
    (shortest tie rank).nearest = rank := by
  unfold shortest
  dsimp only
  split
  · rename_i d hd
    obtain ⟨grid, -, hgrid⟩ := List.exists_of_findSome?_eq_some hd
    obtain ⟨-, hreads⟩ := Option.filter_eq_some_iff.mp hgrid
    rw [nearest_strip, beq_iff_eq.mp hreads]
  · obtain ⟨hlow, hhigh⟩ := magnitude_inFull hpos h
    have hfull : (inFull 1074 rank).nearest = rank := nearest_inFull rfl hpos h hlow hhigh
    exact (nearest_strip _).trans hfull

end Scorecard.Decimal
