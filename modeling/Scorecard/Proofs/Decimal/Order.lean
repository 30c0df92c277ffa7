import Mathlib
import Scorecard.Proofs.Decimal.Bits

/-!
The order of doubles. Everything that is a number has a place on a line, where the two zeros share one and
the infinities stand at the ends, and numbers compare as their places do. So numbers are ordered linearly,
up to the sign of zeros, and a finite number lies strictly between the infinities.
-/
namespace Scorecard.Decimal

open Float.Model Float.Model.UnpackedFloat

/-! ### Comparing pairs and integers -/

theorem compare_toLex {α β : Type} [LinearOrder α] [LinearOrder β] (a a' : α) (b b' : β) :
    compare (toLex (a, b)) (toLex (a', b')) = (compare a a').then (compare b b') := by
  rw [Prod.Lex.compare_def]
  rfl

theorem compare_neg_neg (m n : Int) : compare (-m) (-n) = (compare m n).swap := by
  rcases lt_trichotomy m n with h | rfl | h
  · rw [compare_gt_iff_gt.mpr (neg_lt_neg h), compare_lt_iff_lt.mpr h]
    rfl
  · rw [compare_eq_iff_eq.mpr rfl, compare_eq_iff_eq.mpr rfl]
    rfl
  · rw [compare_lt_iff_lt.mpr (neg_lt_neg h), compare_gt_iff_gt.mpr h]
    rfl

theorem compare_natCast (m n : Nat) : compare (m : Int) (n : Int) = compare m n := by
  rcases lt_trichotomy m n with h | rfl | h
  · rw [compare_lt_iff_lt.mpr (Int.ofNat_lt.mpr h), compare_lt_iff_lt.mpr h]
  · rw [compare_eq_iff_eq.mpr rfl, compare_eq_iff_eq.mpr rfl]
  · rw [compare_gt_iff_gt.mpr (Int.ofNat_lt.mpr h), compare_gt_iff_gt.mpr h]

/-! ### Places -/

/-- Where a number stands, by its sign and whether it is finite, then by its exponent and its mantissa. What
is no number has a place that nothing is compared with. -/
def unpackedPlace : UnpackedFloat → Int ×ₗ Int ×ₗ Int
  | .infinity .negative => toLex (-2, toLex (0, 0))
  | .finite .negative mantissa exponent _ => toLex (-1, toLex (-exponent, -mantissa))
  | .zero _ => toLex (0, toLex (0, 0))
  | .finite .positive mantissa exponent _ => toLex (1, toLex (exponent, mantissa))
  | .infinity .positive => toLex (2, toLex (0, 0))
  | .notANumber => toLex (3, toLex (0, 0))

theorem compare_unpacked {a b : UnpackedFloat} (ha : a ≠ .notANumber) (hb : b ≠ .notANumber) :
    a.compare b = some (compare (unpackedPlace a) (unpackedPlace b)) := by
  -- two finite numbers of one sign are compared by exponent and mantissa, any others by what kind they are
  rcases a with (_ | _) | _ | _ | ⟨_ | _, m, e, hm⟩ <;> rcases b with (_ | _) | _ | _ | ⟨_ | _, m', e', hm'⟩
  all_goals
    simp only [UnpackedFloat.compare, unpackedPlace, compare_toLex, compare_neg_neg, compare_natCast, Ordering.swap_then]
  all_goals first | rfl | contradiction

def place (x : Float) : Int ×ₗ Int ×ₗ Int := unpackedPlace x.toModel.unpack

theorem unpack_ne_notANumber {x : Float} (h : x.isNaN = false) : x.toModel.unpack ≠ .notANumber := by
  intro heq
  have hnan : x.isNaN = x.toModel.unpack.isNaN := rfl
  rw [hnan, heq] at h
  cases h

variable {x y : Float}

theorem lt_iff_place_lt (hx : x.isNaN = false) (hy : y.isNaN = false) : x < y ↔ place x < place y := by
  have hcompare := compare_unpacked (unpack_ne_notANumber hx) (unpack_ne_notANumber hy)
  show Float.lt x y = true ↔ _
  rw [Float.lt, decide_eq_true_iff]
  show UnpackedFloat.lt _ _ = true ↔ _
  rw [UnpackedFloat.lt, hcompare, beq_iff_eq, Option.some_inj, compare_lt_iff_lt]
  rfl

theorem le_iff_place_le (hx : x.isNaN = false) (hy : y.isNaN = false) : x ≤ y ↔ place x ≤ place y := by
  have hcompare := compare_unpacked (unpack_ne_notANumber hx) (unpack_ne_notANumber hy)
  show Float.le x y = true ↔ _
  rw [Float.le, decide_eq_true_iff]
  show UnpackedFloat.le _ _ = true ↔ _
  rw [UnpackedFloat.le, hcompare, Option.any_some, Ordering.isLE_iff_ne_gt, compare_gt_iff_gt, not_lt]
  rfl

/-! ### Infinities -/

theorem place_infinity : place (ofRank false infinityRank) = toLex (2, toLex (0, 0)) := rfl

theorem place_neg_infinity : place (-ofRank false infinityRank) = toLex (-2, toLex (0, 0)) := rfl

theorem unpackedPlace_of_isFinite {a : UnpackedFloat} (h : a.isFinite = true) :
    toLex (-2, toLex (0, 0)) < unpackedPlace a ∧ unpackedPlace a < toLex (2, toLex (0, 0)) := by
  rcases a with _ | _ | _ | ⟨_ | _, m, e, hm⟩
  case infinity | notANumber => cases h
  all_goals
    constructor
    all_goals exact Prod.Lex.left _ _ (by decide)

theorem place_lt_place_infinity (h : x.isFinite = true) : place x < place (ofRank false infinityRank) :=
  place_infinity ▸ (unpackedPlace_of_isFinite h).2

theorem place_neg_infinity_lt_place (h : x.isFinite = true) : place (-ofRank false infinityRank) < place x :=
  place_neg_infinity ▸ (unpackedPlace_of_isFinite h).1

end Scorecard.Decimal
