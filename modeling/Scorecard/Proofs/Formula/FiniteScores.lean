import Scorecard.Proofs.Decimal.Overflow
import Scorecard.Proofs.Formula.Policy

/-!
Which scores are finite. Values that are not finite are turned away, but finite ones can add up to more than
there are numbers. Once a sum has left the finite numbers it does not come back, and a mean is finite if its sum
is; so a score is finite exactly if no sum on the way to it leaves the finite numbers. Extremes and thresholds add
nothing up.
-/
namespace Scorecard.Formula

/-! ### Sums -/

/-- Adding the terms to `total` one by one never leaves the finite numbers. -/
def RunsFinite (total : Float) (terms : List Float) : Prop :=
  ∀ ts, ts <+: terms → (ts.foldl (· + ·) total).isFinite = true

theorem isFinite_of_isFinite_foldl {total : Float} {terms : List Float}
    (h : (terms.foldl (· + ·) total).isFinite = true) : total.isFinite = true := by
  induction terms generalizing total with
  | nil => exact h
  | cons t ts ih => exact (Decimal.isFinite_of_isFinite_add (ih h)).1

/-- A sum is finite exactly if it is so all along. -/
theorem isFinite_foldl_iff {total : Float} {terms : List Float} :
    (terms.foldl (· + ·) total).isFinite = true ↔ RunsFinite total terms := by
  constructor
  · rintro h ts ⟨rest, rfl⟩
    rw [List.foldl_append] at h
    exact isFinite_of_isFinite_foldl h
  · intro h
    exact h terms (List.prefix_refl terms)

/-! ### Scores -/

variable {values : Table Float}

/-- The terms of a weighted sum, where there are values. -/
def weightedTerms (values : Table Float) (weights : List (String × Float)) : List Float :=
  weights.filterMap fun (metric, weight) => (values.get? metric).map (· * weight)

/-- No sum on the way to the score leaves the finite numbers, and the count of a mean is not zero as a machine
word. -/
def StaysFinite (values : Table Float) : Formula → Prop
  | .average names =>
    (names.filterMap values.get?).length.toUInt64 ≠ 0 ∧ RunsFinite (-0.0) (names.filterMap values.get?)
  | .weightedSum weights => RunsFinite 0 (weightedTerms values weights.entries)
  | .least _ | .greatest _ | .threshold .. => True

theorem weightedTerms_eq_zipWith {weights : List (String × Float)} {xs : List Float}
    (h : (weights.map (·.1)).map values.get? = xs.map some) :
    weightedTerms values weights = List.zipWith (· * ·) xs (weights.map (·.2)) := by
  induction weights generalizing xs with
  | nil =>
      cases xs with
      | nil => rfl
      | cons x xs => cases h
  | cons entry weights ih =>
      cases xs with
      | nil => cases h
      | cons x xs =>
          obtain ⟨metric, weight⟩ := entry
          obtain ⟨hx, hxs⟩ := List.cons.inj h
          rw [weightedTerms, List.filterMap_cons]
          dsimp only at hx ⊢
          rw [hx]
          exact congrArg (x * weight :: ·) (ih hxs)

/-- A mean is finite exactly if its sum is so all along. -/
theorem isFinite_mean_iff {xs : List Float} :
    (xs.foldl (· + ·) (-0.0) / xs.length.toUInt64.toFloat).isFinite = true ↔
      xs.length.toUInt64 ≠ 0 ∧ RunsFinite (-0.0) xs := by
  by_cases hcount : xs.length.toUInt64 = 0
  · rw [hcount, Decimal.not_isFinite_div_zero]
    exact iff_of_false Bool.false_ne_true fun h => h.1 rfl
  · rw [Decimal.isFinite_div_toFloat_iff hcount, isFinite_foldl_iff, and_iff_right hcount]

theorem isFinite_evaluate_iff {f : Formula} {score : Float} (h : f.evaluate values = .ok score) :
    score.isFinite = true ↔ f.StaysFinite values := by
  have hvalues : values.isEmpty = false := by
    rw [← Bool.not_eq_true, ← evaluate_eq_noValues_iff f values, h]
    exact fun heq => nomatch heq
  have hpolicy := f.policy_evaluate hvalues
  rw [h] at hpolicy
  cases f with
  | average names =>
      cases hpolicy with
      | score _ _ hscore =>
          rw [hscore]
          exact isFinite_mean_iff
  | least names | greatest names =>
      cases hpolicy with
      | score hfinite _ hscore => exact iff_of_true (isFinite_of_mem_filterMap hfinite hscore.1) trivial
  | weightedSum weights =>
      rcases hpolicy with ⟨-, hpolicy⟩ | ⟨-, -, hpolicy⟩
      · cases hpolicy
      · cases hpolicy with
        | score hpresent _ hscore =>
            rw [hscore, isFinite_foldl_iff, ← weightedTerms_eq_zipWith hpresent]
            rfl
  | threshold metric bound comparison =>
      cases hpolicy with
      | @score xs _ hpresent _ hscore =>
          obtain ⟨x, hx⟩ : ∃ x, x ∈ xs := by
            cases xs with
            | nil => cases hpresent
            | cons x xs => exact ⟨x, List.mem_cons_self⟩
          refine iff_of_true ?_ trivial
          rw [hscore x hx]
          split
          · decide +kernel
          · decide +kernel

end Scorecard.Formula
