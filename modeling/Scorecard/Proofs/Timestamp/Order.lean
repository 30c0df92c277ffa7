import Mathlib
import Scorecard.Timestamp

/-!
The order of times. Times are ordered by their seconds and within a second by their nanoseconds, so any two
of them compare; and no time comes after what lies some minutes behind it.
-/
namespace Scorecard.Timestamp

theorem lt_iff {s t : Timestamp} : s < t ↔ s.seconds < t.seconds ∨ (s.seconds = t.seconds ∧ s.nanos < t.nanos) :=
  Iff.rfl

theorem le_iff {s t : Timestamp} : s ≤ t ↔ s.seconds < t.seconds ∨ (s.seconds = t.seconds ∧ s.nanos ≤ t.nanos) :=
  Iff.rfl

theorem le_refl (t : Timestamp) : t ≤ t := by
  rw [le_iff]
  omega

theorem le_trans {s t u : Timestamp} (h : s ≤ t) (h' : t ≤ u) : s ≤ u := by
  rw [le_iff] at *
  omega

theorem le_of_not_lt {s t : Timestamp} (h : ¬s < t) : t ≤ s := by
  rw [lt_iff] at h
  rw [le_iff]
  omega

theorem le_of_lt {s t : Timestamp} (h : s < t) : s ≤ t := by
  rw [lt_iff] at h
  rw [le_iff]
  omega

theorem lt_irrefl (t : Timestamp) : ¬t < t := by
  rw [lt_iff]
  omega

/-- Minutes are added on top: a leap second gives way to the second before, but that is a minute on. -/
theorem lt_of_addMinutes? {t u : Timestamp} {minutes : Nat} (hminutes : minutes ≠ 0)
    (h : t.addMinutes? minutes = some u) : t < u := by
  rw [addMinutes?, if_neg hminutes, ofParts?] at h
  split at h
  · split at h
    · rw [Option.some.injEq] at h
      rw [lt_iff, ← h]
      dsimp only
      omega
    · cases h
  · cases h

theorem le_of_addMinutes? {t u : Timestamp} {minutes : Nat} (h : t.addMinutes? minutes = some u) : t ≤ u := by
  by_cases hzero : minutes = 0
  · rw [addMinutes?, if_pos hzero, Option.some.injEq] at h
    rw [h]
    exact le_refl u
  · exact le_of_lt (lt_of_addMinutes? hzero h)

end Scorecard.Timestamp
