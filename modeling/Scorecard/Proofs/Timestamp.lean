import Mathlib
import Scorecard.Timestamp

/-!
Differences of times. Away from leap seconds the difference of two times is that of their positions on a
clock that counts every second. A leap second within a day has its own place in the order of times, and
differences respect it, but the leap second at the end of a day is measured as if it were the first second
of the next day. So a time that precedes another has a negative difference to it, unless the two meet at
such a midnight.
-/
namespace Scorecard.Timestamp

/-- The position on a clock without leap seconds, in nanoseconds. -/
def clock (t : Timestamp) : Int := t.seconds * 1000000000 + t.nanos

def InLeapSecond (t : Timestamp) : Prop := 1000000000 ≤ t.nanos

/-- The one time is in the first second of a day, the other in a leap second right before. -/
def MeetsAtMidnight (first last : Timestamp) : Prop :=
  first.seconds % 86400 = 0 ∧ first.seconds = last.seconds + 1 ∧ last.InLeapSecond

theorem nanosBetween_of_not_inLeapSecond {start finish : Timestamp} (hstart : ¬start.InLeapSecond)
    (hfinish : ¬finish.InLeapSecond) : nanosBetween start finish = finish.clock - start.clock := by
  unfold InLeapSecond at hstart hfinish
  unfold nanosBetween clock
  simp only [hstart, hfinish, and_false, if_false]
  omega

/-- The difference to an earlier time is negative. -/
theorem nanosBetween_neg {start finish : Timestamp} (h : finish < start) (hmidnight : ¬MeetsAtMidnight start finish) :
    nanosBetween start finish < 0 := by
  have hstart := start.nanos_lt
  have hfinish := finish.nanos_lt
  have h : finish.seconds < start.seconds ∨ (finish.seconds = start.seconds ∧ finish.nanos < start.nanos) := h
  unfold MeetsAtMidnight InLeapSecond at hmidnight
  unfold nanosBetween
  dsimp only
  split
  · omega
  · split
    · omega
    · omega

theorem millisBetween_of_neg {start finish : Timestamp} (h : nanosBetween start finish < 0) :
    millisBetween start finish = 0 := by
  rw [millisBetween, Int.toNat_of_nonpos h.le]

/-- Milliseconds are whole: what is left over is less than one more. -/
theorem millisBetween_of_nonneg {start finish : Timestamp} (h : 0 ≤ nanosBetween start finish) :
    millisBetween start finish * 1000000 ≤ nanosBetween start finish ∧
      nanosBetween start finish < (millisBetween start finish + 1) * 1000000 := by
  unfold millisBetween
  omega

/-- No two times are further apart than a word of milliseconds. -/
theorem millisBetween_lt (start finish : Timestamp) : millisBetween start finish < 2 ^ 64 := by
  have hstart := start.in_range
  have hfinish := finish.in_range
  have hnanos := finish.nanos_lt
  unfold firstSecond lastSecond at hstart hfinish
  unfold millisBetween nanosBetween
  dsimp only
  split
  · omega
  · split
    · omega
    · omega

end Scorecard.Timestamp
