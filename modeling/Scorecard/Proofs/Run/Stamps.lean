import Scorecard.Proofs.Run.Operation
import Scorecard.Proofs.Timestamp

/-!
The stamps of a run. Whatever is done to a run after it is made, in whichever order and by whichever
clock, its status tells which of its stamps and messages are set, and the two counts are set together. Its
duration is in whole milliseconds, zero while a time is missing and zero for clocks that went backwards,
except across a midnight that a leap second precedes.
-/
namespace Scorecard.Run

/-- A run before anything has happened to it. -/
inductive Created : Run → Prop
  | new (id : Uuid) (benchmarkId agentId : String) (trigger : Trigger) : Created (.new id benchmarkId agentId trigger)
  | withUser {r : Run} (h : Created r) (user : String) : Created (r.withUser user)
  | withSchedule {r : Run} (h : Created r) (schedule : Uuid) : Created (r.withSchedule schedule)
  | withRetries {r : Run} (h : Created r) (retries : UInt32) : Created (r.withRetries retries)

/-! ### What is set in which status -/

/-- The stamps and messages that go with a status. -/
def StampedAs (r : Run) : Status → Prop
  | .pending => r.startedAt = none ∧ r.completedAt = none ∧ r.error = none
  | .running => r.startedAt.isSome ∧ r.completedAt = none ∧ r.error = none
  | .completed => r.startedAt.isSome ∧ r.completedAt.isSome ∧ r.traces.isSome ∧ r.metrics.isSome ∧ r.error = none
  | .failed => r.completedAt.isSome ∧ r.error.isSome
  | .cancelled => r.completedAt.isSome ∧ r.error = none

/-- The run has what its status says, and both counts or none. -/
structure Stamped (r : Run) : Prop where
  status : r.StampedAs r.status
  counts : r.traces.isSome = r.metrics.isSome

theorem Created.stamped {r : Run} (h : Created r) : r.Stamped ∧ r.status = .pending := by
  induction h with
  | new id benchmarkId agentId trigger => exact ⟨⟨⟨rfl, rfl, rfl⟩, rfl⟩, rfl⟩
  | withUser _ user ih => exact ⟨⟨ih.1.status, ih.1.counts⟩, ih.2⟩
  | withSchedule _ schedule ih => exact ⟨⟨ih.1.status, ih.1.counts⟩, ih.2⟩
  | withRetries _ retries ih => exact ⟨⟨ih.1.status, ih.1.counts⟩, ih.2⟩

/-- Before its end a run has no message. -/
theorem Stamped.error_eq_none {r : Run} (h : r.Stamped) (hstatus : r.status ∈ [Status.pending, Status.running]) :
    r.error = none := by
  have hstamped := h.status
  rcases List.mem_cons.mp hstatus with hpending | hrunning
  · rw [hpending] at hstamped
    exact hstamped.2.2
  · rw [List.mem_singleton.mp hrunning] at hstamped
    exact hstamped.2.2

theorem Stamped.effect {r : Run} {q : Request} (h : r.Stamped) (hgranted : r.status ∈ q.grantedIn) :
    (q.effect r).Stamped := by
  cases q with
  | start now =>
      have hstamped := h.status
      rw [List.mem_singleton.mp hgranted] at hstamped
      exact ⟨⟨rfl, hstamped.2⟩, h.counts⟩
  | complete traces metrics now =>
      have hstamped := h.status
      rw [List.mem_singleton.mp hgranted] at hstamped
      exact ⟨⟨hstamped.1, rfl, rfl, rfl, hstamped.2.2⟩, rfl⟩
  | fail error now => exact ⟨⟨rfl, rfl⟩, h.counts⟩
  | cancel now => exact ⟨⟨rfl, h.error_eq_none hgranted⟩, h.counts⟩
  | updateProgress traces metrics =>
      -- the counts play no part in a status that grants progress
      have hprogress : (r.withProgress traces metrics).StampedAs r.status := by
        have hstamped := h.status
        have hstatus : r.status = .pending ∨ r.status = .running := by simpa [Request.grantedIn] using hgranted
        rcases hstatus with hstatus | hstatus
        all_goals
          rw [hstatus] at hstamped ⊢
          exact hstamped
      exact ⟨hprogress, rfl⟩

theorem Stamped.after {r : Run} (h : r.Stamped) (op : Operation) : (r.after op).Stamped := by
  cases op with
  | request q =>
      by_cases hgranted : r.status ∈ q.grantedIn
      · rw [after_request_of_granted hgranted]
        exact h.effect hgranted
      · rw [after_request_of_refused hgranted]
        exact h
  | incrementRetry => exact ⟨h.status, h.counts⟩

theorem Stamped.afterAll {r : Run} (h : r.Stamped) (ops : List Operation) : (r.afterAll ops).Stamped := by
  induction ops generalizing r with
  | nil => exact h
  | cons op ops ih => exact ih (h.after op)

/-! ### How long it took -/

/-- The duration is zero while a time is missing. Otherwise it is the whole milliseconds of the difference
of the times, or zero if that is negative, as it is for a completion that precedes the start and does not
meet it at a midnight. -/
structure Timed (r : Run) : Prop where
  unset : r.startedAt = none ∨ r.completedAt = none → r.durationMillis = 0
  whole : ∀ start finish, r.startedAt = some start → r.completedAt = some finish →
    0 ≤ Timestamp.nanosBetween start finish →
      r.durationMillis * 1000000 ≤ Timestamp.nanosBetween start finish ∧
        Timestamp.nanosBetween start finish < (r.durationMillis + 1) * 1000000
  negative : ∀ start finish, r.startedAt = some start → r.completedAt = some finish →
    Timestamp.nanosBetween start finish < 0 → r.durationMillis = 0
  backwards : ∀ start finish, r.startedAt = some start → r.completedAt = some finish → finish < start →
    ¬Timestamp.MeetsAtMidnight start finish → r.durationMillis = 0
  ordinary : ∀ start finish, r.startedAt = some start → r.completedAt = some finish →
    ¬start.InLeapSecond → ¬finish.InLeapSecond → r.durationMillis = (finish.clock - start.clock).toNat / 1000000

theorem durationMillis_of_some {r : Run} {start finish : Timestamp} (hstart : r.startedAt = some start)
    (hfinish : r.completedAt = some finish) : r.durationMillis = Timestamp.millisBetween start finish := by
  rw [durationMillis, hstart, hfinish]

theorem timed (r : Run) : r.Timed where
  unset h := by
    unfold durationMillis
    rcases h with h | h
    · rw [h]
    · rw [h]
      cases r.startedAt <;> rfl
  whole start finish hstart hfinish hnonneg := by
    rw [durationMillis_of_some hstart hfinish]
    exact Timestamp.millisBetween_of_nonneg hnonneg
  negative start finish hstart hfinish hneg := by
    rw [durationMillis_of_some hstart hfinish]
    exact Timestamp.millisBetween_of_neg hneg
  backwards start finish hstart hfinish hlt hmidnight := by
    rw [durationMillis_of_some hstart hfinish]
    exact Timestamp.millisBetween_of_neg (Timestamp.nanosBetween_neg hlt hmidnight)
  ordinary start finish hstart hfinish hstart' hfinish' := by
    rw [durationMillis_of_some hstart hfinish, Timestamp.millisBetween,
      Timestamp.nanosBetween_of_not_inLeapSecond hstart' hfinish']

/-- Whatever happens to a run that was made as runs are made, it has the stamps that its status says, and
its duration is that of its times. -/
theorem afterAll_stamped {r : Run} (h : Created r) (ops : List Operation) :
    (r.afterAll ops).Stamped ∧ (r.afterAll ops).Timed :=
  ⟨h.stamped.1.afterAll ops, timed _⟩

/-- Midnight at the start of 2017. -/
def midnight : Timestamp := .ofSecond 1483228800 (by decide)

/-- Nine tenths into the leap second before that midnight. -/
def leapSecond : Timestamp := ⟨1483228799, 1900000000, by decide, by decide⟩

/-- A run that was made for a schedule, refused a second start, and completed by a clock that had been set
back by one second. -/
theorem afterAll_stamped_of_clock_set_back :
    let second : Timestamp := ⟨1483228801, 0, by decide, by decide⟩
    let created := ((Run.new ⟨1⟩ "bench-1" "agent-1" .scheduled).withUser "scheduler").withSchedule ⟨2⟩
    let completed := created.afterAll [.request (.start second), .incrementRetry, .request (.start midnight),
      .request (.complete 2 3 midnight), .request (.fail "late" second)]
    Created created ∧ completed.status = .completed ∧ completed.startedAt = some second ∧
      completed.durationMillis = 0 ∧ completed.Stamped ∧ completed.Timed := by
  intro second created completed
  have hcreated : Created created := ((Created.new ⟨1⟩ "bench-1" "agent-1" .scheduled).withUser "scheduler").withSchedule ⟨2⟩
  exact ⟨hcreated, by decide, by decide, by decide, afterAll_stamped hcreated _⟩

/-- A completion that precedes the start may still have a duration, when a leap second ends the day. -/
theorem not_durationMillis_eq_zero_of_lt :
    ¬∀ (r : Run) (ops : List Operation) (start finish : Timestamp), Created r →
        (r.afterAll ops).startedAt = some start → (r.afterAll ops).completedAt = some finish → finish < start →
          (r.afterAll ops).durationMillis = 0 := by
  intro h
  have hzero := h (.new ⟨1⟩ "bench-1" "agent-1" .manual)
    [.request (.start midnight), .request (.complete 1 1 leapSecond)] midnight leapSecond (.new _ _ _ _) rfl rfl
    (by decide)
  exact absurd hzero (by decide)

end Scorecard.Run
