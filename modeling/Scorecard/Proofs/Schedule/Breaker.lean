import Scorecard.Proofs.Schedule.Operation

/-!
The breaker of a schedule. A recording switches the schedule off exactly if it says so, and nothing but
enabling switches it on, so each time that the breaker trips somebody has enabled the schedule since the
time before. Where the breaker is in use, a schedule that is enabled is below its limit of failures in a
row.
-/
namespace Scorecard.Schedule

/-! ### Switching off and on -/

/-- Counting a failure leaves the policy and the switch alone. -/
theorem trips_countFailure {s : Schedule} {run : Option Uuid} {now : Timestamp}
    (h : (s.countFailure run now).trips = true) : s.autoDisable = true ∧ s.enabled = true := by
  rw [trips, Bool.and_eq_true, Bool.and_eq_true] at h
  exact h.1

theorem enabled_recordFailure (s : Schedule) (run : Option Uuid) (now : Timestamp) :
    (s.recordFailure run now).schedule.enabled = (s.enabled && !(s.recordFailure run now).tripped) := by
  cases htrips : (s.countFailure run now).trips with
  | true =>
      obtain ⟨hschedule, htripped⟩ := recordFailure_of_trips htrips
      rw [hschedule, htripped, Bool.not_true, Bool.and_false]
      rfl
  | false =>
      obtain ⟨hschedule, htripped⟩ := recordFailure_of_not_trips htrips
      rw [hschedule, htripped, Bool.not_false, Bool.and_true]
      rfl

theorem of_recordFailure_tripped {s : Schedule} {run : Option Uuid} {now : Timestamp}
    (h : (s.recordFailure run now).tripped = true) : s.autoDisable = true ∧ s.enabled = true := by
  cases htrips : (s.countFailure run now).trips with
  | true => exact trips_countFailure htrips
  | false =>
      rw [(recordFailure_of_not_trips htrips).2] at h
      cases h

/-- A recording leaves the switch alone unless it says that it has switched off. -/
theorem enabled_after_of_isRecording {op : Operation} (h : op.isRecording = true) (s : Schedule) :
    (s.after op).enabled = (s.enabled && !op.tripped s) := by
  cases op with
  | enable | disable | setNextRun => cases h
  | recordSuccess run now => exact (Bool.and_true s.enabled).symm
  | recordFailure run now => exact enabled_recordFailure s run now
  | recordOutcome run now =>
      rw [after, Operation.tripped]
      rcases recordOutcome_cases s run now with hcase | hcase | hcase
      · rw [hcase]
        exact (Bool.and_true s.enabled).symm
      · rw [hcase]
        exact enabled_recordFailure s (some run.id) now
      · rw [hcase]
        exact (Bool.and_true s.enabled).symm

/-- Only a schedule that is enabled, with the breaker in use, is switched off by a recording. -/
theorem of_tripped {s : Schedule} {op : Operation} (h : op.tripped s = true) :
    op.isRecording = true ∧ s.autoDisable = true ∧ s.enabled = true := by
  cases op with
  | enable | disable | setNextRun | recordSuccess => cases h
  | recordFailure run now => exact ⟨rfl, of_recordFailure_tripped h⟩
  | recordOutcome run now =>
      rw [Operation.tripped] at h
      rcases recordOutcome_cases s run now with hcase | hcase | hcase
      · rw [hcase] at h
        cases h
      · rw [hcase] at h
        exact ⟨rfl, of_recordFailure_tripped h⟩
      · rw [hcase] at h
        cases h

theorem tripped_iff {op : Operation} (h : op.isRecording = true) (s : Schedule) :
    op.tripped s = true ↔ s.enabled = true ∧ (s.after op).enabled = false := by
  rw [enabled_after_of_isRecording h]
  constructor
  · intro htripped
    have henabled := (of_tripped htripped).2.2
    rw [htripped, henabled]
    exact ⟨rfl, rfl⟩
  · rintro ⟨henabled, hafter⟩
    rw [henabled, Bool.true_and, Bool.not_eq_false'] at hafter
    exact hafter

/-- Nothing but enabling switches a schedule on. -/
theorem eq_enable_of_enabled_after {s : Schedule} {op : Operation} (hbefore : s.enabled = false)
    (hafter : (s.after op).enabled = true) : op = .enable := by
  cases hrecording : op.isRecording with
  | true =>
      rw [enabled_after_of_isRecording hrecording, hbefore] at hafter
      cases hafter
  | false =>
      cases op with
      | enable => rfl
      | disable => cases hafter
      | setNextRun time => exact absurd (hbefore.symm.trans hafter) Bool.false_ne_true
      | recordSuccess | recordFailure | recordOutcome => cases hrecording

theorem enabled_afterAll_of_not_mem {s : Schedule} (h : s.enabled = false) {ops : List Operation}
    (hops : Operation.enable ∉ ops) : (s.afterAll ops).enabled = false := by
  induction ops generalizing s with
  | nil => exact h
  | cons op ops ih =>
      rw [List.mem_cons, not_or] at hops
      obtain ⟨hop, hops⟩ := hops
      refine ih ?_ hops
      rw [← Bool.not_eq_true]
      exact fun hafter => hop (eq_enable_of_enabled_after h hafter).symm

/-- Between two operations that switch the schedule off there is one that enables it. -/
theorem enable_mem_of_tripped {s : Schedule} {op op' : Operation} {between : List Operation}
    (h : op.tripped s = true) (h' : op'.tripped ((s.after op).afterAll between) = true) :
    Operation.enable ∈ between := by
  by_contra hnot
  have hoff := ((tripped_iff (of_tripped h).1 s).mp h).2
  have hon := (of_tripped h').2.2
  rw [enabled_afterAll_of_not_mem hoff hnot] at hon
  cases hon

/-! ### Below the limit -/

/-- The breaker is in use, and the schedule is below its limit or switched off. -/
structure Armed (s : Schedule) : Prop where
  autoDisable : s.autoDisable = true
  limit : 1 ≤ s.maxConsecutiveFailures
  below : s.enabled = true → s.consecutiveFailures < s.maxConsecutiveFailures

theorem zero_lt_of_one_le {n : UInt32} (h : 1 ≤ n) : 0 < n := UInt32.lt_of_lt_of_le (by decide) h

theorem Created.armed {s : Schedule} (h : Created s) (hautoDisable : s.autoDisable = true)
    (hlimit : 1 ≤ s.maxConsecutiveFailures) : s.Armed := by
  have hzero : s.consecutiveFailures = 0 := by
    clear hautoDisable hlimit
    induction h with
    | new => rfl
    | withCron _ _ ih => exact ih
    | withFailurePolicy _ _ _ ih => exact ih
  refine ⟨hautoDisable, hlimit, fun _ => ?_⟩
  rw [hzero]
  exact zero_lt_of_one_le hlimit

/-- A failure that does not trip the breaker has not reached the limit. -/
theorem Armed.recordFailure {s : Schedule} (h : s.Armed) (run : Option Uuid) (now : Timestamp) :
    (s.recordFailure run now).schedule.Armed := by
  cases htrips : (s.countFailure run now).trips with
  | true =>
      rw [(recordFailure_of_trips htrips).1]
      exact ⟨h.autoDisable, h.limit, fun henabled => nomatch henabled⟩
  | false =>
      rw [(recordFailure_of_not_trips htrips).1]
      refine ⟨h.autoDisable, h.limit, fun henabled => ?_⟩
      have hautoDisable : (s.countFailure run now).autoDisable = true := h.autoDisable
      rw [trips, hautoDisable, henabled, Bool.true_and, Bool.true_and, decide_eq_false_iff_not] at htrips
      exact UInt32.not_le.mp htrips

theorem Armed.after {s : Schedule} (h : s.Armed) (op : Operation) : (s.after op).Armed := by
  cases op with
  | enable => exact ⟨h.autoDisable, h.limit, fun _ => zero_lt_of_one_le h.limit⟩
  | disable => exact ⟨h.autoDisable, h.limit, fun henabled => nomatch henabled⟩
  | setNextRun time => exact ⟨h.autoDisable, h.limit, h.below⟩
  | recordSuccess run now => exact ⟨h.autoDisable, h.limit, fun _ => zero_lt_of_one_le h.limit⟩
  | recordFailure run now => exact h.recordFailure run now
  | recordOutcome run now =>
      rw [Schedule.after]
      rcases recordOutcome_cases s run now with hcase | hcase | hcase
      · rw [hcase]
        exact ⟨h.autoDisable, h.limit, fun _ => zero_lt_of_one_le h.limit⟩
      · rw [hcase]
        exact h.recordFailure (some run.id) now
      · rw [hcase]
        exact h

theorem Armed.afterAll {s : Schedule} (h : s.Armed) (ops : List Operation) : (s.afterAll ops).Armed := by
  induction ops generalizing s with
  | nil => exact h
  | cons op ops ih => exact ih (h.after op)

/-- What the breaker of a schedule promises. The limit holds after any history of a schedule that was made
with the breaker in use; the rest holds of every schedule. -/
structure Protected (s : Schedule) (ops : List Operation) : Prop where
  below_limit : Created s → s.autoDisable = true → 1 ≤ s.maxConsecutiveFailures → (s.afterAll ops).enabled = true →
    (s.afterAll ops).consecutiveFailures < (s.afterAll ops).maxConsecutiveFailures
  tripped_iff : ∀ op, op.isRecording = true →
    (op.tripped s = true ↔ s.enabled = true ∧ (s.after op).enabled = false)
  only_enable : ∀ op, s.enabled = false → (s.after op).enabled = true → op = .enable
  unused : s.autoDisable = false → ∀ op, op.isRecording = true → (s.after op).enabled = s.enabled
  enabled_between : ∀ before op between op' later, ops = before ++ op :: (between ++ op' :: later) →
    op.tripped (s.afterAll before) = true → op'.tripped (s.afterAll (before ++ op :: between)) = true →
      Operation.enable ∈ between

theorem protected_by_breaker (s : Schedule) (ops : List Operation) : s.Protected ops where
  below_limit hcreated hautoDisable hlimit := ((hcreated.armed hautoDisable hlimit).afterAll ops).below
  tripped_iff op hrecording := tripped_iff hrecording s
  only_enable op := eq_enable_of_enabled_after
  unused hunused op hrecording := by
    have hnot : op.tripped s = false := by
      rw [← Bool.not_eq_true]
      intro htripped
      rw [(of_tripped htripped).2.1] at hunused
      cases hunused
    rw [enabled_after_of_isRecording hrecording, hnot, Bool.not_false, Bool.and_true]
  enabled_between before op between op' later _ h h' := by
    rw [afterAll_append, afterAll_cons] at h'
    exact enable_mem_of_tripped h h'

/-- A schedule that is switched off after two failures in a row trips at the second, keeps still at the
third, and is below its limit when it is enabled and one more failure is recorded. -/
theorem protected_by_breaker_of_four_failures :
    let noon : Timestamp := ⟨1583064000, 0, by decide, by decide⟩
    let s := (Schedule.new ⟨1⟩ noon "nightly" "bench-1" "agent-1").withFailurePolicy 2 true
    let failure := Operation.recordFailure none noon
    let reached := s.afterAll [failure, failure, failure, .enable, failure]
    Created s ∧ failure.tripped (s.after failure) = true ∧ failure.tripped (s.afterAll [failure, failure]) = false ∧
      reached.enabled = true ∧ reached.failureCount = 4 ∧
        reached.consecutiveFailures < reached.maxConsecutiveFailures := by
  intro noon s failure reached
  have hcreated : Created s := (Created.new ⟨1⟩ noon "nightly" "bench-1" "agent-1").withFailurePolicy 2 true
  refine ⟨hcreated, by decide, by decide, by decide, by decide, ?_⟩
  exact (protected_by_breaker s _).below_limit hcreated rfl (by decide) (by decide)

end Scorecard.Schedule
