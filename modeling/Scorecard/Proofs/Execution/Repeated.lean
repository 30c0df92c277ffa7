import Scorecard.Proofs.Execution.Scheduled
import Scorecard.Proofs.Schedule.Breaker

/-!
Schedules executed again and again. The room of a schedule is the number of failures that it can still take
before the breaker switches it off. Each run that fails takes some of it and only a success or enabling
gives it back, so there is a limit to the runs that fail in a row, and the run that reaches the limit is the
last one.
-/
namespace Scorecard

namespace Schedule

/-! ### The room for failures -/

/-- How many failures in a row the schedule can take before it is switched off. -/
def room (s : Schedule) : Nat :=
  if s.enabled then s.maxConsecutiveFailures.toNat - s.consecutiveFailures.toNat else 0

theorem room_of_not_enabled {s : Schedule} (h : s.enabled = false) : s.room = 0 := by
  rw [room, h]
  rfl

theorem room_of_enabled {s : Schedule} (h : s.enabled = true) :
    s.room = s.maxConsecutiveFailures.toNat - s.consecutiveFailures.toNat := if_pos h

theorem room_le (s : Schedule) : s.room ≤ s.maxConsecutiveFailures.toNat := by
  unfold room
  split
  · omega
  · omega

/-- Where the breaker is in use, an enabled schedule has room. -/
theorem Armed.enabled_iff {s : Schedule} (h : s.Armed) : s.enabled = true ↔ 0 < s.room := by
  constructor
  · intro henabled
    have hbelow := UInt32.lt_iff_toNat_lt.mp (h.below henabled)
    rw [room_of_enabled henabled]
    omega
  · intro hroom
    by_contra hnot
    rw [room_of_not_enabled (Bool.eq_false_of_not_eq_true hnot)] at hroom
    exact Nat.lt_irrefl 0 hroom

/-- A failure takes room from an enabled schedule. -/
theorem Armed.room_recordFailure_lt {s : Schedule} (h : s.Armed) (henabled : s.enabled = true) (run : Option Uuid)
    (now : Timestamp) : (s.recordFailure run now).schedule.room < s.room := by
  have hroom : 0 < s.room := h.enabled_iff.mp henabled
  have hafter := (h.recordFailure run now).below
  cases htrips : (s.countFailure run now).trips with
  | true =>
      rw [(recordFailure_of_trips htrips).1, room_of_not_enabled rfl]
      exact hroom
  | false =>
      rw [(recordFailure_of_not_trips htrips).1] at hafter ⊢
      have hbelow : Count.next32 s.consecutiveFailures < s.maxConsecutiveFailures := hafter henabled
      rw [UInt32.lt_iff_toNat_lt, Count.toNat_next32] at hbelow
      have hcounted : (s.countFailure run now).room =
          s.maxConsecutiveFailures.toNat - (Count.next32 s.consecutiveFailures).toNat := room_of_enabled henabled
      have hlimit := s.maxConsecutiveFailures.toNat_lt
      rw [hcounted, room_of_enabled henabled, Count.toNat_next32]
      rw [room_of_enabled henabled] at hroom
      omega

theorem Armed.room_recordFailure_le {s : Schedule} (h : s.Armed) (run : Option Uuid) (now : Timestamp) :
    (s.recordFailure run now).schedule.room ≤ s.room := by
  cases henabled : s.enabled with
  | true => exact (h.room_recordFailure_lt henabled run now).le
  | false =>
      have hafter : (s.recordFailure run now).schedule.enabled = false := by
        rw [enabled_recordFailure, henabled, Bool.false_and]
      rw [room_of_not_enabled hafter]
      exact Nat.zero_le _

/-- What ends no row of failures gives no room back. -/
theorem Armed.room_after_le {s : Schedule} (h : s.Armed) {op : Operation} (hop : op.endsRow = false) :
    (s.after op).room ≤ s.room := by
  cases op with
  | enable | recordSuccess => cases hop
  | disable =>
      rw [Schedule.after, room_of_not_enabled rfl]
      exact Nat.zero_le _
  | setNextRun time => exact le_refl s.room
  | recordFailure run now => exact h.room_recordFailure_le run now
  | recordOutcome run now =>
      rw [Schedule.after, recordOutcome]
      cases hstatus : run.status with
      | completed =>
          have hrecorded : (Operation.recordOutcome run now).recorded? = some ⟨some run.id, .completed, now⟩ := by
            rw [Operation.recorded?, hstatus]
          rw [Operation.endsRow_of_recorded hrecorded] at hop
          cases hop
      | failed => exact h.room_recordFailure_le (some run.id) now
      | pending | running | cancelled => exact le_refl s.room

theorem maxConsecutiveFailures_recordFailure (s : Schedule) (run : Option Uuid) (now : Timestamp) :
    (s.recordFailure run now).schedule.maxConsecutiveFailures = s.maxConsecutiveFailures := by
  cases htrips : (s.countFailure run now).trips with
  | true =>
      rw [(recordFailure_of_trips htrips).1]
      rfl
  | false =>
      rw [(recordFailure_of_not_trips htrips).1]
      rfl

/-- No operation changes the limit. -/
theorem maxConsecutiveFailures_after (s : Schedule) (op : Operation) :
    (s.after op).maxConsecutiveFailures = s.maxConsecutiveFailures := by
  cases op with
  | enable | disable | setNextRun | recordSuccess => rfl
  | recordFailure run now => exact maxConsecutiveFailures_recordFailure s run now
  | recordOutcome run now =>
      rw [after]
      rcases recordOutcome_cases s run now with hcase | hcase | hcase
      · rw [hcase]
        rfl
      · rw [hcase]
        exact maxConsecutiveFailures_recordFailure s (some run.id) now
      · rw [hcase]

theorem maxConsecutiveFailures_afterAll (s : Schedule) (ops : List Operation) :
    (s.afterAll ops).maxConsecutiveFailures = s.maxConsecutiveFailures := by
  induction ops generalizing s with
  | nil => rfl
  | cons op ops ih => exact (ih (s.after op)).trans (maxConsecutiveFailures_after s op)

/-- However a failure comes to be recorded, it is recorded as one. -/
theorem after_of_recorded_failed {s : Schedule} {op : Operation} {run : Option Uuid} {now : Timestamp}
    (h : op.recorded? = some ⟨run, .failed, now⟩) : s.after op = (s.recordFailure run now).schedule := by
  cases op with
  | enable | disable | setNextRun | recordSuccess => cases h
  | recordFailure run' now' =>
      cases h
      rfl
  | recordOutcome run' now' =>
      rw [Operation.recorded?] at h
      rw [after, recordOutcome]
      cases hstatus : run'.status with
      | failed =>
          rw [hstatus] at h
          cases h
          rfl
      | completed | pending | running | cancelled =>
          rw [hstatus] at h
          cases h

end Schedule

namespace Execution

/-! ### Histories with executions -/

/-- A scheduled execution with all that it is given but the schedule. -/
structure Attempt where
  executor : Executor
  stamps : Stamps
  runId : Uuid
  answer : Answer
  benchmark : Benchmark
  alerts : List Alert
  now : Timestamp

/-- What the execution comes to. -/
def Attempt.result (a : Attempt) (s : Schedule) : EStateM.Result Rejection Timetable (Option Report) :=
  (a.executor.executeScheduled a.stamps a.runId a.answer a.benchmark a.now).run ⟨s, a.alerts, []⟩

/-- The report of the run, if the schedule is executed and the run ends. -/
def Attempt.report? (a : Attempt) (s : Schedule) : Option Report :=
  match a.result s with
  | .ok report? _ => report?
  | .error .. => none

def Attempt.after (a : Attempt) (s : Schedule) : Schedule :=
  match a.result s with
  | .ok _ t => t.schedule
  | .error _ t => t.schedule

/-- What may be done to a schedule from outside. -/
inductive Step where
  | attempt (a : Attempt)
  | operate (op : Schedule.Operation)

namespace Step

/-- The run that the step executes, as it ended. -/
def run? (s : Schedule) : Step → Option Run
  | .attempt a => (a.report? s).map (·.run)
  | .operate _ => none

def after (s : Schedule) : Step → Schedule
  | .attempt a => a.after s
  | .operate op => s.after op

/-- Whether the step is an operation that ends a row of failures. -/
def endsRow : Step → Bool
  | .attempt _ => false
  | .operate op => op.endsRow

end Step

def afterSteps (s : Schedule) (steps : List Step) : Schedule := steps.foldl Step.after s

/-- The runs that the steps execute, as they ended, in their order. -/
def executed (s : Schedule) : List Step → List Run
  | [] => []
  | step :: steps => (step.run? s).toList ++ executed (step.after s) steps

/-- Only an enabled schedule is executed, and without a report it stays as it is. -/
theorem Attempt.cases (a : Attempt) (s : Schedule) :
    (a.report? s = none ∧ a.after s = s) ∨
      ∃ report, a.report? s = some report ∧ s.enabled = true ∧ Fired s a.runId a.now report (a.after s) := by
  have hcourse := scheduledCourse_executeScheduled a.executor a.stamps a.runId a.answer a.benchmark a.now ⟨s, a.alerts, []⟩
  rw [report?, after, result]
  generalize (a.executor.executeScheduled a.stamps a.runId a.answer a.benchmark a.now).run _ = result at hcourse
  cases hcourse with
  | notDue | wrongBenchmark | brokenOff => exact .inl ⟨rfl, rfl⟩
  | fired hdue _ _ hfired => exact .inr ⟨_, rfl, (Schedule.isDue_eq_true_iff.mp hdue).1, hfired⟩

/-- To the schedule, an execution is one operation or none. -/
theorem Step.after_eq (step : Step) (s : Schedule) : step.after s = s ∨ ∃ op, step.after s = s.after op := by
  cases step with
  | operate op => exact .inr ⟨op, rfl⟩
  | attempt a =>
      rcases a.cases s with ⟨-, hsame⟩ | ⟨report, -, -, hfired⟩
      · exact .inl hsame
      · obtain ⟨op, -, hop⟩ := hfired.counted.recorded
        exact .inr ⟨op, hop⟩

theorem Step.armed_after {s : Schedule} (h : s.Armed) (step : Step) : (step.after s).Armed := by
  rcases step.after_eq s with hsame | ⟨op, hop⟩
  · rw [hsame]
    exact h
  · rw [hop]
    exact h.after op

theorem armed_afterSteps {s : Schedule} (h : s.Armed) (steps : List Step) : (afterSteps s steps).Armed := by
  induction steps generalizing s with
  | nil => exact h
  | cons step steps ih => exact ih (step.armed_after h)

/-- A run that fails takes room, and no step but a success or enabling gives any back. -/
theorem Step.room_after {s : Schedule} (h : s.Armed) {step : Step} (hrow : step.endsRow = false)
    (hfailed : ∀ run ∈ step.run? s, run.status = .failed) :
    (step.run? s).toList.length + (step.after s).room ≤ s.room := by
  cases step with
  | operate op =>
      rw [Step.run?, Option.toList_none, List.length_nil, Nat.zero_add]
      exact h.room_after_le hrow
  | attempt a =>
      rw [Step.run?] at hfailed ⊢
      rw [Step.after]
      rcases a.cases s with ⟨hnone, hsame⟩ | ⟨report, hreport, henabled, hfired⟩
      · rw [hnone, hsame]
        exact (Nat.zero_add s.room).le
      · obtain ⟨op, hrecorded, hop⟩ := hfired.counted.recorded
        have hstatus : report.run.status = .failed := hfailed _ (by rw [hreport]; rfl)
        rw [hstatus] at hrecorded
        have hlt := h.room_recordFailure_lt henabled (some report.run.id) a.now
        rw [← Schedule.after_of_recorded_failed hrecorded, ← hop] at hlt
        rw [hreport, Option.map_some, Option.toList_some, List.length_singleton]
        omega

/-- The runs that fail in a row fit into the room that there was, and what is left of it is still there. -/
theorem length_executed_add_room_le {s : Schedule} (h : s.Armed) {steps : List Step}
    (hrow : ∀ step ∈ steps, step.endsRow = false) (hfailed : ∀ run ∈ executed s steps, run.status = .failed) :
    (executed s steps).length + (afterSteps s steps).room ≤ s.room := by
  induction steps generalizing s with
  | nil => exact (Nat.zero_add s.room).le
  | cons step steps ih =>
      rw [executed, List.forall_mem_append] at hfailed
      rw [List.forall_mem_cons] at hrow
      have hstep := Step.room_after h hrow.1 fun run hrun => hfailed.1 run (Option.mem_toList.mpr hrun)
      have hsteps := ih (step.armed_after h) hrow.2 hfailed.2
      have hafter : afterSteps s (step :: steps) = afterSteps (step.after s) steps := rfl
      rw [executed, List.length_append, hafter]
      omega

/-- A schedule that is switched off is not executed until it is enabled. -/
theorem executed_of_not_enabled {s : Schedule} (h : s.enabled = false) {steps : List Step}
    (hrow : ∀ step ∈ steps, step.endsRow = false) : executed s steps = [] ∧ (afterSteps s steps).enabled = false := by
  induction steps generalizing s with
  | nil => exact ⟨rfl, h⟩
  | cons step steps ih =>
      rw [List.forall_mem_cons] at hrow
      cases step with
      | operate op =>
          refine ih (s := s.after op) ?_ hrow.2
          rw [← Bool.not_eq_true]
          intro hafter
          rw [Schedule.eq_enable_of_enabled_after h hafter] at hrow
          cases hrow.1
      | attempt a =>
          rcases a.cases s with ⟨hnone, hsame⟩ | ⟨report, -, henabled, -⟩
          · have hsteps : afterSteps s (.attempt a :: steps) = afterSteps (a.after s) steps := rfl
            rw [executed, Step.run?, hnone, hsteps, Step.after, hsame]
            exact ih h hrow.2
          · rw [h] at henabled
            cases henabled

/-- Where the runs of a history can be parted, the history can. -/
theorem exists_parts {s : Schedule} {steps : List Step} {first rest : List Run}
    (h : executed s steps = first ++ rest) :
    ∃ before after, steps = before ++ after ∧ executed s before = first ∧ executed (afterSteps s before) after = rest := by
  induction steps generalizing s first with
  | nil =>
      obtain ⟨rfl, rfl⟩ := List.append_eq_nil_iff.mp h.symm
      exact ⟨[], [], rfl, rfl, rfl⟩
  | cons step steps ih =>
      cases first with
      | nil => exact ⟨[], step :: steps, rfl, rfl, h⟩
      | cons run first =>
          rw [executed] at h
          cases hrun : step.run? s with
          | none =>
              rw [hrun, Option.toList_none, List.nil_append] at h
              obtain ⟨before, after, rfl, hbefore, hafter⟩ := ih h
              refine ⟨step :: before, after, rfl, ?_, hafter⟩
              rw [executed, hrun, hbefore]
              rfl
          | some run' =>
              rw [hrun, Option.toList_some, List.singleton_append, List.cons_append, List.cons.injEq] at h
              obtain ⟨rfl, h⟩ := h
              obtain ⟨before, after, rfl, hbefore, hafter⟩ := ih h
              refine ⟨step :: before, after, rfl, ?_, hafter⟩
              rw [executed, hrun, hbefore]
              rfl

theorem maxConsecutiveFailures_afterSteps (s : Schedule) (steps : List Step) :
    (afterSteps s steps).maxConsecutiveFailures = s.maxConsecutiveFailures := by
  induction steps generalizing s with
  | nil => rfl
  | cons step steps ih =>
      refine (ih (step.after s)).trans ?_
      rcases step.after_eq s with hsame | ⟨op, hop⟩
      · rw [hsame]
      · rw [hop]
        exact s.maxConsecutiveFailures_after op

/-- Of the runs that the steps execute no more than `limit` fail in a row; if that many do, the schedule is
switched off with the last of them and no run follows. -/
def RowsEndAtLimit (limit : Nat) (s : Schedule) (steps : List Step) : Prop :=
  ∀ before failing later, executed s steps = before ++ (failing ++ later) →
    (∀ run ∈ failing, run.status = .failed) →
      failing.length ≤ limit ∧ (failing.length = limit → later = [] ∧ (afterSteps s steps).enabled = false)

theorem rowsEndAtLimit {s : Schedule} (h : s.Armed) {steps : List Step} (hrow : ∀ step ∈ steps, step.endsRow = false) :
    RowsEndAtLimit s.maxConsecutiveFailures.toNat s steps := by
  intro before failing later hexecuted hfailed
  obtain ⟨first, rest, rfl, -, hrest⟩ := exists_parts hexecuted
  obtain ⟨middle, last, rfl, hmiddle, hlast⟩ := exists_parts hrest
  rw [List.forall_mem_append, List.forall_mem_append] at hrow
  obtain ⟨-, hrowMiddle, hrowLast⟩ := hrow
  have hfirst : (afterSteps s first).Armed := armed_afterSteps h first
  rw [← hmiddle] at hfailed ⊢
  have hroom := length_executed_add_room_le hfirst hrowMiddle hfailed
  have hlimit := (afterSteps s first).room_le
  rw [maxConsecutiveFailures_afterSteps] at hlimit
  refine ⟨by omega, fun hlength => ?_⟩
  have hoff : (afterSteps (afterSteps s first) middle).enabled = false := by
    rw [← Bool.not_eq_true, (armed_afterSteps hfirst middle).enabled_iff]
    omega
  obtain ⟨hnone, hstays⟩ := executed_of_not_enabled hoff hrowLast
  rw [afterSteps, List.foldl_append, List.foldl_append]
  exact ⟨hlast.symm.trans hnone, hstays⟩

/-! ### Scheduled executions -/

/-- When a schedule is executed, and what becomes of it. What is not executed leaves the schedule and the
alerts alone, and an execution that breaks off leaves the schedule alone. -/
structure Gated (x : Executor) (stamps : Stamps) (runId : Uuid) (answer : Answer) (benchmark : Benchmark)
    (now : Timestamp) (t : Timetable) : Prop where
  none_iff : (∃ t', (x.executeScheduled stamps runId answer benchmark now).run t = .ok none t') ↔
    t.schedule.enabled = false ∨ t.schedule.nextRunAt = none ∨
      ∃ next, t.schedule.nextRunAt = some next ∧ now < next
  wrong_iff : ∀ e, (∃ t', (x.executeScheduled stamps runId answer benchmark now).run t = .error (.wrongBenchmark e) t') ↔
    (t.schedule.enabled = true ∧ ∃ next, t.schedule.nextRunAt = some next ∧ next ≤ now) ∧
      benchmark.id ≠ t.schedule.benchmarkId ∧ e = ⟨t.schedule.id, t.schedule.benchmarkId, benchmark.id⟩
  interrupted_iff : ∀ i, (∃ t', (x.executeScheduled stamps runId answer benchmark now).run t = .error (.interrupted i) t') ↔
    (t.schedule.enabled = true ∧ ∃ next, t.schedule.nextRunAt = some next ∧ next ≤ now) ∧
      benchmark.id = t.schedule.benchmarkId ∧ i = .brokenOff ∧
      BreaksOff x stamps answer benchmark ⟨t.schedule.createRun runId, t.alerts, t.journal⟩
  result : match (x.executeScheduled stamps runId answer benchmark now).run t with
    | .ok none t' => t' = t
    | .ok (some report) t' => Fired t.schedule runId now report t'.schedule
    | .error (.wrongBenchmark _) t' => t' = t
    | .error (.interrupted _) t' => t'.schedule = t.schedule

theorem gated (x : Executor) (stamps : Stamps) (runId : Uuid) (answer : Answer) (benchmark : Benchmark)
    (now : Timestamp) (t : Timetable) : Gated x stamps runId answer benchmark now t := by
  have hcourse := scheduledCourse_executeScheduled x stamps runId answer benchmark now t
  suffices h : ∀ result, ScheduledCourse x stamps runId answer benchmark now t result →
      ((∃ t', result = .ok none t') ↔ t.schedule.isDue now = false) ∧
      (∀ e, (∃ t', result = .error (.wrongBenchmark e) t') ↔ t.schedule.isDue now = true ∧
        benchmark.id ≠ t.schedule.benchmarkId ∧ e = ⟨t.schedule.id, t.schedule.benchmarkId, benchmark.id⟩) ∧
      (∀ i, (∃ t', result = .error (.interrupted i) t') ↔ t.schedule.isDue now = true ∧
        benchmark.id = t.schedule.benchmarkId ∧ i = .brokenOff ∧
        BreaksOff x stamps answer benchmark ⟨t.schedule.createRun runId, t.alerts, t.journal⟩) ∧
      match result with
      | .ok none t' => t' = t
      | .ok (some report) t' => Fired t.schedule runId now report t'.schedule
      | .error (.wrongBenchmark _) t' => t' = t
      | .error (.interrupted _) t' => t'.schedule = t.schedule by
    simp only [Schedule.isDue_eq_true_iff, Schedule.isDue_eq_false_iff] at h
    obtain ⟨hnone, hwrong, hinterrupted, hresult⟩ := h _ hcourse
    exact ⟨hnone, hwrong, hinterrupted, hresult⟩
  intro result hcourse
  cases hcourse with
  | notDue hdue => simp [hdue]
  | wrongBenchmark hdue hbenchmark => simp [hdue, hbenchmark, eq_comm]
  | brokenOff hdue hbenchmark hbroken => simp [hdue, hbenchmark, hbroken, eq_comm]
  | fired hdue hbenchmark hwhole hfired => simp [hdue, hbenchmark, hwhole, hfired]

/-- A scheduled execution is gated: it happens exactly if the schedule is enabled, its time has come and the
benchmark is its own, and then it counts exactly once, unless it breaks off. So where the breaker of a schedule has
been in use since it was made, and nobody enables it or records a success by hand, no more runs in a row fail than
the limit says, and none is executed to its end after the one that reaches the limit. -/
theorem executions_gated_and_counted (x : Executor) (stamps : Stamps) (runId : Uuid) (answer : Answer)
    (benchmark : Benchmark) (now : Timestamp) (t : Timetable) :
    Gated x stamps runId answer benchmark now t ∧
      ∀ (made : Schedule) (history : List Schedule.Operation) (steps : List Step), Schedule.Created made →
        made.autoDisable = true → 1 ≤ made.maxConsecutiveFailures → (∀ step ∈ steps, step.endsRow = false) →
          RowsEndAtLimit made.maxConsecutiveFailures.toNat (made.afterAll history) steps := by
  refine ⟨gated x stamps runId answer benchmark now t, ?_⟩
  intro made history steps hcreated hautoDisable hlimit hrow
  have harmed : (made.afterAll history).Armed := (hcreated.armed hautoDisable hlimit).afterAll history
  rw [← made.maxConsecutiveFailures_afterAll history]
  exact rowsEndAtLimit harmed hrow

/-- A schedule with the limit two, enabled after a failure and due since noon. A run fails, one completes, two
fail in a row, and then the schedule is off: the last attempt executes nothing. -/
theorem executions_gated_and_counted_of_four_runs :
    let made := (Schedule.new ⟨1⟩ noon "nightly" "bench-1" "agent-1").withFailurePolicy 2 true
    let attempt (answer : Answer) : Attempt :=
      ⟨⟨.standard, .standard⟩, ⟨noon, fun _ => ⟨2⟩, fun _ => noon, noon, noon⟩, ⟨3⟩, answer, .new "bench-1", [], noon⟩
    let due := made.afterAll [.recordFailure none noon, .enable, .setNextRun (some noon)]
    let failing := attempt (.error (.reported .source "no traces"))
    let steps := [.attempt failing, .attempt (attempt (.ok [])), .attempt failing, .attempt failing, .attempt failing]
    Schedule.Created made ∧ (∀ step ∈ steps, Step.endsRow step = false) ∧
      (executed due steps).map (·.status) = [.failed, .completed, .failed, .failed] ∧ RowsEndAtLimit 2 due steps ∧
        Gated failing.executor failing.stamps failing.runId failing.answer failing.benchmark noon ⟨due, [], []⟩ := by
  intro made attempt due failing steps
  have hcreated : Schedule.Created made :=
    (Schedule.Created.new ⟨1⟩ noon "nightly" "bench-1" "agent-1").withFailurePolicy 2 true
  have hrow : ∀ step ∈ steps, Step.endsRow step = false := by
    intro step hstep
    simp only [steps, List.mem_cons, List.not_mem_nil, or_false] at hstep
    rcases hstep with rfl | rfl | rfl | rfl | rfl
    all_goals rfl
  obtain ⟨hgated, hrows⟩ := executions_gated_and_counted failing.executor failing.stamps failing.runId failing.answer
    failing.benchmark noon ⟨due, [], []⟩
  exact ⟨hcreated, hrow, by decide +kernel, hrows made _ steps hcreated rfl (by decide) hrow, hgated⟩

/-- A schedule that is due, for its own benchmark, and an alert with a mark on the last day of the calendar, which
the score of the run meets: there is neither a report nor an outcome on the schedule. -/
theorem executeScheduled_brokenOff_of_lastDay :
    let alert := { lowQuality with cooldownMinutes := 4294967295, lastTriggeredAt := some Alert.lastDay }
    let schedule := (Schedule.new ⟨1⟩ noon "nightly" "bench-1" "agent-1").setNextRun (some noon)
    let trace := (Trace.new ⟨2⟩ noon "trace-1").withMeasurement noon "ROUGE" 0.25
    let quality := Kpi.new ⟨3⟩ "quality" (.ofFormula (.averageOf ["ROUGE"]))
    let benchmark := { Benchmark.new "bench-1" with measures := [quality] }
    let x : Executor := ⟨.standard, .standard⟩
    schedule.isDue noon = true ∧ benchmark.id = schedule.benchmarkId ∧
      ∃ t, (x.executeScheduled ⟨noon, fun _ => ⟨4⟩, fun _ => noon, noon, noon⟩ ⟨5⟩ (.ok [trace]) benchmark noon).run
          ⟨schedule, [alert], []⟩ = .error (.interrupted .brokenOff) t ∧
        t.schedule.runCount = 0 :=
  ⟨by decide +kernel, rfl, _, rfl, by decide +kernel⟩

end Execution

end Scorecard
