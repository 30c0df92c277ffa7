import Scorecard.Execution.Scheduled
import Scorecard.Proofs.Execution.Outcome
import Scorecard.Proofs.Schedule.Bookkeeping

/-!
Executions of schedules. A schedule is executed if it is enabled and its time has come, and nothing but a
benchmark that it is not meant for then stops it: the run that it makes is pending, so its execution is
never refused. Where the execution does not break off, the run ends completed or failed, so its outcome is
recorded, once. What is not executed leaves the schedule and the alerts as they were.
-/
namespace Scorecard

theorem Timestamp.not_le {s t : Timestamp} : ¬s ≤ t ↔ t < s := by
  show ¬(s.seconds < t.seconds ∨ (s.seconds = t.seconds ∧ s.nanos ≤ t.nanos)) ↔
    t.seconds < s.seconds ∨ (t.seconds = s.seconds ∧ t.nanos < s.nanos)
  omega

namespace Schedule

/-! ### When a schedule is due -/

theorem isDue_eq_true_iff {s : Schedule} {now : Timestamp} :
    s.isDue now = true ↔ s.enabled = true ∧ ∃ next, s.nextRunAt = some next ∧ next ≤ now := by
  rw [isDue, Bool.and_eq_true, Option.any_eq_true]
  simp only [decide_eq_true_eq]

theorem isDue_eq_false_iff {s : Schedule} {now : Timestamp} :
    s.isDue now = false ↔
      s.enabled = false ∨ s.nextRunAt = none ∨ ∃ next, s.nextRunAt = some next ∧ now < next := by
  rw [isDue, Bool.and_eq_false_iff]
  refine or_congr_right ?_
  cases s.nextRunAt with
  | none => simp
  | some next => simp [Timestamp.not_le]

/-! ### One more outcome -/

/-- The schedule `t` is `s` after one more outcome; when the next run is due has not changed. -/
structure CountsOne (s : Schedule) (e : Entry) (t : Schedule) : Prop where
  recorded : ∃ op : Operation, op.recorded? = some e ∧ t = s.after op
  runs : t.runCount = Count.next64 s.runCount
  lastRun : t.lastRunId = e.run
  lastStatus : t.lastRunStatus = some e.status
  lastTime : t.lastRunAt = some e.time
  nextRun : t.nextRunAt = s.nextRunAt

/-- The outcome of a run that has ended without being cancelled counts. -/
theorem countsOne_recordOutcome (s : Schedule) {run : Run} (h : run.status = .completed ∨ run.status = .failed)
    (now : Timestamp) : s.CountsOne ⟨some run.id, run.status, now⟩ (s.recordOutcome run now).schedule := by
  have hentry : (Operation.recordOutcome run now).recorded? = some ⟨some run.id, run.status, now⟩ := by
    rw [Operation.recorded?]
    rcases h with h | h
    all_goals rw [h]
  have hrecorded : ∃ op : Operation, op.recorded? = some ⟨some run.id, run.status, now⟩ ∧
      (s.recordOutcome run now).schedule = s.after op := ⟨_, hentry, rfl⟩
  rcases h with h | h
  · have hsuccess : s.recordOutcome run now = s.recordSuccess (some run.id) now := by rw [recordOutcome, h]
    rw [hsuccess] at hrecorded ⊢
    exact ⟨hrecorded, rfl, rfl, by rw [h]; rfl, rfl, rfl⟩
  · have hfailure : s.recordOutcome run now = s.recordFailure (some run.id) now := by rw [recordOutcome, h]
    rw [hfailure] at hrecorded ⊢
    cases htrips : (s.countFailure (some run.id) now).trips with
    | true =>
        rw [(recordFailure_of_trips htrips).1] at hrecorded ⊢
        exact ⟨hrecorded, rfl, rfl, by rw [h]; rfl, rfl, rfl⟩
    | false =>
        rw [(recordFailure_of_not_trips htrips).1] at hrecorded ⊢
        exact ⟨hrecorded, rfl, rfl, by rw [h]; rfl, rfl, rfl⟩

end Schedule

namespace Execution

/-! ### The executed run -/

/-- The run is still for what it was made for. -/
structure SameOrigin (run run' : Run) : Prop where
  id : run'.id = run.id
  benchmark : run'.benchmarkId = run.benchmarkId
  agent : run'.agentId = run.agentId
  trigger : run'.trigger = run.trigger
  schedule : run'.scheduleId = run.scheduleId
  retries : run'.retries = run.retries

theorem sameOrigin_scored (w : Workspace) (stamps : Stamps) (benchmark : Benchmark) (traces : List Trace)
    (scoring : Scoring) : SameOrigin w.run ((w.begun stamps benchmark).scored traces scoring).run := by
  obtain ⟨counts, measured, hcounted⟩ := exists_counted_eq (w.begun stamps benchmark).run traces
  rw [Workspace.scored, hcounted]
  exact ⟨rfl, rfl, rfl, rfl, rfl, rfl⟩

/-- Wherever an execution ends, it has not changed what its run is for. -/
theorem sameOrigin_execute (x : Executor) (stamps : Stamps) (answer : Answer) (benchmark : Benchmark) (w : Workspace) :
    match (x.execute stamps answer benchmark).run w with
    | .ok report w' => report.run = w'.run ∧ SameOrigin w.run w'.run
    | .error _ w' => SameOrigin w.run w'.run := by
  have hcourse := course_execute x stamps answer benchmark w
  generalize (x.execute stamps answer benchmark).run w = result at hcourse
  cases hcourse with
  | refused => exact ⟨rfl, rfl, rfl, rfl, rfl, rfl⟩
  | unanswered _ _ hbegun =>
      subst hbegun
      exact ⟨rfl, rfl, rfl, rfl, rfl, rfl, rfl⟩
  | @stopped traces c _ _ _ _ _ _ hscored =>
      subst hscored
      obtain ⟨hid, hbenchmark, hagent, htrigger, hschedule, hretries⟩ :=
        sameOrigin_scored w stamps benchmark traces (c.score 0 traces benchmark.measures)
      exact ⟨rfl, hid, hbenchmark, hagent, htrigger, hschedule, hretries⟩
  | brokenOff _ _ _ _ _ hscored =>
      subst hscored
      exact sameOrigin_scored w stamps benchmark _ _
  | @completed traces c _ _ _ _ _ _ hchecked =>
      subst hchecked
      obtain ⟨hid, hbenchmark, hagent, htrigger, hschedule, hretries⟩ :=
        sameOrigin_scored w stamps benchmark traces (c.score 0 traces benchmark.measures)
      exact ⟨rfl, hid, hbenchmark, hagent, htrigger, hschedule, hretries⟩

/-- Whatever the answer of the source, the entries of a report name the benchmark and the agent of the run. -/
theorem history_execute {x : Executor} {stamps : Stamps} {answer : Answer} {benchmark : Benchmark}
    {w w' : Workspace} {report : Report} (h : (x.execute stamps answer benchmark).run w = .ok report w') :
    ∀ e ∈ report.history, e.benchmarkId = benchmark.id ∧ e.agentId = w.run.agentId := by
  have hcourse := course_execute x stamps answer benchmark w
  rw [h] at hcourse
  cases hcourse with
  | unanswered | stopped => exact List.forall_mem_nil _
  | completed _ _ hc =>
      subst hc
      intro e he
      obtain ⟨kpi, -, hrecords⟩ := Context.exists_of_mem_history _ 0 _ _ he
      exact ⟨hrecords.benchmark, hrecords.agent⟩

/-! ### Fired schedules -/

/-- The schedule was executed by a run of its own, whose outcome it has recorded. -/
structure Fired (s : Schedule) (runId : Uuid) (now : Timestamp) (report : Report) (s' : Schedule) : Prop where
  ended : report.run.status = .completed ∨ report.run.status = .failed
  id : report.run.id = runId
  trigger : report.run.trigger = .scheduled
  schedule : report.run.scheduleId = some s.id
  benchmark : report.run.benchmarkId = s.benchmarkId
  agent : report.run.agentId = s.agentId
  history : ∀ e ∈ report.history, e.benchmarkId = s.benchmarkId ∧ e.agentId = s.agentId
  counted : s.CountsOne ⟨some report.run.id, report.run.status, now⟩ s'

/-- What a scheduled execution comes to. -/
inductive ScheduledCourse (x : Executor) (stamps : Stamps) (runId : Uuid) (answer : Answer) (benchmark : Benchmark)
    (now : Timestamp) (t : Timetable) : EStateM.Result Rejection Timetable (Option Report) → Prop
  | notDue (hdue : t.schedule.isDue now = false) :
      ScheduledCourse x stamps runId answer benchmark now t (.ok none t)
  | wrongBenchmark (hdue : t.schedule.isDue now = true) (hbenchmark : benchmark.id ≠ t.schedule.benchmarkId) :
      ScheduledCourse x stamps runId answer benchmark now t
        (.error (.wrongBenchmark ⟨t.schedule.id, t.schedule.benchmarkId, benchmark.id⟩) t)
  /-- The run of the schedule has no end, and nothing is recorded. -/
  | brokenOff {w : Workspace} (hdue : t.schedule.isDue now = true) (hbenchmark : benchmark.id = t.schedule.benchmarkId)
      (hbroken : BreaksOff x stamps answer benchmark ⟨t.schedule.createRun runId, t.alerts, t.journal⟩) :
      ScheduledCourse x stamps runId answer benchmark now t
        (.error (.interrupted .brokenOff) ⟨t.schedule, w.alerts, w.journal⟩)
  | fired {report : Report} {t' : Timetable} (hdue : t.schedule.isDue now = true)
      (hbenchmark : benchmark.id = t.schedule.benchmarkId)
      (hwhole : ¬BreaksOff x stamps answer benchmark ⟨t.schedule.createRun runId, t.alerts, t.journal⟩)
      (hfired : Fired t.schedule runId now report t'.schedule) :
      ScheduledCourse x stamps runId answer benchmark now t (.ok (some report) t')

section

variable (x : Executor) (stamps : Stamps) (runId : Uuid) (answer : Answer) (benchmark : Benchmark) (now : Timestamp)
  (t : Timetable)

/-- A schedule that is executed has the outcome of its run recorded, unless the execution breaks off. -/
theorem scheduledCourse_fire (hdue : t.schedule.isDue now = true) (hbenchmark : benchmark.id = t.schedule.benchmarkId) :
    ScheduledCourse x stamps runId answer benchmark now t
      ((do let report ← x.fire stamps runId answer benchmark now
           return some report : ScheduledSteps (Option Report)).run t) := by
  generalize hw : (⟨t.schedule.createRun runId, t.alerts, t.journal⟩ : Workspace) = w
  have hpending : w.run.status = .pending := by
    rw [← hw]
    rfl
  have hschedule : currentSchedule.run t = .ok t.schedule t := rfl
  have hrefused := refused_execute_iff x stamps answer benchmark w
  have hbroken := brokenOff_execute_iff x stamps answer benchmark w
  have hresult := concludes_execute x stamps answer benchmark w
  have horigin := sameOrigin_execute x stamps answer benchmark w
  unfold Executor.fire
  cases hrun : (x.execute stamps answer benchmark).run w with
  | error i w' =>
      have hon : (onRun (t.schedule.createRun runId) (x.execute stamps answer benchmark)).run t =
          .error (.interrupted i) ⟨t.schedule, w'.alerts, w'.journal⟩ := by
        rw [EStateM.run, onRun, hw, hrun]
      rw [run_bind_of_error ((run_bind_of_ok hschedule).trans (run_bind_of_error hon))]
      cases i with
      | refused refusal => exact absurd hpending (hrefused.mp ⟨refusal, w', hrun⟩)
      | brokenOff =>
          have hbreaks := (hbroken.mp ⟨w', hrun⟩).2
          rw [← hw] at hbreaks
          exact .brokenOff hdue hbenchmark hbreaks
  | ok report w' =>
      have hon : (onRun (t.schedule.createRun runId) (x.execute stamps answer benchmark)).run t =
          .ok report ⟨t.schedule, w'.alerts, w'.journal⟩ := by
        rw [EStateM.run, onRun, hw, hrun]
      have hrecord : (recordOutcome report.run now).run ⟨t.schedule, w'.alerts, w'.journal⟩ =
          .ok () ⟨(t.schedule.recordOutcome report.run now).schedule, w'.alerts,
            w'.journal ++ (t.schedule.recordOutcome report.run now).journal⟩ := rfl
      rw [run_bind_of_ok ((run_bind_of_ok hschedule).trans ((run_bind_of_ok hon).trans (run_bind_of_ok hrecord)))]
      rw [hrun] at hresult horigin
      obtain ⟨hreport, hconcludes⟩ := hresult
      obtain ⟨-, hid, hbenchmark', hagent, htrigger, hscheduleId, -⟩ := horigin
      rw [← hreport, ← hw] at hid hbenchmark' hagent htrigger hscheduleId
      refine .fired hdue hbenchmark (fun hbreaks => ?_)
        ⟨hconcludes.ended, hid, htrigger, hscheduleId, hbenchmark', hagent, ?_,
          t.schedule.countsOne_recordOutcome hconcludes.ended now⟩
      · rw [hw] at hbreaks
        obtain ⟨w'', hrun'⟩ := hbroken.mpr ⟨hpending, hbreaks⟩
        rw [hrun] at hrun'
        cases hrun'
      · have hhistory := history_execute hrun
        rw [hbenchmark, ← hw] at hhistory
        exact hhistory

theorem scheduledCourse_executeScheduled :
    ScheduledCourse x stamps runId answer benchmark now t
      ((x.executeScheduled stamps runId answer benchmark now).run t) := by
  have hschedule : currentSchedule.run t = .ok t.schedule t := rfl
  rw [Executor.executeScheduled, run_bind_of_ok hschedule]
  cases hdue : t.schedule.isDue now with
  | false => exact .notDue hdue
  | true =>
      rw [if_pos rfl]
      by_cases hbenchmark : t.schedule.benchmarkId = benchmark.id
      · rw [if_pos hbenchmark]
        exact scheduledCourse_fire x stamps runId answer benchmark now t hdue hbenchmark.symm
      · rw [if_neg hbenchmark]
        exact .wrongBenchmark hdue (Ne.symm hbenchmark)

end

end Execution

end Scorecard
