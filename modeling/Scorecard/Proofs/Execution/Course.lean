import Scorecard.Execution.Basic
import Scorecard.Proofs.Execution.Scoring

/-!
The course of an execution. It is refused at the start, and then it has changed nothing; or it fails, because the
source has no traces or because an indicator ends the scoring; or its check of the alerts breaks off; or it is
completed. In each case it is told what the workspace is like afterwards: no transition after the start is ever
refused, so everything else about executions follows from these cases.
-/
namespace Scorecard.Execution

/-! ### Steps in a row -/

section

variable {ε σ α β : Type} {step : EStateM ε σ α} {next : α → EStateM ε σ β} {s s' : σ}

theorem run_bind_of_ok {a : α} (h : step.run s = .ok a s') : (step >>= next).run s = (next a).run s' := by
  rw [EStateM.run] at h
  simp only [EStateM.run, bind, EStateM.bind, h]

theorem run_bind_of_error {e : ε} (h : step.run s = .error e s') : (step >>= next).run s = .error e s' := by
  rw [EStateM.run] at h
  simp only [EStateM.run, bind, EStateM.bind, h]

end

section

variable (w : Workspace)

theorem run_currentRun : currentRun.run w = .ok w.run w := rfl

theorem run_setRun (run : Run) : (setRun run).run w = .ok () { w with run } := rfl

theorem run_enter (entries : Journal) : (enter entries).run w = .ok () { w with journal := w.journal ++ entries } := rfl

variable {w} {change : Run → Except Run.Refusal Run}

theorem run_changeRun_of_ok {run : Run} (h : change w.run = .ok run) :
    (changeRun change).run w = .ok () { w with run } := by
  rw [EStateM.run, changeRun, h]

theorem run_changeRun_of_error {refusal : Run.Refusal} (h : change w.run = .error refusal) :
    (changeRun change).run w = .error (.refused refusal) w := by
  rw [EStateM.run, changeRun, h]

end

/-! ### Workspaces -/

/-- The run with the counts of the traces, if there are any. -/
def counted (run : Run) (traces : List Trace) : Run :=
  if traces.isEmpty then run else run.withProgress (.ofNat traces.length) (.ofNat (measurementCount traces))

namespace Workspace

/-- The run is started, and that is told. -/
def begun (w : Workspace) (stamps : Stamps) (benchmark : Benchmark) : Workspace :=
  { w with
    run := w.run.started stamps.startedAt
    journal := w.journal ++ [Journal.tell (.runStarted w.run.id.text benchmark.id w.run.agentId)] }

/-- The traces are counted and scored. -/
def scored (w : Workspace) (traces : List Trace) (scoring : Scoring) : Workspace :=
  { w with
    run := { counted w.run traces with results := scoring.traces }
    journal := w.journal ++ scoring.journal.withinRun }

/-- The alerts are checked against new entries. -/
def checked (w : Workspace) (now : Timestamp) (history : List Kpi.HistoryEntry) : Workspace :=
  { w with
    alerts := (Alert.check now w.alerts history).alerts
    journal := w.journal ++ (Alert.Firing.journal (Alert.check now w.alerts history).firings).withinRun }

/-- The run has failed, and that is counted and told. -/
def failed (w : Workspace) (stamps : Stamps) (failure : Failure) : Workspace :=
  { w with
    run := w.run.failed failure.message stamps.finishedAt
    journal := w.journal ++ [.count .runsFailed, .event (.runFailed w.run.id.text failure.message) true] }

/-- The run is completed, and that is counted and told. -/
def completed (w : Workspace) (stamps : Stamps) (traces : List Trace) : Workspace :=
  let run := w.run.completed (.ofNat traces.length) (.ofNat (measurementCount traces)) stamps.finishedAt
  { w with
    run
    journal := w.journal ++ [.count .runsCompleted,
      .event (.runFinished run.id.text (.ofNat run.durationMillis) (.ofNat traces.length)
        (.ofNat (measurementCount traces))) true] }

end Workspace

/-! ### Scoring and ending -/

section

variable {w : Workspace}

theorem isTerminal_of_running {run : Run} (h : run.status = .running) : run.isTerminal = false := by
  rw [Run.isTerminal, h, Run.Status.isTerminal]

/-- Counting changes nothing but the counts. -/
theorem exists_counted_eq (run : Run) (traces : List Trace) :
    ∃ counts measured, counted run traces = { run with traces := counts, metrics := measured } := by
  unfold counted
  cases traces.isEmpty with
  | true => exact ⟨run.traces, run.metrics, rfl⟩
  | false => exact ⟨_, _, rfl⟩

theorem status_counted (run : Run) (traces : List Trace) : (counted run traces).status = run.status := by
  obtain ⟨counts, measured, hcounted⟩ := exists_counted_eq run traces
  rw [hcounted]

theorem measurementCount_cons (t : Trace) (ts : List Trace) :
    measurementCount (t :: ts) = t.measurements.length + measurementCount ts := by
  rw [measurementCount, measurementCount, List.flatMap_cons, List.length_append]

theorem measurementCount_eq_sum (traces : List Trace) :
    measurementCount traces = (traces.map (·.measurements.length)).sum := by
  rw [measurementCount, List.length_flatMap]

/-- Counting goes through for a run that has not ended, and only the last counts stay. -/
theorem run_countTraces (h : w.run.isTerminal = false) (n m : Nat) (traces : List Trace) :
    (countTraces n m traces).run w =
      .ok (.ok ()) { w with
        run := if traces.isEmpty then w.run else
          w.run.withProgress (.ofNat (n + traces.length)) (.ofNat (m + measurementCount traces)) } := by
  induction traces generalizing w n m with
  | nil => rfl
  | cons t ts ih =>
      have hstep : w.run.updateProgress (.ofNat (n + 1)) (.ofNat (m + t.measurements.length)) =
          .ok (w.run.withProgress (.ofNat (n + 1)) (.ofNat (m + t.measurements.length))) := by
        rw [Run.updateProgress, h]
        rfl
      have hrest := ih (w := { w with run := w.run.withProgress (.ofNat (n + 1)) (.ofNat (m + t.measurements.length)) }) h
      rw [countTraces, run_bind_of_ok (run_currentRun w), hstep]
      dsimp only
      rw [run_bind_of_ok (run_setRun w _), hrest, measurementCount_cons]
      cases ts with
      | nil => rfl
      | cons u us =>
          rw [← Nat.add_assoc, List.length_cons, List.length_cons, Nat.add_assoc n 1, Nat.add_comm 1]
          rfl

/-- Where the source answers traces, they are counted and scored, and then the alerts are checked. -/
theorem run_score_of_ok (x : Executor) (stamps : Stamps) (traces : List Trace) (benchmark : Benchmark)
    (h : w.run.status = .running) {scoring : Scoring}
    (hscoring : scoring = (x.context stamps benchmark w.run traces).score 0 traces benchmark.measures) :
    (x.score stamps (.ok traces) benchmark).run w =
      match scoring.failure with
      | some failure => .ok (.error failure) (w.scored traces scoring)
      | none =>
        if (Alert.check stamps.alertsAt w.alerts scoring.history).isWhole then
          .ok (.ok ⟨.ofNat traces.length, .ofNat (measurementCount traces), aggregate traces, scoring.history,
            (Alert.check stamps.alertsAt w.alerts scoring.history).firings, scoring.skipped⟩)
            ((w.scored traces scoring).checked stamps.alertsAt scoring.history)
        else .error .brokenOff ((w.scored traces scoring).checked stamps.alertsAt scoring.history) := by
  have hcontext (run : Run) : x.context stamps benchmark (counted run traces) traces =
      x.context stamps benchmark run traces := by
    obtain ⟨counts, measured, hcounted⟩ := exists_counted_eq run traces
    rw [hcounted]
    rfl
  have hcounted := run_countTraces (isTerminal_of_running h) 0 0 traces
  rw [Nat.zero_add, Nat.zero_add] at hcounted
  unfold Executor.score
  dsimp only
  rw [run_bind_of_ok hcounted]
  dsimp only
  rw [run_bind_of_ok (run_currentRun _), run_bind_of_ok (run_setRun _ _), run_bind_of_ok (run_enter _ _)]
  dsimp only
  rw [← counted, hcontext, ← hscoring]
  cases scoring.failure with
  | some failure => rfl
  | none =>
      -- what is counted and scored is not looked at by the check
      have hchecked : (checkAlerts stamps.alertsAt scoring.history).run (w.scored traces scoring) =
          if (Alert.check stamps.alertsAt w.alerts scoring.history).isWhole then
            .ok (Alert.check stamps.alertsAt w.alerts scoring.history).firings
              ((w.scored traces scoring).checked stamps.alertsAt scoring.history)
          else .error .brokenOff ((w.scored traces scoring).checked stamps.alertsAt scoring.history) := rfl
      dsimp only
      split
      · next hwhole =>
          rw [if_pos hwhole] at hchecked
          exact run_bind_of_ok hchecked
      · next hbroken =>
          rw [if_neg hbroken] at hchecked
          exact run_bind_of_error hchecked

theorem run_finish_error (h : w.run.status = .running) (stamps : Stamps) (failure : Failure) :
    (finish stamps (.error failure)).run w =
      .ok ⟨(w.failed stamps failure).run, ∅, [], [], []⟩ (w.failed stamps failure) := by
  have hfail : w.run.fail failure.message stamps.finishedAt = .ok (w.run.failed failure.message stamps.finishedAt) := by
    rw [Run.fail, isTerminal_of_running h]
    rfl
  rw [finish, run_bind_of_ok (run_changeRun_of_ok hfail), run_bind_of_ok (run_currentRun _),
    run_bind_of_ok (run_enter _ _)]
  rfl

theorem run_finish_ok (h : w.run.status = .running) (stamps : Stamps) (traces : List Trace) (metrics : Table Float)
    (history : List Kpi.HistoryEntry) (firings : List Alert.Firing) (skipped : List String) :
    (finish stamps (.ok ⟨.ofNat traces.length, .ofNat (measurementCount traces), metrics, history, firings,
      skipped⟩)).run w =
      .ok ⟨(w.completed stamps traces).run, metrics, history, firings, skipped⟩ (w.completed stamps traces) := by
  have hcomplete (traces measured : UInt64) : w.run.complete traces measured stamps.finishedAt =
      .ok (w.run.completed traces measured stamps.finishedAt) := by
    rw [Run.complete, if_pos h]
  rw [finish, run_bind_of_ok (run_changeRun_of_ok (hcomplete _ _)), run_bind_of_ok (run_currentRun _),
    run_bind_of_ok (run_enter _ _)]
  rfl

end

/-! ### Executions -/

/-- What an execution comes to, by where it ends. -/
inductive Course (x : Executor) (stamps : Stamps) (answer : Answer) (benchmark : Benchmark) (w : Workspace) :
    EStateM.Result Interruption Workspace Report → Prop
  /-- The run is not pending, and nothing is changed. -/
  | refused (hstatus : w.run.status ≠ .pending) :
      Course x stamps answer benchmark w (.error (.refused (w.run.refusal .start)) w)
  /-- The source has no traces. -/
  | unanswered {failure : Failure} {w' : Workspace} (hstatus : w.run.status = .pending)
      (hanswer : answer = .error failure) (hw' : w' = w.begun stamps benchmark) :
      Course x stamps answer benchmark w
        (.ok ⟨(w'.failed stamps failure).run, ∅, [], [], []⟩ (w'.failed stamps failure))
  /-- An indicator ends the scoring. -/
  | stopped {traces : List Trace} {c : Context} {failure : Failure} {w' : Workspace}
      (hstatus : w.run.status = .pending) (hanswer : answer = .ok traces)
      (hc : c = x.context stamps benchmark w.run traces)
      (hfailure : (c.score 0 traces benchmark.measures).failure = some failure)
      (hw' : w' = (w.begun stamps benchmark).scored traces (c.score 0 traces benchmark.measures)) :
      Course x stamps answer benchmark w
        (.ok ⟨(w'.failed stamps failure).run, ∅, [], [], []⟩ (w'.failed stamps failure))
  /-- The check of the alerts comes upon a cooldown with an end beyond the calendar. -/
  | brokenOff {traces : List Trace} {c : Context} {w' : Workspace} (hstatus : w.run.status = .pending)
      (hanswer : answer = .ok traces) (hc : c = x.context stamps benchmark w.run traces)
      (hfailure : (c.score 0 traces benchmark.measures).failure = none)
      (hbroken : (Alert.check stamps.alertsAt w.alerts (c.score 0 traces benchmark.measures).history).isWhole = false)
      (hw' : w' = (w.begun stamps benchmark).scored traces (c.score 0 traces benchmark.measures)) :
      Course x stamps answer benchmark w
        (.error .brokenOff (w'.checked stamps.alertsAt (c.score 0 traces benchmark.measures).history))
  | completed {traces : List Trace} {c : Context} {w' : Workspace} (hstatus : w.run.status = .pending)
      (hanswer : answer = .ok traces) (hc : c = x.context stamps benchmark w.run traces)
      (hfailure : (c.score 0 traces benchmark.measures).failure = none)
      (hwhole : (Alert.check stamps.alertsAt w.alerts (c.score 0 traces benchmark.measures).history).isWhole = true)
      (hw' : w' = ((w.begun stamps benchmark).scored traces (c.score 0 traces benchmark.measures)).checked
        stamps.alertsAt (c.score 0 traces benchmark.measures).history) :
      Course x stamps answer benchmark w
        (.ok ⟨(w'.completed stamps traces).run, aggregate traces, (c.score 0 traces benchmark.measures).history,
            (Alert.check stamps.alertsAt w.alerts (c.score 0 traces benchmark.measures).history).firings,
            (c.score 0 traces benchmark.measures).skipped⟩
          (w'.completed stamps traces))

theorem course_execute (x : Executor) (stamps : Stamps) (answer : Answer) (benchmark : Benchmark) (w : Workspace) :
    Course x stamps answer benchmark w ((x.execute stamps answer benchmark).run w) := by
  by_cases hstatus : w.run.status = .pending
  · have hstart : w.run.start stamps.startedAt = .ok (w.run.started stamps.startedAt) := by
      rw [Run.start, if_pos hstatus]
    have hbegun : (x.execute stamps answer benchmark).run w =
        (x.score stamps answer benchmark >>= finish stamps).run (w.begun stamps benchmark) := by
      rw [Executor.execute, run_bind_of_ok (run_changeRun_of_ok hstart), run_bind_of_ok (run_currentRun _),
        run_bind_of_ok (run_enter _ _)]
      rfl
    have hrunning : (w.begun stamps benchmark).run.status = .running := rfl
    rw [hbegun]
    cases answer with
    | error failure =>
        have hscore : (x.score stamps (.error failure) benchmark).run (w.begun stamps benchmark) =
            .ok (.error failure) (w.begun stamps benchmark) := rfl
        rw [run_bind_of_ok hscore, run_finish_error hrunning]
        exact .unanswered hstatus rfl rfl
    | ok traces =>
        generalize hc : x.context stamps benchmark w.run traces = c
        have hscore := run_score_of_ok x stamps traces benchmark hrunning
          (congrArg (·.score 0 traces benchmark.measures) hc.symm)
        have hscored : ((w.begun stamps benchmark).scored traces (c.score 0 traces benchmark.measures)).run.status =
            .running := (status_counted _ traces).trans hrunning
        have hchecked : (((w.begun stamps benchmark).scored traces (c.score 0 traces benchmark.measures)).checked
            stamps.alertsAt (c.score 0 traces benchmark.measures).history).run.status = .running := hscored
        cases hfailure : (c.score 0 traces benchmark.measures).failure with
        | some failure =>
            simp only [hfailure] at hscore
            rw [run_bind_of_ok hscore, run_finish_error hscored]
            exact .stopped hstatus rfl hc.symm hfailure rfl
        | none =>
            simp only [hfailure] at hscore
            split at hscore
            · next hwhole =>
                rw [run_bind_of_ok hscore, run_finish_ok hchecked]
                exact .completed hstatus rfl hc.symm hfailure hwhole rfl
            · next hbroken =>
                rw [run_bind_of_error hscore]
                exact .brokenOff hstatus rfl hc.symm hfailure (Bool.not_eq_true _ ▸ hbroken) rfl
  · have hstart : w.run.start stamps.startedAt = .error (w.run.refusal .start) := by
      rw [Run.start, if_neg hstatus]
    rw [Executor.execute, run_bind_of_error (run_changeRun_of_error hstart)]
    exact .refused hstatus

end Scorecard.Execution
