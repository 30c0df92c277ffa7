import Scorecard.Alert.Firing
import Scorecard.Execution.Scoring
import Scorecard.Report.Basic

/-!
Executing runs. An execution works in place: a pending run is started, its traces are collected and scored,
alerts are checked, and it ends completed or, for whatever reason, failed. Each transition of the run is the
guarded one, and what is counted and told is entered into a journal as it happens. A run that fails reports no
scores and fires no alerts. Only a run that is not pending is refused, and only a check of the alerts that breaks
off keeps an execution from its end; what was done before it stays done.
-/
namespace Scorecard.Execution

/-- What executes runs: the settings and the metrics that formulas may name. -/
structure Executor where
  settings : Settings
  known : Metric.Registry

/-- What a source of traces answers: the traces of the run, or why there are none. -/
abbrev Answer := Except Failure (List Trace)

def measurementCount (traces : List Trace) : Nat := (traces.flatMap (·.measurements)).length

/-! ### Steps -/

/-- What an execution works on. -/
structure Workspace where
  run : Run
  alerts : List Alert
  journal : Journal

/-- Why an execution gives no report. -/
inductive Interruption where
  | refused (refusal : Run.Refusal)
  | brokenOff
deriving DecidableEq

/-- Steps that change a workspace, unless they are interrupted. -/
abbrev Steps := EStateM Interruption Workspace

def currentRun : Steps Run := fun w => .ok w.run w

def setRun (run : Run) : Steps Unit := fun w => .ok () { w with run }

/-- Changes the run, unless the change is refused. -/
def changeRun (change : Run → Except Run.Refusal Run) : Steps Unit := fun w =>
  match change w.run with
  | .ok run => .ok () { w with run }
  | .error refusal => .error (.refused refusal) w

def enter (entries : Journal) : Steps Unit := fun w => .ok () { w with journal := w.journal ++ entries }

/-- Checks the alerts against new entries. If the check breaks off, so does the execution. -/
def checkAlerts (now : Timestamp) (history : List Kpi.HistoryEntry) : Steps (List Alert.Firing) := fun w =>
  let c := Alert.check now w.alerts history
  let w := { w with alerts := c.alerts, journal := w.journal ++ (Alert.Firing.journal c.firings).withinRun }
  if c.isWhole then .ok c.firings w else .error .brokenOff w

/-- Counts the traces one by one, on top of what is counted already. -/
def countTraces (traces measured : Nat) : List Trace → Steps (Except Failure Unit)
  | [] => return .ok ()
  | t :: ts => do
    let run ← currentRun
    match run.updateProgress (.ofNat (traces + 1)) (.ofNat (measured + t.measurements.length)) with
    | .error refusal => return .error (.lifecycle refusal)
    | .ok run =>
      setRun run
      countTraces (traces + 1) (measured + t.measurements.length) ts

/-! ### Scoring and ending -/

/-- What a scoring that goes through gives to end the run with. -/
structure Scored where
  traces : UInt64
  measured : UInt64
  metrics : Table Float
  history : List Kpi.HistoryEntry
  firings : List Alert.Firing
  skipped : List String

namespace Executor

/-- A schedule with the failure policy of the settings. -/
def newSchedule (x : Executor) (id : Uuid) (createdAt : Timestamp) (name benchmarkId agentId : String) :
    Schedule :=
  (Schedule.new id createdAt name benchmarkId agentId).withFailurePolicy x.settings.maxConsecutiveFailures
    x.settings.autoDisable

/-- What the scoring of a run is about once the source has answered the traces. -/
def context (x : Executor) (stamps : Stamps) (benchmark : Benchmark) (run : Run) (traces : List Trace) : Context :=
  ⟨x.settings, x.known, stamps, run.id, run.agentId, benchmark.id, aggregate traces⟩

/-- Scores the run, which is started, and checks the alerts. -/
def score (x : Executor) (stamps : Stamps) (answer : Answer) (benchmark : Benchmark) :
    Steps (Except Failure Scored) := do
  match answer with
  | .error failure => return .error failure
  | .ok traces =>
    match ← countTraces 0 0 traces with
    | .error failure => return .error failure
    | .ok () =>
      let run ← currentRun
      let scoring := (x.context stamps benchmark run traces).score 0 traces benchmark.measures
      setRun { run with results := scoring.traces }
      enter scoring.journal.withinRun
      match scoring.failure with
      | some failure => return .error failure
      | none =>
        let firings ← checkAlerts stamps.alertsAt scoring.history
        return .ok {
          traces := .ofNat traces.length
          measured := .ofNat (measurementCount traces)
          metrics := aggregate traces
          history := scoring.history
          firings
          skipped := scoring.skipped }

end Executor

/-- Ends the run as failed or completed, and reports it. -/
def finish (stamps : Stamps) : Except Failure Scored → Steps Report
  | .error failure => do
    changeRun (·.fail failure.message stamps.finishedAt)
    let run ← currentRun
    enter [.count .runsFailed, .event (.runFailed run.id.text failure.message) true]
    return ⟨run, ∅, [], [], []⟩
  | .ok scored => do
    changeRun (·.complete scored.traces scored.measured stamps.finishedAt)
    let run ← currentRun
    enter [.count .runsCompleted,
      .event (.runFinished run.id.text (.ofNat run.durationMillis) scored.traces scored.measured) true]
    return ⟨run, scored.metrics, scored.history, scored.firings, scored.skipped⟩

/-- Executes the run of the workspace. -/
def Executor.execute (x : Executor) (stamps : Stamps) (answer : Answer) (benchmark : Benchmark) : Steps Report := do
  changeRun (·.start stamps.startedAt)
  let run ← currentRun
  enter [Journal.tell (.runStarted run.id.text benchmark.id run.agentId)]
  let outcome ← x.score stamps answer benchmark
  finish stamps outcome

end Scorecard.Execution
