import Scorecard.Execution.Basic
import Scorecard.Schedule.Basic

/-!
Executing schedules. A schedule that is due has a run created and executed, and records how the run
ended. One that is not due is left alone, and so is one that is meant for another benchmark. An execution that
breaks off has no outcome, so the schedule records nothing.
-/
namespace Scorecard.Execution

/-- A schedule that is due, and a benchmark that is not the one it is for. -/
structure WrongBenchmark where
  schedule : Uuid
  expected : String
  given : String
deriving DecidableEq

def WrongBenchmark.message (e : WrongBenchmark) : String :=
  let schedule := e.schedule.text
  s!"configuration error: schedule {schedule} targets benchmark {e.expected}, got {e.given}"

/-- Why a scheduled execution ends without an answer. -/
inductive Rejection where
  | wrongBenchmark (e : WrongBenchmark)
  | interrupted (i : Interruption)
deriving DecidableEq

/-- What a scheduled execution works on. -/
structure Timetable where
  schedule : Schedule
  alerts : List Alert
  journal : Journal

/-- Steps that change a timetable, unless they are rejected. -/
abbrev ScheduledSteps := EStateM Rejection Timetable

def currentSchedule : ScheduledSteps Schedule := fun t => .ok t.schedule t

/-- Takes steps on a run. What they change and enter is changed and entered also if they are interrupted. -/
def onRun {α : Type} (run : Run) (steps : Steps α) : ScheduledSteps α := fun t =>
  match steps.run ⟨run, t.alerts, t.journal⟩ with
  | .ok a w => .ok a ⟨t.schedule, w.alerts, w.journal⟩
  | .error i w => .error (.interrupted i) ⟨t.schedule, w.alerts, w.journal⟩

def recordOutcome (run : Run) (now : Timestamp) : ScheduledSteps Unit := fun t =>
  let recorded := t.schedule.recordOutcome run now
  .ok () ⟨recorded.schedule, t.alerts, t.journal ++ recorded.journal⟩

namespace Executor

/-- Executes a run of the schedule, which has the id `runId`, and records its outcome. -/
def fire (x : Executor) (stamps : Stamps) (runId : Uuid) (answer : Answer) (benchmark : Benchmark) (now : Timestamp) :
    ScheduledSteps Report := do
  let schedule ← currentSchedule
  let report ← onRun (schedule.createRun runId) (x.execute stamps answer benchmark)
  recordOutcome report.run now
  return report

/-- Executes the schedule if it is due; the result is `none` for one that is not. -/
def executeScheduled (x : Executor) (stamps : Stamps) (runId : Uuid) (answer : Answer) (benchmark : Benchmark)
    (now : Timestamp) : ScheduledSteps (Option Report) := do
  let schedule ← currentSchedule
  if schedule.isDue now then
    if schedule.benchmarkId = benchmark.id then
      let report ← x.fire stamps runId answer benchmark now
      return some report
    else throw (.wrongBenchmark ⟨schedule.id, schedule.benchmarkId, benchmark.id⟩)
  else return none

end Executor

end Scorecard.Execution
