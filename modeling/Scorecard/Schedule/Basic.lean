import Scorecard.Count
import Scorecard.Journal.Basic
import Scorecard.Run.Basic

/-!
Schedules and their circuit breaker. A schedule counts the outcomes of its runs. When failures in a
row reach the limit, and the policy says so, it switches itself off and stays off until somebody
enables it. When the next run is due is set from outside.
-/
namespace Scorecard

structure Schedule where
  id : Uuid
  name : String
  description : Option String
  benchmarkId : String
  agentId : String
  cronExpression : Option String
  timezone : String
  maxConsecutiveFailures : UInt32
  autoDisable : Bool
  createdBy : Option String
  createdAt : Timestamp
  enabled : Bool
  runCount : UInt64
  failureCount : UInt64
  consecutiveFailures : UInt32
  lastRunId : Option Uuid
  lastRunStatus : Option Run.Status
  lastRunAt : Option Timestamp
  nextRunAt : Option Timestamp
deriving DecidableEq

namespace Schedule

def defaultMaxConsecutiveFailures : UInt32 := 3

/-- An enabled schedule that has not run. -/
def new (id : Uuid) (createdAt : Timestamp) (name benchmarkId agentId : String) : Schedule :=
  { id, name, description := none, benchmarkId, agentId, cronExpression := none, timezone := "UTC",
    maxConsecutiveFailures := defaultMaxConsecutiveFailures, autoDisable := true, createdBy := none, createdAt,
    enabled := true, runCount := 0, failureCount := 0, consecutiveFailures := 0, lastRunId := none,
    lastRunStatus := none, lastRunAt := none, nextRunAt := none }

def withCron (s : Schedule) (expression : String) : Schedule := { s with cronExpression := some expression }

def withFailurePolicy (s : Schedule) (maxConsecutiveFailures : UInt32) (autoDisable : Bool) : Schedule :=
  { s with maxConsecutiveFailures, autoDisable }

def setNextRun (s : Schedule) (time : Option Timestamp) : Schedule := { s with nextRunAt := time }

/-- Whether the schedule is enabled and its next run is not in the future. -/
def isDue (s : Schedule) (now : Timestamp) : Bool := s.enabled && s.nextRunAt.any fun next => next ≤ now

/-- Switches the schedule on and forgets the failures in a row. -/
def enable (s : Schedule) : Schedule := { s with enabled := true, consecutiveFailures := 0 }

def disable (s : Schedule) : Schedule := { s with enabled := false }

/-- A pending run for the schedule's benchmark and agent. -/
def createRun (s : Schedule) (id : Uuid) : Run :=
  ((Run.new id s.benchmarkId s.agentId .scheduled).withUser "scheduler").withSchedule s.id

def stampLastRun (s : Schedule) (run : Option Uuid) (status : Run.Status) (now : Timestamp) : Schedule :=
  { s with
    lastRunId := run
    lastRunStatus := some status
    lastRunAt := some now
    runCount := Count.next64 s.runCount }

/-- What recording an outcome comes to. -/
structure Recorded where
  schedule : Schedule
  /-- Whether the schedule has just switched itself off. -/
  tripped : Bool
  journal : Journal

/-- Counts a success, which ends a row of failures and switches nothing on. -/
def recordSuccess (s : Schedule) (run : Option Uuid) (now : Timestamp) : Recorded :=
  ⟨{ s.stampLastRun run .completed now with consecutiveFailures := 0 }, false,
    [Journal.tell (.runRecorded s.id.text true 0)]⟩

/-- The schedule with one more failure counted, before the breaker is looked at. -/
def countFailure (s : Schedule) (run : Option Uuid) (now : Timestamp) : Schedule :=
  { s.stampLastRun run .failed now with
    failureCount := Count.next64 s.failureCount
    consecutiveFailures := Count.next32 s.consecutiveFailures }

/-- Whether the breaker switches the schedule off. -/
def trips (s : Schedule) : Bool :=
  s.autoDisable && s.enabled && decide (s.maxConsecutiveFailures ≤ s.consecutiveFailures)

/-- Counts a failure and applies the breaker. -/
def recordFailure (s : Schedule) (run : Option Uuid) (now : Timestamp) : Recorded :=
  let counted := s.countFailure run now
  let told := Journal.tell (.runRecorded s.id.text false counted.consecutiveFailures)
  if counted.trips then
    ⟨counted.disable, true,
      [told, .count .schedulesAutoDisabled, Journal.tell (.autoDisabled s.id.text counted.consecutiveFailures)]⟩
  else ⟨counted, false, [told]⟩

/-- Records how a run ended; a run that was cancelled or has not ended leaves no trace. -/
def recordOutcome (s : Schedule) (run : Run) (now : Timestamp) : Recorded :=
  match run.status with
  | .completed => s.recordSuccess (some run.id) now
  | .failed => s.recordFailure (some run.id) now
  | .pending | .running | .cancelled => ⟨s, false, []⟩

end Schedule

end Scorecard
