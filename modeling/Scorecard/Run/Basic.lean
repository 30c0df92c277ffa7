import Scorecard.Benchmark.Trace
import Scorecard.Count

/-!
Runs and their life. A run is pending, then running, then completed, failed or cancelled, and never
goes back. A transition that its status does not allow is refused and changes nothing. The time of a
transition is an argument, so a run is a function of what is done to it.
-/
namespace Scorecard

namespace Run

inductive Status where
  | pending
  | running
  | completed
  | failed
  | cancelled
deriving DecidableEq

namespace Status

def word : Status → String
  | .pending => "PENDING"
  | .running => "RUNNING"
  | .completed => "COMPLETED"
  | .failed => "FAILED"
  | .cancelled => "CANCELLED"

def all : List Status := [.pending, .running, .completed, .failed, .cancelled]

def ofWord? (word : String) : Option Status := all.find? (·.word == word)

theorem ofWord?_word (s : Status) : ofWord? s.word = some s := by
  cases s <;> rfl

def ofDocument? (d : Json.Document) : Option Status := d.word?.bind ofWord?

/-- Whether the run has ended. -/
def isTerminal : Status → Bool
  | .pending | .running => false
  | .completed | .failed | .cancelled => true

end Status

/-- What makes a run start. -/
inductive Trigger where
  | manual
  | scheduled
  | event
  | webhook
deriving DecidableEq

namespace Trigger

def word : Trigger → String
  | .manual => "MANUAL"
  | .scheduled => "SCHEDULED"
  | .event => "EVENT"
  | .webhook => "WEBHOOK"

def all : List Trigger := [.manual, .scheduled, .event, .webhook]

def ofWord? (word : String) : Option Trigger := all.find? (·.word == word)

theorem ofWord?_word (t : Trigger) : ofWord? t.word = some t := by
  cases t <;> rfl

def ofDocument? (d : Json.Document) : Option Trigger := d.word?.bind ofWord?

end Trigger

/-- What is asked of a run. -/
inductive Action where
  | start
  | complete
  | fail
  | cancel
  | updateProgress
  | retry
deriving DecidableEq

/-- The action as a verb that the run is the object of. -/
def Action.describe : Action → String
  | .start => "start"
  | .complete => "complete"
  | .fail => "fail"
  | .cancel => "cancel"
  | .updateProgress => "update progress of"
  | .retry => "retry"

/-- Why an action on a run is refused. -/
inductive Refusal where
  | invalidTransition (run : Uuid) (status : Status) (action : Action)
  | retryLimitExceeded (run : Uuid) (maxRetries : UInt32)
deriving DecidableEq

def Refusal.message : Refusal → String
  | .invalidTransition run status action =>
    let run := run.text
    let status := status.word
    let action := action.describe
    s!"cannot {action} run {run} in status {status}"
  | .retryLimitExceeded run maxRetries =>
    let run := run.text
    let maxRetries := toString maxRetries.toNat
    s!"max retries ({maxRetries}) exceeded for run {run}"

end Run

structure Run where
  id : Uuid
  benchmarkId : String
  agentId : String
  trigger : Run.Trigger
  user : Option String
  scheduleId : Option Uuid
  results : List Trace
  status : Run.Status
  startedAt : Option Timestamp
  completedAt : Option Timestamp
  error : Option String
  traces : Option UInt64
  metrics : Option UInt64
  retries : UInt32
deriving BEq

namespace Run

/-- A pending run. -/
def new (id : Uuid) (benchmarkId agentId : String) (trigger : Trigger) : Run :=
  { id, benchmarkId, agentId, trigger, user := none, scheduleId := none, results := [], status := .pending,
    startedAt := none, completedAt := none, error := none, traces := none, metrics := none, retries := 0 }

def withUser (r : Run) (user : String) : Run := { r with user := some user }

def withSchedule (r : Run) (schedule : Uuid) : Run := { r with scheduleId := some schedule }

def withRetries (r : Run) (retries : UInt32) : Run := { r with retries }

def isTerminal (r : Run) : Bool := r.status.isTerminal

def refusal (r : Run) (action : Action) : Refusal := .invalidTransition r.id r.status action

def started (r : Run) (now : Timestamp) : Run := { r with status := .running, startedAt := some now }

def completed (r : Run) (traces metrics : UInt64) (now : Timestamp) : Run :=
  { r with status := .completed, completedAt := some now, traces := some traces, metrics := some metrics }

def failed (r : Run) (error : String) (now : Timestamp) : Run :=
  { r with status := .failed, completedAt := some now, error := some error }

def cancelled (r : Run) (now : Timestamp) : Run := { r with status := .cancelled, completedAt := some now }

def withProgress (r : Run) (traces metrics : UInt64) : Run :=
  { r with traces := some traces, metrics := some metrics }

/-- From pending to running. -/
def start (r : Run) (now : Timestamp) : Except Refusal Run :=
  if r.status = .pending then .ok (r.started now) else .error (r.refusal .start)

/-- From running to completed, with the final counts. -/
def complete (r : Run) (traces metrics : UInt64) (now : Timestamp) : Except Refusal Run :=
  if r.status = .running then .ok (r.completed traces metrics now) else .error (r.refusal .complete)

/-- From pending or running to failed, with the reason. -/
def fail (r : Run) (error : String) (now : Timestamp) : Except Refusal Run :=
  if r.isTerminal then .error (r.refusal .fail) else .ok (r.failed error now)

/-- From pending or running to cancelled. -/
def cancel (r : Run) (now : Timestamp) : Except Refusal Run :=
  if r.isTerminal then .error (r.refusal .cancel) else .ok (r.cancelled now)

/-- Sets the counts of a run that has not ended. -/
def updateProgress (r : Run) (traces metrics : UInt64) : Except Refusal Run :=
  if r.isTerminal then .error (r.refusal .updateProgress) else .ok (r.withProgress traces metrics)

/-- One more retry, in whichever status; the count stays at its greatest value once it is there. -/
def incrementRetry (r : Run) : Run := { r with retries := Count.next32 r.retries }

/-- How long the run took in milliseconds, zero unless it has both started and ended. -/
def durationMillis (r : Run) : Nat :=
  match r.startedAt, r.completedAt with
  | some start, some finish => Timestamp.millisBetween start finish
  | _, _ => 0

end Run

end Scorecard
