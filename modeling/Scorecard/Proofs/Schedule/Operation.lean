import Mathlib
import Scorecard.Schedule.Basic

/-!
Histories of schedules. What can be done to a schedule is written down as data, so that a history is a
list, and so is what an operation answers. Recording how a run ended comes to recording a success, a
failure or nothing, and a failure is counted before the breaker is looked at.
-/
namespace Scorecard.Schedule

/-- A schedule before anything has happened to it, with whatever policy. -/
inductive Created : Schedule → Prop
  | new (id : Uuid) (createdAt : Timestamp) (name benchmarkId agentId : String) :
      Created (.new id createdAt name benchmarkId agentId)
  | withCron {s : Schedule} (h : Created s) (expression : String) : Created (s.withCron expression)
  | withFailurePolicy {s : Schedule} (h : Created s) (maxConsecutiveFailures : UInt32) (autoDisable : Bool) :
      Created (s.withFailurePolicy maxConsecutiveFailures autoDisable)

inductive Operation where
  | enable
  | disable
  | setNextRun (time : Option Timestamp)
  | recordSuccess (run : Option Uuid) (now : Timestamp)
  | recordFailure (run : Option Uuid) (now : Timestamp)
  | recordOutcome (run : Run) (now : Timestamp)

namespace Operation

def isRecording : Operation → Bool
  | .enable | .disable | .setNextRun _ => false
  | .recordSuccess .. | .recordFailure .. | .recordOutcome .. => true

/-- Whether the operation answers that it has switched the schedule off. Only the recording of failures
and outcomes has an answer. -/
def tripped (s : Schedule) : Operation → Bool
  | .enable | .disable | .setNextRun _ | .recordSuccess .. => false
  | .recordFailure run now => (s.recordFailure run now).tripped
  | .recordOutcome run now => (s.recordOutcome run now).tripped

end Operation

/-- The schedule after an operation. -/
def after (s : Schedule) : Operation → Schedule
  | .enable => s.enable
  | .disable => s.disable
  | .setNextRun time => s.setNextRun time
  | .recordSuccess run now => (s.recordSuccess run now).schedule
  | .recordFailure run now => (s.recordFailure run now).schedule
  | .recordOutcome run now => (s.recordOutcome run now).schedule

def afterAll (s : Schedule) (ops : List Operation) : Schedule := ops.foldl after s

@[simp] theorem afterAll_nil (s : Schedule) : s.afterAll [] = s := rfl

@[simp] theorem afterAll_cons (s : Schedule) (op : Operation) (ops : List Operation) :
    s.afterAll (op :: ops) = (s.after op).afterAll ops := rfl

theorem afterAll_append (s : Schedule) (ops ops' : List Operation) :
    s.afterAll (ops ++ ops') = (s.afterAll ops).afterAll ops' := List.foldl_append

/-! ### Recording -/

theorem recordFailure_of_trips {s : Schedule} {run : Option Uuid} {now : Timestamp}
    (h : (s.countFailure run now).trips = true) :
    (s.recordFailure run now).schedule = (s.countFailure run now).disable ∧ (s.recordFailure run now).tripped = true := by
  rw [recordFailure]
  rw [if_pos h]
  exact ⟨rfl, rfl⟩

theorem recordFailure_of_not_trips {s : Schedule} {run : Option Uuid} {now : Timestamp}
    (h : (s.countFailure run now).trips = false) :
    (s.recordFailure run now).schedule = s.countFailure run now ∧ (s.recordFailure run now).tripped = false := by
  rw [recordFailure]
  rw [if_neg (by rw [h]; exact Bool.false_ne_true)]
  exact ⟨rfl, rfl⟩

/-- The outcome of a run is recorded as a success, as a failure, or not at all. -/
theorem recordOutcome_cases (s : Schedule) (run : Run) (now : Timestamp) :
    s.recordOutcome run now = s.recordSuccess (some run.id) now ∨
      s.recordOutcome run now = s.recordFailure (some run.id) now ∨ s.recordOutcome run now = ⟨s, false, []⟩ := by
  unfold recordOutcome
  cases run.status with
  | completed => exact .inl rfl
  | failed => exact .inr (.inl rfl)
  | pending | running | cancelled => exact .inr (.inr rfl)

end Scorecard.Schedule
