import Mathlib
import Scorecard.Run.Basic

/-!
Histories of runs. What can be done to a run is written down as data, so that a history is a list. A
request is granted in some statuses and refused in the others; a refused request leaves the run as it is.
All that a request can do is said by one equation.
-/
namespace Scorecard.Run

/-- What the status of a run may not allow. -/
inductive Request where
  | start (now : Timestamp)
  | complete (traces metrics : UInt64) (now : Timestamp)
  | fail (error : String) (now : Timestamp)
  | cancel (now : Timestamp)
  | updateProgress (traces metrics : UInt64)

inductive Operation where
  | request (q : Request)
  | incrementRetry

namespace Request

def action : Request → Action
  | .start _ => .start
  | .complete .. => .complete
  | .fail .. => .fail
  | .cancel _ => .cancel
  | .updateProgress .. => .updateProgress

def apply (r : Run) : Request → Except Refusal Run
  | .start now => r.start now
  | .complete traces metrics now => r.complete traces metrics now
  | .fail error now => r.fail error now
  | .cancel now => r.cancel now
  | .updateProgress traces metrics => r.updateProgress traces metrics

/-- The statuses in which the request is granted. -/
def grantedIn : Request → List Status
  | .start _ => [.pending]
  | .complete .. => [.running]
  | .fail .. | .cancel _ | .updateProgress .. => [.pending, .running]

/-- What the request makes of a run if it is granted. -/
def effect (r : Run) : Request → Run
  | .start now => r.started now
  | .complete traces metrics now => r.completed traces metrics now
  | .fail error now => r.failed error now
  | .cancel now => r.cancelled now
  | .updateProgress traces metrics => r.withProgress traces metrics

end Request

theorem Status.isTerminal_eq_false_iff {s : Status} : s.isTerminal = false ↔ s = .pending ∨ s = .running := by
  cases s <;> decide

theorem Status.isTerminal_eq_false_iff_mem {s : Status} : s.isTerminal = false ↔ s ∈ [Status.pending, Status.running] := by
  rw [isTerminal_eq_false_iff, List.mem_cons, List.mem_singleton]

/-- A run that has not ended is one that may still fail, be cancelled or make progress. -/
theorem ite_isTerminal {α : Sort _} (r : Run) (a b : α) :
    (if r.isTerminal then a else b) = if r.status ∈ [Status.pending, Status.running] then b else a := by
  have hmem : r.status ∈ [Status.pending, Status.running] ↔ r.isTerminal = false :=
    Status.isTerminal_eq_false_iff_mem.symm
  cases hterminal : r.isTerminal with
  | true => rw [if_pos rfl, if_neg (by rw [hmem, hterminal]; exact Bool.noConfusion)]
  | false => rw [if_neg Bool.false_ne_true, if_pos (hmem.mpr hterminal)]

/-- A request is granted with its effect in the statuses that grant it, and refused in the others. -/
theorem Request.apply_eq (q : Request) (r : Run) :
    q.apply r = if r.status ∈ q.grantedIn then .ok (q.effect r) else .error (r.refusal q.action) := by
  cases q with
  | start now => exact if_congr List.mem_singleton.symm rfl rfl
  | complete traces metrics now => exact if_congr List.mem_singleton.symm rfl rfl
  | fail error now => exact ite_isTerminal r _ _
  | cancel now => exact ite_isTerminal r _ _
  | updateProgress traces metrics => exact ite_isTerminal r _ _

/-- The run after an operation, which was granted or refused. -/
def after (r : Run) : Operation → Run
  | .request q =>
    match q.apply r with
    | .ok r' => r'
    | .error _ => r
  | .incrementRetry => r.incrementRetry

def afterAll (r : Run) (ops : List Operation) : Run := ops.foldl after r

theorem after_request_of_granted {r : Run} {q : Request} (h : r.status ∈ q.grantedIn) :
    r.after (.request q) = q.effect r := by
  rw [after, q.apply_eq, if_pos h]

theorem after_request_of_refused {r : Run} {q : Request} (h : r.status ∉ q.grantedIn) :
    r.after (.request q) = r := by
  rw [after, q.apply_eq, if_neg h]

@[simp] theorem afterAll_nil (r : Run) : r.afterAll [] = r := rfl

@[simp] theorem afterAll_cons (r : Run) (op : Operation) (ops : List Operation) :
    r.afterAll (op :: ops) = (r.after op).afterAll ops := rfl

theorem afterAll_append (r : Run) (ops ops' : List Operation) :
    r.afterAll (ops ++ ops') = (r.afterAll ops).afterAll ops' := List.foldl_append

end Scorecard.Run
