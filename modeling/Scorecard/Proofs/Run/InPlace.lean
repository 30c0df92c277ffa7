import Scorecard.Proofs.Run.Operation

/-!
Operations field by field. Here an operation changes a run in place: it looks at the status, and then sets
one field after the other, each of which is entered in a ledger. What was set before a refusal would stay
set. An operation looks before it sets anything, so this comes to what the operations compute at once, and
a refusal finds both the run and the ledger as they were.
-/
namespace Scorecard.Run

/-- A field of a run set to a value. -/
inductive Assignment where
  | status (s : Status)
  | startedAt (t : Timestamp)
  | completedAt (t : Timestamp)
  | error (message : String)
  | traces (n : UInt64)
  | metrics (n : UInt64)
  | retries (n : UInt32)

namespace Assignment

def apply (r : Run) : Assignment → Run
  | .status s => { r with status := s }
  | .startedAt t => { r with startedAt := some t }
  | .completedAt t => { r with completedAt := some t }
  | .error message => { r with error := some message }
  | .traces n => { r with traces := some n }
  | .metrics n => { r with metrics := some n }
  | .retries n => { r with retries := n }

def isStart : Assignment → Bool
  | .startedAt _ => true
  | _ => false

def isCompletion : Assignment → Bool
  | .completedAt _ => true
  | _ => false

end Assignment

/-- A run and the assignments that were made to it, in their order. -/
structure Ledger where
  run : Run
  entries : List Assignment

/-- Steps that change the run of a ledger and may be refused. -/
abbrev Steps := EStateM Refusal Ledger

/-- Refuses the action unless the status is right. -/
def guard (allowed : Status → Bool) (action : Action) : Steps Unit := fun l =>
  if allowed l.run.status then .ok () l else .error (l.run.refusal action) l

def assign (a : Assignment) : Steps Unit := fun l => .ok () ⟨a.apply l.run, l.entries ++ [a]⟩

def Request.inPlace : Request → Steps Unit
  | .start now => do
    guard (· = .pending) .start
    assign (.status .running)
    assign (.startedAt now)
  | .complete traces metrics now => do
    guard (· = .running) .complete
    assign (.status .completed)
    assign (.completedAt now)
    assign (.traces traces)
    assign (.metrics metrics)
  | .fail error now => do
    guard (!·.isTerminal) .fail
    assign (.status .failed)
    assign (.completedAt now)
    assign (.error error)
  | .cancel now => do
    guard (!·.isTerminal) .cancel
    assign (.status .cancelled)
    assign (.completedAt now)
  | .updateProgress traces metrics => do
    guard (!·.isTerminal) .updateProgress
    assign (.traces traces)
    assign (.metrics metrics)

def Operation.inPlace : Operation → Steps Unit
  | .request q => q.inPlace
  | .incrementRetry => fun l => assign (.retries (Count.next32 l.run.retries)) l

/-- The fields that a request sets if it is granted, with their values: the status, and the stamps, the
message or the counts that go with it. -/
def Request.assignments : Request → List Assignment
  | .start now => [.status .running, .startedAt now]
  | .complete traces metrics now => [.status .completed, .completedAt now, .traces traces, .metrics metrics]
  | .fail error now => [.status .failed, .completedAt now, .error error]
  | .cancel now => [.status .cancelled, .completedAt now]
  | .updateProgress traces metrics => [.traces traces, .metrics metrics]

def Operation.assignments (r : Run) : Operation → List Assignment
  | .request q => if r.status ∈ q.grantedIn then q.assignments else []
  | .incrementRetry => [.retries (Count.next32 r.retries)]

/-- The effect of a request is to set its fields. -/
theorem Request.effect_eq_foldl (q : Request) (r : Run) : q.effect r = q.assignments.foldl Assignment.apply r := by
  cases q <;> rfl

/-! ### In place and at once -/

/-- Steps behind a guard are taken if the guard lets them. -/
theorem run_guard_bind (allowed : Status → Bool) (action : Action) (next : Steps Unit) (l : Ledger) :
    (guard allowed action >>= fun _ => next).run l =
      if allowed l.run.status then next.run l else .error (l.run.refusal action) l := by
  unfold EStateM.run
  simp only [bind, EStateM.bind, guard]
  by_cases h : allowed l.run.status = true
  · simp only [h, if_true]
  · simp only [h]
    rfl

theorem run_assign (a : Assignment) (l : Ledger) : (assign a).run l = .ok () ⟨a.apply l.run, l.entries ++ [a]⟩ := rfl

theorem run_assign_bind (a : Assignment) (next : Steps Unit) (l : Ledger) :
    (assign a >>= fun _ => next).run l = next.run ⟨a.apply l.run, l.entries ++ [a]⟩ := rfl

theorem not_isTerminal_iff_mem {s : Status} : (!s.isTerminal) = true ↔ s ∈ [Status.pending, Status.running] := by
  rw [Bool.not_eq_true', Status.isTerminal_eq_false_iff_mem]

/-- In place a request does what it does at once, and it is entered with the fields that it sets. A refused
one has set nothing. -/
theorem Request.run_inPlace (q : Request) (l : Ledger) :
    q.inPlace.run l =
      if l.run.status ∈ q.grantedIn then .ok () ⟨q.effect l.run, l.entries ++ q.assignments⟩
      else .error (l.run.refusal q.action) l := by
  cases q with
  | start now =>
      rw [inPlace, run_guard_bind]
      refine if_congr (by rw [decide_eq_true_iff]; exact List.mem_singleton.symm) ?_ rfl
      rw [run_assign_bind, run_assign, List.append_assoc]
      rfl
  | complete traces metrics now =>
      rw [inPlace, run_guard_bind]
      refine if_congr (by rw [decide_eq_true_iff]; exact List.mem_singleton.symm) ?_ rfl
      rw [run_assign_bind, run_assign_bind, run_assign_bind, run_assign]
      simp only [List.append_assoc]
      rfl
  | fail error now =>
      rw [inPlace, run_guard_bind]
      refine if_congr not_isTerminal_iff_mem ?_ rfl
      rw [run_assign_bind, run_assign_bind, run_assign]
      simp only [List.append_assoc]
      rfl
  | cancel now =>
      rw [inPlace, run_guard_bind]
      refine if_congr not_isTerminal_iff_mem ?_ rfl
      rw [run_assign_bind, run_assign, List.append_assoc]
      rfl
  | updateProgress traces metrics =>
      rw [inPlace, run_guard_bind]
      refine if_congr not_isTerminal_iff_mem ?_ rfl
      rw [run_assign_bind, run_assign, List.append_assoc]
      rfl

/-- The ledger after an operation, which was granted or refused. -/
def Ledger.after (l : Ledger) (op : Operation) : Ledger :=
  match op.inPlace.run l with
  | .ok () l' => l'
  | .error _ l' => l'

def Ledger.afterAll (l : Ledger) (ops : List Operation) : Ledger := ops.foldl Ledger.after l

/-- An operation is entered with the fields that it sets. -/
theorem Ledger.after_eq (l : Ledger) (op : Operation) :
    l.after op = ⟨l.run.after op, l.entries ++ op.assignments l.run⟩ := by
  cases op with
  | request q =>
      rw [Ledger.after, Operation.inPlace, q.run_inPlace, Operation.assignments]
      by_cases hgranted : l.run.status ∈ q.grantedIn
      · rw [if_pos hgranted, if_pos hgranted, after_request_of_granted hgranted]
      · rw [if_neg hgranted, if_neg hgranted, after_request_of_refused hgranted, List.append_nil]
  | incrementRetry => rfl

/-- All that the operations on a run set, in order. -/
def entries (r : Run) : List Operation → List Assignment
  | [] => []
  | op :: ops => op.assignments r ++ entries (r.after op) ops

theorem Ledger.afterAll_eq (l : Ledger) (ops : List Operation) :
    l.afterAll ops = ⟨l.run.afterAll ops, l.entries ++ l.run.entries ops⟩ := by
  induction ops generalizing l with
  | nil => rw [Run.entries, List.append_nil]; rfl
  | cons op ops ih =>
      have hstep : l.afterAll (op :: ops) = (l.after op).afterAll ops := rfl
      rw [hstep, ih, l.after_eq, Run.entries, List.append_assoc]
      rfl

/-- What an operation makes of a run is what it sets. -/
theorem foldl_assignments (op : Operation) (r : Run) : (op.assignments r).foldl Assignment.apply r = r.after op := by
  cases op with
  | request q =>
      rw [Operation.assignments]
      by_cases hgranted : r.status ∈ q.grantedIn
      · rw [if_pos hgranted, after_request_of_granted hgranted, q.effect_eq_foldl]
      · rw [if_neg hgranted, after_request_of_refused hgranted, List.foldl_nil]
  | incrementRetry => rfl

theorem foldl_entries (r : Run) (ops : List Operation) : (r.entries ops).foldl Assignment.apply r = r.afterAll ops := by
  induction ops generalizing r with
  | nil => rfl
  | cons op ops ih => rw [entries, List.foldl_append, foldl_assignments, ih, afterAll_cons]

end Scorecard.Run
