import Scorecard.Proofs.Run.InPlace

/-!
The one way through the life of a run. From any run whatsoever, each request is granted in its statuses
only and sets its own fields only. Over a history the start and the completion are each set at most once,
because the request that sets them takes the run to a status that does not grant it again. A run that has
ended stays as it is, but for the count of its retries.
-/
namespace Scorecard.Run

/-- What one request does to a run: it is granted exactly in its statuses, and then sets its fields and no
others; a refusal names the run and its status, and leaves every field alone. -/
structure Request.Guarded (q : Request) (r : Run) : Prop where
  granted_iff : (∃ r', q.apply r = .ok r') ↔ r.status ∈ q.grantedIn
  granted : ∀ r', q.apply r = .ok r' →
    r' = q.assignments.foldl Assignment.apply r ∧
      ∀ entries, q.inPlace.run ⟨r, entries⟩ = .ok () ⟨r', entries ++ q.assignments⟩
  refused : ∀ refusal, q.apply r = .error refusal →
    refusal = .invalidTransition r.id r.status q.action ∧
      ∀ entries, q.inPlace.run ⟨r, entries⟩ = .error refusal ⟨r, entries⟩

theorem Request.guarded (q : Request) (r : Run) : q.Guarded r := by
  by_cases hgranted : r.status ∈ q.grantedIn
  · have happly : q.apply r = .ok (q.effect r) := by rw [q.apply_eq, if_pos hgranted]
    have hinPlace (entries : List Assignment) :
        q.inPlace.run ⟨r, entries⟩ = .ok () ⟨q.effect r, entries ++ q.assignments⟩ := by
      rw [q.run_inPlace, if_pos hgranted]
    refine ⟨⟨fun _ => hgranted, fun _ => ⟨_, happly⟩⟩, fun r' h => ?_, fun refusal h => ?_⟩
    · obtain rfl : q.effect r = r' := Except.ok.inj (happly.symm.trans h)
      exact ⟨q.effect_eq_foldl r, hinPlace⟩
    · rw [happly] at h
      cases h
  · have happly : q.apply r = .error (r.refusal q.action) := by rw [q.apply_eq, if_neg hgranted]
    have hinPlace (entries : List Assignment) :
        q.inPlace.run ⟨r, entries⟩ = .error (r.refusal q.action) ⟨r, entries⟩ := by
      rw [q.run_inPlace, if_neg hgranted]
    refine ⟨⟨fun ⟨r', h⟩ => ?_, fun h => absurd h hgranted⟩, fun r' h => ?_, fun refusal h => ?_⟩
    · rw [happly] at h
      cases h
    · rw [happly] at h
      cases h
    · obtain rfl : r.refusal q.action = refusal := Except.error.inj (happly.symm.trans h)
      exact ⟨rfl, hinPlace⟩

/-! ### Single operations -/

/-- The ways of a status: it stays, goes from pending to running, or ends. -/
inductive Status.Moves : Status → Status → Prop
  | stays (s : Status) : Moves s s
  | starts : Moves .pending .running
  | ends {s t : Status} (hs : s.isTerminal = false) (ht : t.isTerminal = true) : Moves s t

theorem isTerminal_eq_false_of_granted {r : Run} {q : Request} (h : r.status ∈ q.grantedIn) : r.isTerminal = false := by
  rw [isTerminal, Status.isTerminal_eq_false_iff]
  cases q <;> simp [Request.grantedIn] at h <;> simp [h]

theorem moves_after (r : Run) (op : Operation) : Status.Moves r.status (r.after op).status := by
  cases op with
  | request q =>
      by_cases hgranted : r.status ∈ q.grantedIn
      · have hbefore : r.status.isTerminal = false := isTerminal_eq_false_of_granted hgranted
        rw [after_request_of_granted hgranted]
        cases q with
        | start now =>
            rw [List.mem_singleton.mp hgranted]
            exact .starts
        | complete traces metrics now => exact .ends hbefore rfl
        | fail error now => exact .ends hbefore rfl
        | cancel now => exact .ends hbefore rfl
        | updateProgress traces metrics => exact .stays _
      · rw [after_request_of_refused hgranted]
        exact .stays _
  | incrementRetry => exact .stays _

/-- A run that has ended grants nothing. -/
theorem after_of_isTerminal {r : Run} (h : r.isTerminal = true) (op : Operation) :
    r.after op = { r with retries := (r.after op).retries } := by
  cases op with
  | request q =>
      have hrefused : r.status ∉ q.grantedIn := by
        intro hgranted
        rw [isTerminal_eq_false_of_granted hgranted] at h
        cases h
      rw [after_request_of_refused hrefused]
  | incrementRetry => rfl

/-- How often the start can still be set. -/
def startsLeft (r : Run) : Nat := if r.status = .pending then 1 else 0

/-- How often the completion can still be set. -/
def completionsLeft (r : Run) : Nat := if r.isTerminal then 0 else 1

/-- Setting the start uses up the one chance of a pending run. -/
theorem countP_isStart_assignments (op : Operation) (r : Run) :
    (op.assignments r).countP Assignment.isStart + (r.after op).startsLeft ≤ r.startsLeft := by
  cases op with
  | request q =>
      rw [Operation.assignments]
      by_cases hgranted : r.status ∈ q.grantedIn
      · rw [if_pos hgranted, after_request_of_granted hgranted]
        cases q with
        | start now =>
            rw [startsLeft.eq_1 r, if_pos (List.mem_singleton.mp hgranted)]
            exact le_rfl
        | complete traces metrics now => exact Nat.zero_le _
        | fail error now => exact Nat.zero_le _
        | cancel now => exact Nat.zero_le _
        | updateProgress traces metrics => exact (Nat.zero_add _).le
      · rw [if_neg hgranted, after_request_of_refused hgranted]
        exact (Nat.zero_add _).le
  | incrementRetry => exact (Nat.zero_add _).le

/-- Setting the completion ends the run. -/
theorem countP_isCompletion_assignments (op : Operation) (r : Run) :
    (op.assignments r).countP Assignment.isCompletion + (r.after op).completionsLeft ≤ r.completionsLeft := by
  cases op with
  | request q =>
      rw [Operation.assignments]
      by_cases hgranted : r.status ∈ q.grantedIn
      · have hone : r.completionsLeft = 1 := by
          rw [completionsLeft, isTerminal_eq_false_of_granted hgranted]
          rfl
        rw [if_pos hgranted, after_request_of_granted hgranted]
        cases q with
        | start now => exact hone.ge
        | complete traces metrics now => exact hone.ge
        | fail error now => exact hone.ge
        | cancel now => exact hone.ge
        | updateProgress traces metrics => exact (Nat.zero_add _).le
      · rw [if_neg hgranted, after_request_of_refused hgranted]
        exact (Nat.zero_add _).le
  | incrementRetry => exact (Nat.zero_add _).le

/-! ### Histories -/

/-- What can be set only as often as a run has chances left is set no more often in a history. -/
theorem countP_entries_le {p : Assignment → Bool} {left : Run → Nat}
    (hstep : ∀ op r, (Operation.assignments r op).countP p + left (r.after op) ≤ left r) (r : Run) (ops : List Operation) :
    (r.entries ops).countP p ≤ left r := by
  induction ops generalizing r with
  | nil => exact Nat.zero_le _
  | cons op ops ih =>
      rw [entries, List.countP_append]
      exact (Nat.add_le_add_left (ih (r.after op)) _).trans (hstep op r)

/-- The statuses of a run after each operation. -/
def laterStatuses (r : Run) : List Operation → List Status
  | [] => []
  | op :: ops => (r.after op).status :: laterStatuses (r.after op) ops

theorem isChain_statuses (r : Run) (ops : List Operation) :
    (r.status :: r.laterStatuses ops).IsChain Status.Moves := by
  induction ops generalizing r with
  | nil => exact .singleton _
  | cons op ops ih => exact .cons_cons (moves_after r op) (ih (r.after op))

theorem afterAll_of_isTerminal {r : Run} (h : r.isTerminal = true) (ops : List Operation) :
    r.afterAll ops = { r with retries := (r.afterAll ops).retries } := by
  induction ops generalizing r with
  | nil => rfl
  | cons op ops ih =>
      have hafter := after_of_isTerminal h op
      have hterminal : (r.after op).isTerminal = true := by
        rw [hafter]
        exact h
      rw [afterAll_cons]
      refine (ih hterminal).trans ?_
      rw [hafter]

/-- What a history of a run comes to. The ledger holds all that was set and shows the run that the
operations make. -/
structure Irreversible (r : Run) (ops : List Operation) (l : Ledger) : Prop where
  run : l.run = r.afterAll ops
  entries : l.entries.foldl Assignment.apply r = r.afterAll ops
  start_once : l.entries.countP Assignment.isStart ≤ 1
  completion_once : l.entries.countP Assignment.isCompletion ≤ 1
  moves : (r.status :: r.laterStatuses ops).IsChain Status.Moves
  ended : ∀ before later, ops = before ++ later → (r.afterAll before).isTerminal = true →
    r.afterAll ops = { r.afterAll before with retries := (r.afterAll ops).retries }

theorem irreversible (r : Run) (ops : List Operation) : r.Irreversible ops ((⟨r, []⟩ : Ledger).afterAll ops) := by
  rw [Ledger.afterAll_eq]
  dsimp only
  rw [List.nil_append]
  have hstarts : r.startsLeft ≤ 1 := by
    unfold startsLeft
    split <;> omega
  have hcompletions : r.completionsLeft ≤ 1 := by
    unfold completionsLeft
    split <;> omega
  refine ⟨rfl, foldl_entries r ops, ?_, ?_, isChain_statuses r ops, ?_⟩
  · exact (countP_entries_le countP_isStart_assignments r ops).trans hstarts
  · exact (countP_entries_le countP_isCompletion_assignments r ops).trans hcompletions
  · rintro before later rfl hended
    rw [afterAll_append]
    exact afterAll_of_isTerminal hended later

/-- Whatever run it starts from, each request is guarded, and each history is irreversible. -/
theorem guarded_and_irreversible (r : Run) (ops : List Operation) :
    (∀ q : Request, q.Guarded r) ∧ r.Irreversible ops ((⟨r, []⟩ : Ledger).afterAll ops) :=
  ⟨fun q => q.guarded r, irreversible r ops⟩

end Scorecard.Run
