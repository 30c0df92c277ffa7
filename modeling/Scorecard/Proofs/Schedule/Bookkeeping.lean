import Scorecard.Proofs.Schedule.Operation

/-!
The books of a schedule. Its counters and its last outcome can be read off its history: how many outcomes
were recorded, how many of them were failures, how many failures came after the last success or enabling,
and which outcome was the last. The counts are exact up to the greatest value of their words.
-/
namespace Scorecard.Schedule

/-! ### What a history says -/

/-- An outcome as it is recorded. -/
structure Entry where
  run : Option Uuid
  status : Run.Status
  time : Timestamp
deriving DecidableEq

namespace Operation

/-- What the operation records, if it records anything. -/
def recorded? : Operation → Option Entry
  | .enable | .disable | .setNextRun _ => none
  | .recordSuccess run now => some ⟨run, .completed, now⟩
  | .recordFailure run now => some ⟨run, .failed, now⟩
  | .recordOutcome run now =>
    match run.status with
    | .completed | .failed => some ⟨some run.id, run.status, now⟩
    | .pending | .running | .cancelled => none

/-- Whether the operation ends a row of failures. -/
def endsRow : Operation → Bool
  | .enable => true
  | op => op.recorded?.any fun e => e.status = .completed

theorem endsRow_of_recorded {op : Operation} {e : Entry} (h : op.recorded? = some e) :
    op.endsRow = decide (e.status = .completed) := by
  cases op with
  | enable | disable | setNextRun => cases h
  | recordSuccess | recordFailure | recordOutcome =>
      rw [endsRow]
      · rw [h]
        rfl
      · rintro ⟨⟩

end Operation

/-- The outcomes that a history records, in their order. -/
def entries (history : List Operation) : List Entry := history.filterMap Operation.recorded?

def failures (es : List Entry) : Nat := es.countP fun e => e.status = .failed

/-- The failures in a row at the end of a history, behind the last success or enabling. -/
def row (history : List Operation) : Nat := failures (entries (history.rtakeWhile fun op => !op.endsRow))

theorem failures_concat (es : List Entry) (e : Entry) :
    failures (es ++ [e]) = failures es + if e.status = .failed then 1 else 0 := by
  rw [failures, List.countP_append, List.countP_singleton]
  simp [failures]

section

variable {history : List Operation} {op : Operation}

theorem entries_concat (history : List Operation) (op : Operation) :
    entries (history ++ [op]) = entries history ++ op.recorded?.toList := by
  rw [entries, List.filterMap_append]
  cases h : op.recorded? with
  | none => rw [List.filterMap_cons_none h]; rfl
  | some e => rw [List.filterMap_cons_some h]; rfl

theorem row_concat_of_endsRow (h : op.endsRow = true) : row (history ++ [op]) = 0 := by
  rw [row, List.rtakeWhile_concat_neg _ _ _ (by simp [h])]
  rfl

theorem row_concat_of_not_endsRow (h : op.endsRow = false) :
    row (history ++ [op]) = row history + failures op.recorded?.toList := by
  rw [row, List.rtakeWhile_concat_pos _ _ _ (by simp [h]), entries_concat, failures, List.countP_append]
  rfl

/-- What is in the row is in the history. -/
theorem row_le (history : List Operation) : row history ≤ failures (entries history) := by
  have hsuffix : (history.rtakeWhile fun op => !op.endsRow) <:+ history := List.rtakeWhile_suffix _ _
  exact (hsuffix.sublist.filterMap _).countP_le

end

/-! ### What the books say -/

/-- The counters are those of the entries with `row` failures in a row at the end, and the last outcome is
the last entry. -/
structure Books (s : Schedule) (es : List Entry) (row : Nat) : Prop where
  runs : s.runCount.toNat = min es.length 0xffffffffffffffff
  failed : s.failureCount.toNat = min (failures es) 0xffffffffffffffff
  inRow : s.consecutiveFailures.toNat = min row 0xffffffff
  lastRun : s.lastRunId = es.getLast?.bind (·.run)
  lastStatus : s.lastRunStatus = es.getLast?.map (·.status)
  lastTime : s.lastRunAt = es.getLast?.map (·.time)

theorem Created.books {s : Schedule} (h : Created s) : s.Books [] 0 := by
  induction h with
  | new => exact ⟨rfl, rfl, rfl, rfl, rfl, rfl⟩
  | withCron _ _ ih => exact ⟨ih.runs, ih.failed, ih.inRow, ih.lastRun, ih.lastStatus, ih.lastTime⟩
  | withFailurePolicy _ _ _ ih => exact ⟨ih.runs, ih.failed, ih.inRow, ih.lastRun, ih.lastStatus, ih.lastTime⟩

namespace Books

variable {s : Schedule} {es : List Entry} {n : Nat} {history : List Operation}

/-- The switch is not in the books. -/
theorem disable (h : s.Books es n) : s.disable.Books es n :=
  ⟨h.runs, h.failed, h.inRow, h.lastRun, h.lastStatus, h.lastTime⟩

theorem setNextRun (h : s.Books es n) (time : Option Timestamp) : (s.setNextRun time).Books es n :=
  ⟨h.runs, h.failed, h.inRow, h.lastRun, h.lastStatus, h.lastTime⟩

theorem enable (h : s.Books es n) : s.enable.Books es 0 :=
  ⟨h.runs, h.failed, rfl, h.lastRun, h.lastStatus, h.lastTime⟩

theorem recordSuccess (h : s.Books es n) (run : Option Uuid) (now : Timestamp) :
    (s.recordSuccess run now).schedule.Books (es ++ [⟨run, .completed, now⟩]) 0 := by
  refine ⟨?_, ?_, rfl, ?_, ?_, ?_⟩
  · show (Count.next64 s.runCount).toNat = _
    rw [Count.toNat_next64, h.runs, List.length_append, List.length_singleton]
    omega
  · rw [failures_concat]
    exact h.failed
  · rw [List.getLast?_concat]
    rfl
  · rw [List.getLast?_concat]
    rfl
  · rw [List.getLast?_concat]
    rfl

theorem countFailure (h : s.Books es n) (run : Option Uuid) (now : Timestamp) :
    (s.countFailure run now).Books (es ++ [⟨run, .failed, now⟩]) (n + 1) := by
  refine ⟨?_, ?_, ?_, ?_, ?_, ?_⟩
  · show (Count.next64 s.runCount).toNat = _
    rw [Count.toNat_next64, h.runs, List.length_append, List.length_singleton]
    omega
  · show (Count.next64 s.failureCount).toNat = _
    rw [Count.toNat_next64, h.failed, failures_concat, if_pos rfl]
    omega
  · show (Count.next32 s.consecutiveFailures).toNat = _
    rw [Count.toNat_next32, h.inRow]
    omega
  · rw [List.getLast?_concat]
    rfl
  · rw [List.getLast?_concat]
    rfl
  · rw [List.getLast?_concat]
    rfl

/-- Whether the breaker trips makes no difference to the books. -/
theorem recordFailure (h : s.Books es n) (run : Option Uuid) (now : Timestamp) :
    (s.recordFailure run now).schedule.Books (es ++ [⟨run, .failed, now⟩]) (n + 1) := by
  cases htrips : (s.countFailure run now).trips with
  | true =>
      rw [(recordFailure_of_trips htrips).1]
      exact (h.countFailure run now).disable
  | false =>
      rw [(recordFailure_of_not_trips htrips).1]
      exact h.countFailure run now

/-- An operation that records nothing and ends no row leaves the books of the history as they are. -/
theorem concat_of_silent (h : s.Books (entries history) (row history)) {op : Operation}
    (hrecorded : op.recorded? = none) (hrow : op.endsRow = false) :
    s.Books (entries (history ++ [op])) (row (history ++ [op])) := by
  rw [entries_concat, row_concat_of_not_endsRow hrow, hrecorded, Option.toList_none, List.append_nil]
  exact h

/-- The books of a history that goes on with a success. -/
theorem concat_of_completed {t : Schedule} {e : Entry} (h : t.Books (entries history ++ [e]) 0) {op : Operation}
    (hrecorded : op.recorded? = some e) (hstatus : e.status = .completed) :
    t.Books (entries (history ++ [op])) (row (history ++ [op])) := by
  have hrow : op.endsRow = true := by rw [Operation.endsRow_of_recorded hrecorded, hstatus]; rfl
  rw [entries_concat, row_concat_of_endsRow hrow, hrecorded]
  exact h

/-- The books of a history that goes on with a failure. -/
theorem concat_of_failed {t : Schedule} {e : Entry} (h : t.Books (entries history ++ [e]) (row history + 1))
    {op : Operation} (hrecorded : op.recorded? = some e) (hstatus : e.status = .failed) :
    t.Books (entries (history ++ [op])) (row (history ++ [op])) := by
  have hrow : op.endsRow = false := by rw [Operation.endsRow_of_recorded hrecorded, hstatus]; rfl
  have hone : failures [e] = 1 := by rw [failures, List.countP_singleton, hstatus]; rfl
  rw [entries_concat, row_concat_of_not_endsRow hrow, hrecorded, Option.toList_some, hone]
  exact h

/-- Every operation keeps the books. -/
theorem after (h : s.Books (entries history) (row history)) (op : Operation) :
    (s.after op).Books (entries (history ++ [op])) (row (history ++ [op])) := by
  cases op with
  | enable =>
      rw [entries_concat, row_concat_of_endsRow rfl, Operation.recorded?, Option.toList_none, List.append_nil]
      exact h.enable
  | disable => exact h.disable.concat_of_silent rfl rfl
  | setNextRun time => exact (h.setNextRun time).concat_of_silent rfl rfl
  | recordSuccess run now => exact (h.recordSuccess run now).concat_of_completed rfl rfl
  | recordFailure run now => exact (h.recordFailure run now).concat_of_failed rfl rfl
  | recordOutcome run now =>
      rw [Schedule.after, recordOutcome]
      cases hstatus : run.status with
      | completed =>
          have hrecorded : (Operation.recordOutcome run now).recorded? = some ⟨some run.id, .completed, now⟩ := by
            rw [Operation.recorded?, hstatus]
          exact (h.recordSuccess (some run.id) now).concat_of_completed hrecorded rfl
      | failed =>
          have hrecorded : (Operation.recordOutcome run now).recorded? = some ⟨some run.id, .failed, now⟩ := by
            rw [Operation.recorded?, hstatus]
          exact (h.recordFailure (some run.id) now).concat_of_failed hrecorded rfl
      | pending | running | cancelled =>
          have hrecorded : (Operation.recordOutcome run now).recorded? = none := by rw [Operation.recorded?, hstatus]
          refine h.concat_of_silent hrecorded ?_
          rw [Operation.endsRow]
          · rw [hrecorded]
            rfl
          · rintro ⟨⟩

theorem afterAll (h : s.Books (entries history) (row history)) (ops : List Operation) :
    (s.afterAll ops).Books (entries (history ++ ops)) (row (history ++ ops)) := by
  induction ops generalizing s history with
  | nil =>
      rw [List.append_nil]
      exact h
  | cons op ops ih =>
      rw [List.append_cons]
      exact ih (h.after op)

end Books

theorem recordOutcome_of_silent {run : Run}
    (h : run.status = .pending ∨ run.status = .running ∨ run.status = .cancelled) (s : Schedule) (now : Timestamp) :
    s.recordOutcome run now = ⟨s, false, []⟩ := by
  rw [recordOutcome]
  rcases h with h | h | h
  all_goals rw [h]

/-- The books of a schedule agree with its history, whatever happened to it since it was made. A run that was
cancelled or has not ended leaves no trace in any field. So the failures in a row are no more than all
failures, and these no more than all outcomes. -/
theorem books_agree_with_history (s : Schedule) (hcreated : Created s) (history : List Operation) :
    (s.afterAll history).Books (entries history) (row history) ∧
      (∀ run now, run.status = .pending ∨ run.status = .running ∨ run.status = .cancelled →
        (s.afterAll history).recordOutcome run now = ⟨s.afterAll history, false, []⟩) ∧
      (s.afterAll history).consecutiveFailures.toNat ≤ (s.afterAll history).failureCount.toNat ∧
      (s.afterAll history).failureCount ≤ (s.afterAll history).runCount := by
  have hnew : s.Books (entries []) (row []) := hcreated.books
  have hbooks : (s.afterAll history).Books (entries history) (row history) := hnew.afterAll history
  refine ⟨hbooks, fun run now hstatus => recordOutcome_of_silent hstatus _ now, ?_⟩
  have hrow := row_le history
  have hfailures : failures (entries history) ≤ (entries history).length := List.countP_le_length
  rw [UInt64.le_iff_toNat_le, hbooks.inRow, hbooks.failed, hbooks.runs]
  omega

/-- A schedule that never switches itself off, with four failures, of which the last two came after a success
and the last one after an enabling, and a run that was cancelled at the end. -/
theorem books_agree_with_history_of_cancelled_run :
    let noon : Timestamp := ⟨1583064000, 0, by decide, by decide⟩
    let s := (Schedule.new ⟨1⟩ noon "nightly" "bench-1" "agent-1").withFailurePolicy 2 false
    let failure := Operation.recordFailure none noon
    let cancelled := ((s.createRun ⟨2⟩).cancelled noon)
    let history := [failure, failure, .recordSuccess (some ⟨3⟩) noon, failure, .enable, failure,
      .recordOutcome cancelled noon]
    Created s ∧ (entries history).length = 5 ∧ failures (entries history) = 4 ∧ row history = 1 ∧
      (s.afterAll history).Books (entries history) (row history) ∧
      (s.afterAll history).recordOutcome cancelled noon = ⟨s.afterAll history, false, []⟩ := by
  intro noon s failure cancelled history
  have hcreated : Created s := (Created.new ⟨1⟩ noon "nightly" "bench-1" "agent-1").withFailurePolicy 2 false
  obtain ⟨hbooks, hsilent, -⟩ := books_agree_with_history s hcreated history
  exact ⟨hcreated, by decide, by decide, by decide, hbooks, hsilent cancelled noon (.inr (.inr rfl))⟩

end Scorecard.Schedule
