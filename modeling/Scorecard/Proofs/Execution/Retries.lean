import Scorecard.Execution.Retry
import Scorecard.Proofs.Execution.Scheduled
import Scorecard.Proofs.Run.Operation

/-!
Retries are bounded. A retry takes one of the retries that its run has left, and the run that it makes starts with
the rest of them; nothing else that happens to a run, an execution included, gives any back. So a chain of runs,
each a retry of the one before, is no longer than the limit allows.
-/
namespace Scorecard.Execution

/-! ### Single retries -/

/-- The run is made to repeat the other one: nothing has happened to it, and its count is the next number. -/
structure Repeats (previous retry : Run) : Prop where
  status : retry.status = .pending
  trigger : retry.trigger = .manual
  benchmark : retry.benchmarkId = previous.benchmarkId
  agent : retry.agentId = previous.agentId
  schedule : retry.scheduleId = none
  results : retry.results = []
  unstamped : retry.startedAt = none ∧ retry.completedAt = none ∧ retry.error = none
  uncounted : retry.traces = none ∧ retry.metrics = none
  retries : retry.retries.toNat = previous.retries.toNat + 1

/-- Steps that have the previous run at hand, which they might change, and may be refused. -/
abbrev RetrySteps := EStateM Run.Refusal Run

def refuseIf (refused : Prop) [Decidable refused] (refusal : Run.Refusal) : RetrySteps Unit :=
  if refused then throw refusal else pure ()

namespace Executor

/-- Retrying step by step: the status is looked at, then the count, and then a new run is made. -/
def retryInPlace (x : Executor) (id : Uuid) : RetrySteps Run := do
  let previous ← get
  refuseIf (previous.status ≠ .failed ∧ previous.status ≠ .cancelled) (previous.refusal .retry)
  refuseIf (x.settings.maxRetries ≤ previous.retries) (.retryLimitExceeded previous.id x.settings.maxRetries)
  let retry := (Run.new id previous.benchmarkId previous.agentId .manual).withUser "retry"
  return retry.withRetries (previous.retries + 1)

/-- How many retries a run has left. -/
def retriesLeft (x : Executor) (r : Run) : Nat := x.settings.maxRetries.toNat - r.retries.toNat

end Executor

/-- Whether a run may be retried depends on its status, and then on its count; a refusal tells which of the two
forbids it. The previous run stays as it is. -/
structure Retried (x : Executor) (id : Uuid) (previous : Run) : Prop where
  granted_iff : (∃ retry, x.retry id previous = .ok retry) ↔
    (previous.status = .failed ∨ previous.status = .cancelled) ∧ previous.retries < x.settings.maxRetries
  granted : ∀ retry, x.retry id previous = .ok retry → retry.id = id ∧ Repeats previous retry
  unfit : ¬(previous.status = .failed ∨ previous.status = .cancelled) →
    x.retry id previous = .error (.invalidTransition previous.id previous.status .retry)
  exceeded : previous.status = .failed ∨ previous.status = .cancelled → x.settings.maxRetries ≤ previous.retries →
    x.retry id previous = .error (.retryLimitExceeded previous.id x.settings.maxRetries)
  inPlace : (x.retryInPlace id).run previous =
    match x.retry id previous with
    | .ok retry => .ok retry previous
    | .error refusal => .error refusal previous

section

variable (x : Executor) (id : Uuid) (previous : Run)

theorem retry_of_unfit (h : ¬(previous.status = .failed ∨ previous.status = .cancelled)) :
    x.retry id previous = .error (previous.refusal .retry) := by
  unfold Executor.retry
  cases hstatus : previous.status with
  | failed => exact absurd (.inl hstatus) h
  | cancelled => exact absurd (.inr hstatus) h
  | pending | running | completed => rfl

theorem retry_of_fit (h : previous.status = .failed ∨ previous.status = .cancelled) :
    x.retry id previous =
      if previous.retries < x.settings.maxRetries then
        .ok (((Run.new id previous.benchmarkId previous.agentId .manual).withUser "retry").withRetries
          (previous.retries + 1))
      else .error (.retryLimitExceeded previous.id x.settings.maxRetries) := by
  unfold Executor.retry
  rcases h with h | h
  all_goals
    rw [h]

/-- Below the limit there is a next number. -/
theorem toNat_add_one_of_lt {n limit : UInt32} (h : n < limit) : (n + 1).toNat = n.toNat + 1 := by
  have hlt := UInt32.lt_iff_toNat_lt.mp h
  have hlimit := limit.toNat_lt
  rw [UInt32.toNat_add, UInt32.toNat_one]
  omega

variable {x id previous}

theorem retry_eq_ok {retry : Run} (h : x.retry id previous = .ok retry) :
    (previous.status = .failed ∨ previous.status = .cancelled) ∧ previous.retries < x.settings.maxRetries ∧
      retry.id = id ∧ Repeats previous retry := by
  by_cases hfit : previous.status = .failed ∨ previous.status = .cancelled
  · rw [retry_of_fit x id previous hfit] at h
    split at h
    · next hlt =>
        obtain rfl := Except.ok.inj h
        exact ⟨hfit, hlt, rfl, rfl, rfl, rfl, rfl, rfl, rfl, ⟨rfl, rfl, rfl⟩, ⟨rfl, rfl⟩, toNat_add_one_of_lt hlt⟩
    · cases h
  · rw [retry_of_unfit x id previous hfit] at h
    cases h

end

/-- Steps behind a check are taken unless the check refuses. -/
theorem run_refuseIf_bind (refused : Prop) [Decidable refused] (refusal : Run.Refusal) (next : RetrySteps Run)
    (r : Run) : (refuseIf refused refusal >>= fun _ => next).run r = if refused then .error refusal r else next.run r := by
  unfold refuseIf
  split <;> rfl

/-- A refusal finds the previous run as it was, and so does the new run. -/
theorem run_retryInPlace (x : Executor) (id : Uuid) (previous : Run) :
    (x.retryInPlace id).run previous =
      match x.retry id previous with
      | .ok retry => .ok retry previous
      | .error refusal => .error refusal previous := by
  have hget (next : Run → RetrySteps Run) : (get >>= next).run previous = (next previous).run previous := rfl
  rw [Executor.retryInPlace, hget, run_refuseIf_bind, run_refuseIf_bind]
  by_cases hfit : previous.status = .failed ∨ previous.status = .cancelled
  · have hstatus : ¬(previous.status ≠ .failed ∧ previous.status ≠ .cancelled) := by
      rwa [not_and_or, not_not, not_not]
    rw [if_neg hstatus, retry_of_fit x id previous hfit]
    by_cases hlt : previous.retries < x.settings.maxRetries
    · rw [if_neg (UInt32.not_le.mpr hlt), if_pos hlt]
      rfl
    · rw [if_pos (UInt32.not_lt.mp hlt), if_neg hlt]
  · rw [if_pos (not_or.mp hfit), retry_of_unfit x id previous hfit]

theorem retried (x : Executor) (id : Uuid) (previous : Run) : Retried x id previous where
  granted_iff := by
    constructor
    · rintro ⟨retry, hretry⟩
      obtain ⟨hfit, hlt, -⟩ := retry_eq_ok hretry
      exact ⟨hfit, hlt⟩
    · rintro ⟨hfit, hlt⟩
      rw [retry_of_fit x id previous hfit, if_pos hlt]
      exact ⟨_, rfl⟩
  granted retry hretry := (retry_eq_ok hretry).2.2
  unfit hunfit := retry_of_unfit x id previous hunfit
  exceeded hfit hlimit := by
    have hnot : ¬previous.retries < x.settings.maxRetries := UInt32.not_lt.mpr hlimit
    rw [retry_of_fit x id previous hfit, if_neg hnot]
  inPlace := run_retryInPlace x id previous

/-! ### Chains -/

/-- What happens to the last run of a chain: a request is granted or refused, the run is executed, by whomever, or
that is refused or breaks off, and it is retried, which adds a run, or that is refused. -/
inductive Link where
  | request (q : Run.Request)
  | execute (executor : Executor) (stamps : Stamps) (answer : Answer) (benchmark : Benchmark) (alerts : List Alert)
  | retry (id : Uuid)

namespace Link

/-- The run that is added. -/
def added? (x : Executor) (r : Run) : Link → Option Run
  | .retry id => (x.retry id r).toOption
  | .request _ | .execute .. => none

/-- The last run of the chain afterwards. -/
def after (x : Executor) (r : Run) : Link → Run
  | .request q => r.after (.request q)
  | .execute executor stamps answer benchmark alerts =>
    match (executor.execute stamps answer benchmark).run ⟨r, alerts, []⟩ with
    | .ok _ w => w.run
    | .error _ w => w.run
  | .retry id => (x.retry id r).toOption.getD r

end Link

/-- The runs that are added to a chain, in their order. -/
def added (x : Executor) (r : Run) : List Link → List Run
  | [] => []
  | link :: links => (link.added? x r).toList ++ added x (link.after x r) links

/-- The last run of the chain at its end. -/
def lastOf (x : Executor) (r : Run) (links : List Link) : Run := links.foldl (Link.after x) r

theorem retries_effect (q : Run.Request) (r : Run) : (q.effect r).retries = r.retries := by
  cases q <;> rfl

/-- No request touches the count. -/
theorem retries_after_request (q : Run.Request) (r : Run) : (r.after (.request q)).retries = r.retries := by
  by_cases hgranted : r.status ∈ q.grantedIn
  · rw [Run.after_request_of_granted hgranted, retries_effect]
  · rw [Run.after_request_of_refused hgranted]

/-- A run that is added takes one of the retries left, and nothing gives any back. -/
theorem Link.length_added?_add_retriesLeft (x : Executor) (link : Link) (r : Run) :
    (link.added? x r).toList.length + x.retriesLeft (link.after x r) = x.retriesLeft r := by
  unfold Executor.retriesLeft
  cases link with
  | request q => rw [after, retries_after_request, added?, Option.toList_none, List.length_nil, Nat.zero_add]
  | execute executor stamps answer benchmark alerts =>
      have horigin := sameOrigin_execute executor stamps answer benchmark ⟨r, alerts, []⟩
      rw [after, added?, Option.toList_none, List.length_nil, Nat.zero_add]
      cases hrun : (executor.execute stamps answer benchmark).run ⟨r, alerts, []⟩ with
      | ok report w =>
          rw [hrun] at horigin
          dsimp only
          rw [horigin.2.retries]
      | error i w =>
          rw [hrun] at horigin
          dsimp only
          rw [horigin.retries]
  | retry id =>
      rw [after, added?]
      cases hretry : x.retry id r with
      | error refusal => exact Nat.zero_add _
      | ok retry =>
          obtain ⟨-, hlt, -, hrepeats⟩ := retry_eq_ok hretry
          have hlt' := UInt32.lt_iff_toNat_lt.mp hlt
          have hretries := hrepeats.retries
          show 1 + (x.settings.maxRetries.toNat - retry.retries.toNat) = _
          omega

/-- The runs that are added and the retries that the last one has left are as many as the first run had left. -/
theorem length_added_add_retriesLeft (x : Executor) (r : Run) (links : List Link) :
    (added x r links).length + x.retriesLeft (lastOf x r links) = x.retriesLeft r := by
  induction links generalizing r with
  | nil => exact Nat.zero_add _
  | cons link links ih =>
      have hlink := link.length_added?_add_retriesLeft x r
      have hlinks := ih (link.after x r)
      have hlast : lastOf x r (link :: links) = lastOf x (link.after x r) links := rfl
      rw [added, List.length_append, hlast]
      omega

/-- Only a run below the limit is retried, so no run that is added is above it. -/
theorem retries_le_of_mem_added {x : Executor} {r : Run} {links : List Link} {retry : Run}
    (h : retry ∈ added x r links) : retry.retries ≤ x.settings.maxRetries := by
  induction links generalizing r with
  | nil => cases h
  | cons link links ih =>
      rw [added, List.mem_append] at h
      rcases h with h | h
      · cases link with
        | request q => cases h
        | execute executor stamps answer benchmark alerts => cases h
        | retry id =>
            rw [Link.added?] at h
            cases hretry : x.retry id r with
            | error refusal =>
                rw [hretry] at h
                cases h
            | ok retry' =>
                rw [hretry] at h
                obtain rfl := List.mem_singleton.mp h
                obtain ⟨-, hlt, -, hrepeats⟩ := retry_eq_ok hretry
                have hlt' := UInt32.lt_iff_toNat_lt.mp hlt
                rw [UInt32.le_iff_toNat_le, hrepeats.retries]
                exact hlt'
      · exact ih h

/-- The chain stays within the limit. -/
structure StaysWithin (x : Executor) (r : Run) (links : List Link) : Prop where
  length : (added x r links).length ≤ x.settings.maxRetries.toNat - r.retries.toNat
  counts : ∀ retry ∈ added x r links, retry.retries ≤ x.settings.maxRetries

/-- Whatever the run and the limit, each retry is as it should be, and each chain from the run stays within the
limit. -/
theorem retries_bounded (x : Executor) (r : Run) :
    (∀ id : Uuid, Retried x id r) ∧ ∀ links : List Link, StaysWithin x r links := by
  refine ⟨fun id => retried x id r, fun links => ⟨?_, fun retry => retries_le_of_mem_added⟩⟩
  have hlength := length_added_add_retriesLeft x r links
  rw [Executor.retriesLeft.eq_1 x r] at hlength
  omega

/-- The last of three retries is granted once the run has failed, and after it none, whatever becomes of the run. -/
example :
    let run := (Run.new ⟨1⟩ "bench-1" "agent-1" .scheduled).withRetries 2
    let links : List Link := [.retry ⟨2⟩, .request (.start noon), .request (.fail "no traces" noon), .retry ⟨3⟩,
      .request (.cancel noon), .retry ⟨4⟩]
    (added ⟨.standard, .standard⟩ run links).map (·.retries) = [3] := by decide +kernel

end Scorecard.Execution
