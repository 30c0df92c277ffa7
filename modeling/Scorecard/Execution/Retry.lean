import Scorecard.Execution.Basic

/-!
Retrying runs. A run that failed or was cancelled may be repeated as long as its count of retries is
below the limit; the new run starts anew, with the count one higher.
-/
namespace Scorecard.Execution.Executor

def retry (x : Executor) (id : Uuid) (previous : Run) : Except Run.Refusal Run :=
  match previous.status with
  | .failed | .cancelled =>
    if previous.retries < x.settings.maxRetries then
      .ok (((Run.new id previous.benchmarkId previous.agentId .manual).withUser "retry").withRetries
        (previous.retries + 1))
    else .error (.retryLimitExceeded previous.id x.settings.maxRetries)
  | .pending | .running | .completed => .error (previous.refusal .retry)

end Scorecard.Execution.Executor
