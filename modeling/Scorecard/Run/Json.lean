import Scorecard.Run.Basic

/-!
Runs as JSON, for storage. Every field is written, and a run that is read back goes on from where it
was.
-/
namespace Scorecard.Run

def toJson (r : Run) : Json :=
  .object [("id", .ofUuid r.id), ("benchmark_id", .string r.benchmarkId), ("agent_id", .string r.agentId),
    ("triggered_by", .string r.trigger.word), ("triggered_by_user", .ofOption .string r.user),
    ("schedule_config_id", .ofOption .ofUuid r.scheduleId), ("results", .ofList (·.toJson) r.results),
    ("status", .string r.status.word), ("started_at", .ofOption .ofTimestamp r.startedAt),
    ("completed_at", .ofOption .ofTimestamp r.completedAt), ("error_message", .ofOption .string r.error),
    ("traces_processed", .ofOption .ofUInt64 r.traces), ("metrics_computed", .ofOption .ofUInt64 r.metrics),
    ("retry_count", .ofUInt32 r.retries)]

def ofDocument? (supply : Supply) (d : Json.Document) : Option Run := do
  let fields ← d.fields? ["id", "benchmark_id", "agent_id", "triggered_by", "triggered_by_user",
    "schedule_config_id", "results", "status", "started_at", "completed_at", "error_message",
    "traces_processed", "metrics_computed", "retry_count"] 13
  return {
    id := ← fields.required "id" (·.uuid?)
    benchmarkId := ← fields.required "benchmark_id" (·.string?)
    agentId := ← fields.required "agent_id" (·.string?)
    trigger := ← fields.required "triggered_by" Trigger.ofDocument?
    user := ← fields.optional "triggered_by_user" (·.string?)
    scheduleId := ← fields.optional "schedule_config_id" (·.uuid?)
    results := ← fields.withDefault "results" [] (supply.list? Trace.ofDocument?)
    status := ← fields.required "status" Status.ofDocument?
    startedAt := ← fields.optional "started_at" (·.timestamp?)
    completedAt := ← fields.optional "completed_at" (·.timestamp?)
    error := ← fields.optional "error_message" (·.string?)
    traces := ← fields.optional "traces_processed" (·.uint64?)
    metrics := ← fields.optional "metrics_computed" (·.uint64?)
    retries := ← fields.withDefault "retry_count" 0 (·.uint32?) }

end Scorecard.Run
