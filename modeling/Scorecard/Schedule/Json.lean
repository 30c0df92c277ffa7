import Scorecard.Schedule.Basic

/-!
Schedules as JSON, for storage. What a new schedule starts with may be left out.
-/
namespace Scorecard.Schedule

def toJson (s : Schedule) : Json :=
  .object [("id", .ofUuid s.id), ("name", .string s.name), ("description", .ofOption .string s.description),
    ("benchmark_id", .string s.benchmarkId), ("agent_id", .string s.agentId),
    ("cron_expression", .ofOption .string s.cronExpression), ("timezone", .string s.timezone),
    ("max_consecutive_failures", .ofUInt32 s.maxConsecutiveFailures),
    ("auto_disable_on_failure", .bool s.autoDisable), ("created_by", .ofOption .string s.createdBy),
    ("created_at", .ofTimestamp s.createdAt), ("enabled", .bool s.enabled), ("run_count", .ofUInt64 s.runCount),
    ("failure_count", .ofUInt64 s.failureCount), ("consecutive_failures", .ofUInt32 s.consecutiveFailures),
    ("last_run_id", .ofOption .ofUuid s.lastRunId),
    ("last_run_status", .ofOption (fun status => .string status.word) s.lastRunStatus),
    ("last_run_at", .ofOption .ofTimestamp s.lastRunAt), ("next_run_at", .ofOption .ofTimestamp s.nextRunAt)]

def ofDocument? (d : Json.Document) : Option Schedule := do
  let fields ← d.fields? ["id", "name", "description", "benchmark_id", "agent_id", "cron_expression", "timezone",
    "max_consecutive_failures", "auto_disable_on_failure", "created_by", "created_at", "enabled", "run_count",
    "failure_count", "consecutive_failures", "last_run_id", "last_run_status", "last_run_at", "next_run_at"] 11
  return {
    id := ← fields.required "id" (·.uuid?)
    name := ← fields.required "name" (·.string?)
    description := ← fields.optional "description" (·.string?)
    benchmarkId := ← fields.required "benchmark_id" (·.string?)
    agentId := ← fields.required "agent_id" (·.string?)
    cronExpression := ← fields.optional "cron_expression" (·.string?)
    timezone := ← fields.withDefault "timezone" "UTC" (·.string?)
    maxConsecutiveFailures :=
      ← fields.withDefault "max_consecutive_failures" defaultMaxConsecutiveFailures (·.uint32?)
    autoDisable := ← fields.withDefault "auto_disable_on_failure" true (·.bool?)
    createdBy := ← fields.optional "created_by" (·.string?)
    createdAt := ← fields.required "created_at" (·.timestamp?)
    enabled := ← fields.withDefault "enabled" true (·.bool?)
    runCount := ← fields.withDefault "run_count" 0 (·.uint64?)
    failureCount := ← fields.withDefault "failure_count" 0 (·.uint64?)
    consecutiveFailures := ← fields.withDefault "consecutive_failures" 0 (·.uint32?)
    lastRunId := ← fields.optional "last_run_id" (·.uuid?)
    lastRunStatus := ← fields.optional "last_run_status" Run.Status.ofDocument?
    lastRunAt := ← fields.optional "last_run_at" (·.timestamp?)
    nextRunAt := ← fields.optional "next_run_at" (·.timestamp?) }

end Scorecard.Schedule
