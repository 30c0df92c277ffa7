import Scorecard.Alert.Firing
import Scorecard.Supply

/-!
Alert rules and firings as JSON.
-/
namespace Scorecard.Alert

def toJson (a : Alert) : Json :=
  .object [("id", .ofUuid a.id), ("name", .string a.name), ("benchmark_id", .ofOption .string a.benchmarkId),
    ("kpi_name", .string a.kpiName), ("condition", .string a.condition.word), ("threshold", .ofFloat a.threshold),
    ("severity", .string a.severity.word), ("enabled", .bool a.enabled),
    ("cooldown_minutes", .ofUInt32 a.cooldownMinutes),
    ("last_triggered_at", .ofOption .ofTimestamp a.lastTriggeredAt)]

def ofDocument? (supply : Supply) (d : Json.Document) : Option Alert := do
  let fields ← d.fields? ["id", "name", "benchmark_id", "kpi_name", "condition", "threshold", "severity",
    "enabled", "cooldown_minutes", "last_triggered_at"] 7
  return {
    id := ← fields.withDefault "id" (supply.id []) (·.uuid?)
    name := ← fields.required "name" (·.string?)
    benchmarkId := ← fields.optional "benchmark_id" (·.string?)
    kpiName := ← fields.required "kpi_name" (·.string?)
    condition := ← fields.required "condition" Condition.ofDocument?
    threshold := ← fields.required "threshold" (·.float?)
    severity := ← fields.required "severity" Severity.ofDocument?
    enabled := ← fields.withDefault "enabled" true (·.bool?)
    cooldownMinutes := ← fields.withDefault "cooldown_minutes" defaultCooldownMinutes (·.uint32?)
    lastTriggeredAt := ← fields.optional "last_triggered_at" (·.timestamp?) }

namespace Firing

def toJson (f : Firing) : Json :=
  .object [("alert_id", .ofUuid f.alertId), ("alert_name", .string f.alertName), ("kpi_name", .string f.kpiName),
    ("value", .ofFloat f.value), ("threshold", .ofFloat f.threshold), ("condition", .string f.condition.word),
    ("severity", .string f.severity.word), ("run_id", .ofOption .ofUuid f.runId),
    ("triggered_at", .ofTimestamp f.triggeredAt)]

def ofDocument? (d : Json.Document) : Option Firing := do
  let fields ← d.fields? ["alert_id", "alert_name", "kpi_name", "value", "threshold", "condition", "severity",
    "run_id", "triggered_at"] 9
  return {
    alertId := ← fields.required "alert_id" (·.uuid?)
    alertName := ← fields.required "alert_name" (·.string?)
    kpiName := ← fields.required "kpi_name" (·.string?)
    value := ← fields.required "value" (·.float?)
    threshold := ← fields.required "threshold" (·.float?)
    condition := ← fields.required "condition" Condition.ofDocument?
    severity := ← fields.required "severity" Severity.ofDocument?
    runId := ← fields.optional "run_id" (·.uuid?)
    triggeredAt := ← fields.required "triggered_at" (·.timestamp?) }

end Firing

end Scorecard.Alert
