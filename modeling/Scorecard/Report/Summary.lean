import Scorecard.Json.Printer
import Scorecard.Report.Basic

/-!
Summaries of runs, the short form of a report that is kept in a file.
-/
namespace Scorecard.Report

/-- The line of one indicator in a summary. -/
structure KpiLine where
  name : String
  value : Float
  status : String
  delta : Option Float

namespace KpiLine

def ofEntry (e : Kpi.HistoryEntry) : KpiLine := ⟨e.kpiName, e.value, e.status.word, e.delta⟩

def toJson (l : KpiLine) : Json :=
  .object [("name", .string l.name), ("value", .ofFloat l.value), ("status", .string l.status),
    ("delta_from_baseline", .ofOption .ofFloat l.delta)]

def ofDocument? (d : Json.Document) : Option KpiLine := do
  let fields ← d.fields? ["name", "value", "status", "delta_from_baseline"] 4
  return {
    name := ← fields.required "name" (·.string?)
    value := ← fields.required "value" (·.float?)
    status := ← fields.required "status" (·.string?)
    delta := ← fields.optional "delta_from_baseline" (·.float?) }

end KpiLine

structure Summary where
  schemaVersion : String
  generatedAt : Timestamp
  runId : Uuid
  benchmarkId : String
  agentId : String
  status : Run.Status
  durationMillis : UInt64
  tracesProcessed : UInt64
  metricsComputed : UInt64
  metrics : Table Float
  kpis : List KpiLine
  firings : List Alert.Firing
  skipped : List String
  error : Option String

namespace Summary

def currentSchemaVersion : String := "1.0"

/-- The summary of a report; counts that the run does not have are zero. -/
def ofReport (generatedAt : Timestamp) (r : Report) : Summary :=
  { schemaVersion := currentSchemaVersion
    generatedAt
    runId := r.run.id
    benchmarkId := r.run.benchmarkId
    agentId := r.run.agentId
    status := r.run.status
    durationMillis := .ofNat r.run.durationMillis
    tracesProcessed := r.run.traces.getD 0
    metricsComputed := r.run.metrics.getD 0
    metrics := r.metrics
    kpis := r.history.map KpiLine.ofEntry
    firings := r.firings
    skipped := r.skipped
    error := r.run.error }

def toJson (s : Summary) : Json :=
  .object [("schema_version", .string s.schemaVersion), ("generated_at", .ofTimestamp s.generatedAt),
    ("run_id", .ofUuid s.runId), ("benchmark_id", .string s.benchmarkId), ("agent_id", .string s.agentId),
    ("status", .string s.status.word), ("duration_ms", .ofUInt64 s.durationMillis),
    ("traces_processed", .ofUInt64 s.tracesProcessed), ("metrics_computed", .ofUInt64 s.metricsComputed),
    ("metrics", .ofTable .ofFloat s.metrics), ("kpis", .ofList (·.toJson) s.kpis),
    ("triggered_alerts", .ofList (·.toJson) s.firings), ("skipped_kpis", .ofList .string s.skipped),
    ("error", .ofOption .string s.error)]

def ofDocument? (d : Json.Document) : Option Summary := do
  let fields ← d.fields? ["schema_version", "generated_at", "run_id", "benchmark_id", "agent_id", "status",
    "duration_ms", "traces_processed", "metrics_computed", "metrics", "kpis", "triggered_alerts",
    "skipped_kpis", "error"] 14
  return {
    schemaVersion := ← fields.required "schema_version" (·.string?)
    generatedAt := ← fields.required "generated_at" (·.timestamp?)
    runId := ← fields.required "run_id" (·.uuid?)
    benchmarkId := ← fields.required "benchmark_id" (·.string?)
    agentId := ← fields.required "agent_id" (·.string?)
    status := ← fields.required "status" Run.Status.ofDocument?
    durationMillis := ← fields.required "duration_ms" (·.uint64?)
    tracesProcessed := ← fields.required "traces_processed" (·.uint64?)
    metricsComputed := ← fields.required "metrics_computed" (·.uint64?)
    metrics := ← fields.required "metrics" (·.table? (·.float?))
    kpis := ← fields.required "kpis" (·.list? KpiLine.ofDocument?)
    firings := ← fields.required "triggered_alerts" (·.list? Alert.Firing.ofDocument?)
    skipped := ← fields.required "skipped_kpis" (·.list? (·.string?))
    error := ← fields.optional "error" (·.string?) }

/-- The text of the file that a summary is kept in. -/
def fileText (s : Summary) : String := s.toJson.indented

end Summary

end Scorecard.Report
