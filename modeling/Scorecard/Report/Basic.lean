import Scorecard.Alert.Json
import Scorecard.Run.Json

/-!
Reports, all that an execution of a run has produced.
-/
namespace Scorecard

structure Report where
  /-- The run as it ended. -/
  run : Run
  metrics : Table Float
  history : List Kpi.HistoryEntry
  firings : List Alert.Firing
  /-- The names of the indicators that could not be scored and were passed over. -/
  skipped : List String

namespace Report

def toJson (r : Report) : Json :=
  .object [("run", r.run.toJson), ("aggregated_metrics", .ofTable .ofFloat r.metrics),
    ("kpi_history", .ofList (·.toJson) r.history), ("triggered_alerts", .ofList (·.toJson) r.firings),
    ("skipped_kpis", .ofList .string r.skipped)]

def ofDocument? (supply : Supply) (d : Json.Document) : Option Report := do
  let fields ← d.fields? ["run", "aggregated_metrics", "kpi_history", "triggered_alerts", "skipped_kpis"] 5
  return {
    run := ← fields.required "run" (Run.ofDocument? supply)
    metrics := ← fields.required "aggregated_metrics" (·.table? (·.float?))
    history := ← fields.required "kpi_history" (·.list? Kpi.HistoryEntry.ofDocument?)
    firings := ← fields.required "triggered_alerts" (·.list? Alert.Firing.ofDocument?)
    skipped := ← fields.required "skipped_kpis" (·.list? (·.string?)) }

end Report

end Scorecard
