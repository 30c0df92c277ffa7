import Scorecard.Metric.Name
import Scorecard.Supply
import Scorecard.Json.Fields

/-!
Traces, the single cases of a run, with the measurements taken from each and the scores that the
indicators give it.
-/
namespace Scorecard

/-- A measurement of one metric on one trace. -/
structure Measurement where
  metric : String
  value : Float
  unit : Option String
  traceId : Option String
  takenAt : Timestamp
deriving BEq

namespace Measurement

def toJson (m : Measurement) : Json :=
  .object [("metric_key", .string m.metric), ("value", .ofFloat m.value), ("unit", .ofOption .string m.unit),
    ("trace_id", .ofOption .string m.traceId), ("timestamp", .ofTimestamp m.takenAt)]

def ofDocument? (supply : Supply) (d : Json.Document) : Option Measurement := do
  let fields ← d.fields? ["metric_key", "value", "unit", "trace_id", "timestamp"] 2
  return {
    metric := ← fields.required "metric_key" (·.string?)
    value := ← fields.required "value" (·.float?)
    unit := ← fields.optional "unit" (·.string?)
    traceId := ← fields.optional "trace_id" (·.string?)
    takenAt := ← fields.withDefault "timestamp" supply.now (·.timestamp?) }

end Measurement

structure Trace where
  id : Uuid
  traceId : String
  expectedText : Option String
  generatedText : Option String
  measurements : List Measurement
  /-- The scores by the names of the indicators. -/
  scores : Table Float
  createdAt : Timestamp
deriving BEq

namespace Trace

/-- A trace with nothing measured yet. -/
def new (id : Uuid) (createdAt : Timestamp) (traceId : String) : Trace :=
  { id, traceId, expectedText := none, generatedText := none, measurements := [], scores := ∅, createdAt }

/-- The trace with one more measurement, which refers back to the trace. -/
def withMeasurement (t : Trace) (takenAt : Timestamp) (metric : String) (value : Float) : Trace :=
  { t with measurements := t.measurements ++ [⟨metric, value, none, some t.traceId, takenAt⟩] }

def withScore (t : Trace) (kpi : String) (score : Float) : Trace :=
  { t with scores := t.scores.insert kpi score }

def toJson (t : Trace) : Json :=
  .object [("id", .ofUuid t.id), ("trace_id", .string t.traceId),
    ("expected_text", .ofOption .string t.expectedText), ("generated_text", .ofOption .string t.generatedText),
    ("metric_snapshots", .ofList (·.toJson) t.measurements), ("kpi_values", .ofTable .ofFloat t.scores),
    ("created_at", .ofTimestamp t.createdAt)]

def ofDocument? (supply : Supply) (d : Json.Document) : Option Trace := do
  let fields ← d.fields? ["id", "trace_id", "expected_text", "generated_text", "metric_snapshots", "kpi_values",
    "created_at"] 2
  return {
    id := ← fields.withDefault "id" (supply.id []) (·.uuid?)
    traceId := ← fields.required "trace_id" (·.string?)
    expectedText := ← fields.optional "expected_text" (·.string?)
    generatedText := ← fields.optional "generated_text" (·.string?)
    measurements := ← fields.withDefault "metric_snapshots" [] (·.list? (Measurement.ofDocument? supply))
    scores := ← fields.withDefault "kpi_values" ∅ (·.table? (·.float?))
    createdAt := ← fields.withDefault "created_at" supply.now (·.timestamp?) }

end Trace

end Scorecard
