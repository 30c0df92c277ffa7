import Scorecard.Json.Fields

/-!
The history of an indicator: one entry for each run that scored it, with the band and the baseline
of the time, and where the score lies with respect to them.
-/
namespace Scorecard.Kpi

/-- Where a score lies with respect to its band. -/
inductive Status where
  | healthy
  | warning
  | critical
  | unknown
deriving DecidableEq

namespace Status

def word : Status → String
  | .healthy => "HEALTHY"
  | .warning => "WARNING"
  | .critical => "CRITICAL"
  | .unknown => "UNKNOWN"

def all : List Status := [.healthy, .warning, .critical, .unknown]

def ofWord? (word : String) : Option Status := all.find? (·.word == word)

theorem ofWord?_word (s : Status) : ofWord? s.word = some s := by
  cases s <;> rfl

def ofDocument? (d : Json.Document) : Option Status := d.word?.bind ofWord?

/-- Below the minimum is critical, above the maximum a warning, within a band healthy; without a
band nothing is known. -/
def ofScore (minimum maximum : Option Float) (value : Float) : Status :=
  if minimum.any fun bound => value < bound then .critical
  else if maximum.any fun bound => bound < value then .warning
  else if minimum.isNone && maximum.isNone then .unknown
  else .healthy

end Status

structure HistoryEntry where
  id : Uuid
  benchmarkId : String
  agentId : String
  runId : Option Uuid
  kpiId : Option String
  kpiName : String
  value : Float
  baseline : Option Float
  minimum : Option Float
  maximum : Option Float
  delta : Option Float
  deltaPercentage : Option Float
  status : Status
  fingerprint : Option String
  recordedAt : Timestamp

namespace HistoryEntry

/-- A score by itself, not yet held against anything. -/
def new (id : Uuid) (recordedAt : Timestamp) (benchmarkId agentId kpiName : String) (value : Float) :
    HistoryEntry :=
  { id, benchmarkId, agentId, runId := none, kpiId := none, kpiName, value, baseline := none, minimum := none,
    maximum := none, delta := none, deltaPercentage := none, status := .unknown, fingerprint := none, recordedAt }

/-- The entry with a baseline and the distance from it; a baseline of zero has no percentage. -/
def withBaseline (e : HistoryEntry) (baseline : Float) : HistoryEntry :=
  let delta := e.value - baseline
  { e with
    baseline := some baseline
    delta := some delta
    deltaPercentage := if baseline == 0 then none else some (delta / baseline * 100) }

def withBand (e : HistoryEntry) (minimum maximum : Option Float) : HistoryEntry :=
  { e with minimum, maximum }

/-- The entry with the status of its score. -/
def judged (e : HistoryEntry) : HistoryEntry :=
  { e with status := .ofScore e.minimum e.maximum e.value }

def toJson (e : HistoryEntry) : Json :=
  .object [("id", .ofUuid e.id), ("benchmark_id", .string e.benchmarkId), ("agent_id", .string e.agentId),
    ("run_id", .ofOption .ofUuid e.runId), ("kpi_id", .ofOption .string e.kpiId),
    ("kpi_name", .string e.kpiName), ("value", .ofFloat e.value), ("baseline_value", .ofOption .ofFloat e.baseline),
    ("threshold_min", .ofOption .ofFloat e.minimum), ("threshold_max", .ofOption .ofFloat e.maximum),
    ("delta_from_baseline", .ofOption .ofFloat e.delta),
    ("delta_percentage", .ofOption .ofFloat e.deltaPercentage), ("status", .string e.status.word),
    ("formula_digest", .ofOption .string e.fingerprint), ("recorded_at", .ofTimestamp e.recordedAt)]

def ofDocument? (d : Json.Document) : Option HistoryEntry := do
  let fields ← d.fields? ["id", "benchmark_id", "agent_id", "run_id", "kpi_id", "kpi_name", "value",
    "baseline_value", "threshold_min", "threshold_max", "delta_from_baseline", "delta_percentage", "status",
    "formula_digest", "recorded_at"] 15
  return {
    id := ← fields.required "id" (·.uuid?)
    benchmarkId := ← fields.required "benchmark_id" (·.string?)
    agentId := ← fields.required "agent_id" (·.string?)
    runId := ← fields.optional "run_id" (·.uuid?)
    kpiId := ← fields.optional "kpi_id" (·.string?)
    kpiName := ← fields.required "kpi_name" (·.string?)
    value := ← fields.required "value" (·.float?)
    baseline := ← fields.optional "baseline_value" (·.float?)
    minimum := ← fields.optional "threshold_min" (·.float?)
    maximum := ← fields.optional "threshold_max" (·.float?)
    delta := ← fields.optional "delta_from_baseline" (·.float?)
    deltaPercentage := ← fields.optional "delta_percentage" (·.float?)
    status := ← fields.required "status" Status.ofDocument?
    fingerprint := ← fields.optional "formula_digest" (·.string?)
    recordedAt := ← fields.required "recorded_at" (·.timestamp?) }

end HistoryEntry

end Scorecard.Kpi
