import Scorecard.Benchmark.Trace
import Scorecard.Proofs.Json.Stored

/-!
Traces as they are stored. Every field of a trace and of its measurements is written, so a trace is taken
back whatever ids and times are supplied for what may be missing, if texts can tell its times. In any case it is
written like the trace with the times that the texts tell.
-/
namespace Scorecard

open Json (Stored)

/-- The numbers in a trace: the values measured and the scores. -/
def Trace.floats (t : Trace) : List Float := t.measurements.map (·.value) ++ t.scores.entries.map (·.2)

/-- The times in a trace: its own and those of the measurements. -/
def Trace.times (t : Trace) : List Timestamp := t.createdAt :: t.measurements.map (·.takenAt)

theorem Measurement.stored (height : Nat) {m : Measurement} (h : Json.Reproduced m.value) (htime : m.takenAt.Spelled)
    (supply : Supply) :
    Stored (height + 1) toJson (ofDocument? supply) m := by
  have hmetric := Json.stored_string height m.metric
  have hvalue := Json.stored_float height h
  have hunit : Stored height (.ofOption .string) (·.option? (·.string?)) m.unit :=
    Json.stored_option rfl fun s _ => Json.stored_string height s
  have htrace : Stored height (.ofOption .string) (·.option? (·.string?)) m.traceId :=
    Json.stored_option rfl fun s _ => Json.stored_string height s
  have htime := Json.stored_timestamp height htime
  refine ⟨.object ?_, ?_⟩
  · simp only [List.forall_mem_cons]
    exact ⟨hmetric.legible, hvalue.legible, hunit.legible, htrace.legible, htime.legible, List.forall_mem_nil _⟩
  · obtain ⟨fields, hfields, hmetric, hvalue, hunit, htrace, htime⟩ : ∃ fields : Json.Fields,
        (∀ names least, m.toJson.toDocument.fields? names least = some fields) ∧
        fields.required "metric_key" (·.string?) = some m.metric ∧ fields.required "value" (·.float?) = some m.value ∧
        fields.optional "unit" (·.string?) = some m.unit ∧ fields.optional "trace_id" (·.string?) = some m.traceId ∧
        fields.withDefault "timestamp" supply.now (·.timestamp?) = some m.takenAt :=
      ⟨_, Json.fields?_toDocument (by simp), hmetric.readsBack, hvalue.readsBack, hunit.readsBack, htrace.readsBack,
        htime.readsBack⟩
    rw [Json.ReadsBack, ofDocument?, hfields]
    simp only [hmetric, hvalue, hunit, htrace, htime, Option.bind_eq_bind, Option.bind_some, Option.pure_def]

theorem Trace.stored (height : Nat) {t : Trace} (h : ∀ x ∈ t.floats, Json.Reproduced x)
    (htimes : ∀ time ∈ t.times, time.Spelled) (supply : Supply) :
    Stored (height + 3) toJson (ofDocument? supply) t := by
  obtain ⟨hmeasured, hscored⟩ := List.forall_mem_append.mp h
  obtain ⟨hcreated, htaken⟩ := List.forall_mem_cons.mp htimes
  have hid := Json.stored_uuid (height + 2) t.id
  have htrace := Json.stored_string (height + 2) t.traceId
  have hexpected : Stored (height + 2) (.ofOption .string) (·.option? (·.string?)) t.expectedText :=
    Json.stored_option rfl fun s _ => Json.stored_string _ s
  have hgenerated : Stored (height + 2) (.ofOption .string) (·.option? (·.string?)) t.generatedText :=
    Json.stored_option rfl fun s _ => Json.stored_string _ s
  have hmeasurements : Stored (height + 2) (.ofList Measurement.toJson) (·.list? (Measurement.ofDocument? supply))
      t.measurements :=
    Json.stored_list fun m hm =>
      Measurement.stored height (hmeasured _ (List.mem_map_of_mem hm)) (htaken _ (List.mem_map_of_mem hm)) supply
  have hscores : Stored (height + 2) (.ofTable .ofFloat) (·.table? (·.float?)) t.scores :=
    Json.stored_table fun e he => Json.stored_float _ (hscored _ (List.mem_map_of_mem he))
  have htime := Json.stored_timestamp (height + 2) hcreated
  refine ⟨.object ?_, ?_⟩
  · simp only [List.forall_mem_cons]
    exact ⟨hid.legible, htrace.legible, hexpected.legible, hgenerated.legible, hmeasurements.legible, hscores.legible,
      htime.legible, List.forall_mem_nil _⟩
  · obtain ⟨fields, hfields, hid, htrace, hexpected, hgenerated, hmeasurements, hscores, htime⟩ : ∃ fields : Json.Fields,
        (∀ names least, t.toJson.toDocument.fields? names least = some fields) ∧
        fields.withDefault "id" (supply.id []) (·.uuid?) = some t.id ∧
        fields.required "trace_id" (·.string?) = some t.traceId ∧
        fields.optional "expected_text" (·.string?) = some t.expectedText ∧
        fields.optional "generated_text" (·.string?) = some t.generatedText ∧
        fields.withDefault "metric_snapshots" [] (·.list? (Measurement.ofDocument? supply)) = some t.measurements ∧
        fields.withDefault "kpi_values" ∅ (·.table? (·.float?)) = some t.scores ∧
        fields.withDefault "created_at" supply.now (·.timestamp?) = some t.createdAt :=
      ⟨_, Json.fields?_toDocument (by simp), hid.readsBack, htrace.readsBack, hexpected.readsBack, hgenerated.readsBack,
        hmeasurements.readsBack, hscores.readsBack, htime.readsBack⟩
    rw [Json.ReadsBack, ofDocument?, hfields]
    simp only [hid, htrace, hexpected, hgenerated, hmeasurements, hscores, htime, Option.bind_eq_bind, Option.bind_some,
      Option.pure_def]

/-! ### Times that texts tell -/

/-- The measurement with the time that its text tells. -/
def Measurement.spelled (m : Measurement) : Measurement := { m with takenAt := m.takenAt.spelled }

theorem Measurement.toJson_spelled (m : Measurement) : m.spelled.toJson = m.toJson := by
  rw [toJson, toJson, spelled, Json.ofTimestamp_spelled]

theorem Measurement.spelled_eq_iff {m : Measurement} : m.spelled = m ↔ m.takenAt.Spelled := by
  rw [← Timestamp.spelled_eq_iff]
  constructor
  · intro h
    exact congrArg (·.takenAt) h
  · intro h
    rw [spelled, h]

namespace Trace

/-- The trace with the times that their texts tell. -/
def spelled (t : Trace) : Trace :=
  { t with measurements := t.measurements.map (·.spelled), createdAt := t.createdAt.spelled }

theorem toJson_spelled (t : Trace) : t.spelled.toJson = t.toJson := by
  rw [toJson, toJson, spelled, Json.ofList_map Measurement.toJson_spelled, Json.ofTimestamp_spelled]

theorem floats_spelled (t : Trace) : t.spelled.floats = t.floats := by
  rw [floats, spelled, List.map_map]
  rfl

theorem spelled_of_mem_times (t : Trace) : ∀ time ∈ t.spelled.times, time.Spelled := by
  rw [times, spelled, List.map_map, List.forall_mem_cons, List.forall_mem_map]
  exact ⟨t.createdAt.spelled_spelled, fun m _ => m.takenAt.spelled_spelled⟩

theorem spelled_eq_iff {t : Trace} : t.spelled = t ↔ ∀ time ∈ t.times, time.Spelled := by
  rw [times, List.forall_mem_cons, List.forall_mem_map, ← Timestamp.spelled_eq_iff]
  have hmeasurements : t.measurements.map (·.spelled) = t.measurements ↔ ∀ m ∈ t.measurements, m.takenAt.Spelled := by
    simp only [Json.map_eq_self_iff, Measurement.spelled_eq_iff]
  rw [← hmeasurements]
  constructor
  · intro h
    exact ⟨congrArg (·.createdAt) h, congrArg (·.measurements) h⟩
  · rintro ⟨hcreated, hmeasured⟩
    rw [spelled, hcreated, hmeasured]

end Trace

end Scorecard
