import Scorecard.Proofs.Benchmark.Storage
import Scorecard.Proofs.Json.Fields
import Scorecard.Run.Json

/-!
Runs as they are stored. A run is taken back from either of its texts, with the times that the texts tell and
whatever is supplied for what may be missing, and a field that may be missing is taken for its default when it is.
-/
namespace Scorecard.Run

open Json (Stored Document Fields)

/-- The numbers in a run: the values measured and the scores of its results. -/
def floats (r : Run) : List Float := r.results.flatMap Trace.floats

/-- The times in a run: when it was started and when it ended, and those of its results. -/
def times (r : Run) : List Timestamp :=
  r.startedAt.toList ++ (r.completedAt.toList ++ r.results.flatMap Trace.times)

theorem forall_mem_times {r : Run} :
    (∀ t ∈ r.times, t.Spelled) ↔ (∀ t ∈ r.startedAt, t.Spelled) ∧ (∀ t ∈ r.completedAt, t.Spelled) ∧
      ∀ trace ∈ r.results, ∀ t ∈ trace.times, t.Spelled := by
  simp only [times, List.forall_mem_append, Option.mem_toList, Option.mem_def, List.forall_mem_flatMap]

theorem stored (height : Nat) {r : Run} (h : ∀ x ∈ r.floats, Json.Reproduced x) (htimes : ∀ t ∈ r.times, t.Spelled)
    (supply : Supply) : Stored (height + 5) toJson (ofDocument? supply) r := by
  obtain ⟨hstarted, hcompleted, htraces⟩ := forall_mem_times.mp htimes
  have hstring := Json.stored_string (height + 4)
  have hstrings (o : Option String) : Stored (height + 4) (.ofOption .string) (·.option? (·.string?)) o :=
    Json.stored_option rfl fun s _ => hstring s
  have hcounts (o : Option UInt64) : Stored (height + 4) (.ofOption .ofUInt64) (·.option? (·.uint64?)) o :=
    Json.stored_option rfl fun n _ => Json.stored_uint64 _ n
  have htime {o : Option Timestamp} (h : ∀ t ∈ o, t.Spelled) :
      Stored (height + 4) (.ofOption .ofTimestamp) (·.option? (·.timestamp?)) o :=
    Json.stored_option rfl fun t ht => Json.stored_timestamp _ (h t ht)
  have hstarted := htime hstarted
  have hcompleted := htime hcompleted
  have hid := Json.stored_uuid (height + 4) r.id
  have htrigger : Stored (height + 4) (fun t : Trigger => .string t.word) Trigger.ofDocument? r.trigger :=
    Json.stored_word _ r.trigger.ofWord?_word
  have hschedule : Stored (height + 4) (.ofOption .ofUuid) (·.option? (·.uuid?)) r.scheduleId :=
    Json.stored_option rfl fun u _ => Json.stored_uuid _ u
  have hresults : Stored (height + 4) (.ofList Trace.toJson) (supply.list? Trace.ofDocument?) r.results :=
    Json.stored_items (fun t ht supply =>
      Trace.stored height (fun x hx => h x (List.mem_flatMap.mpr ⟨t, ht, hx⟩)) (htraces t ht) supply) supply
  have hstatus : Stored (height + 4) (fun s : Status => .string s.word) Status.ofDocument? r.status :=
    Json.stored_word _ r.status.ofWord?_word
  have hretries := Json.stored_uint32 (height + 4) r.retries
  refine ⟨.object ?_, ?_⟩
  · simp only [List.forall_mem_cons]
    exact ⟨hid.legible, (hstring _).legible, (hstring _).legible, htrigger.legible, (hstrings _).legible, hschedule.legible,
      hresults.legible, hstatus.legible, hstarted.legible, hcompleted.legible, (hstrings _).legible, (hcounts _).legible,
      (hcounts _).legible, hretries.legible, List.forall_mem_nil _⟩
  · obtain ⟨fields, hfields, hid, hbenchmark, hagent, htrigger, huser, hschedule, hresults, hstatus, hstarted, hcompleted,
        herror, htraces, hmetrics, hretries⟩ : ∃ fields : Fields,
        (∀ names least, r.toJson.toDocument.fields? names least = some fields) ∧
        fields.required "id" (·.uuid?) = some r.id ∧
        fields.required "benchmark_id" (·.string?) = some r.benchmarkId ∧
        fields.required "agent_id" (·.string?) = some r.agentId ∧
        fields.required "triggered_by" Trigger.ofDocument? = some r.trigger ∧
        fields.optional "triggered_by_user" (·.string?) = some r.user ∧
        fields.optional "schedule_config_id" (·.uuid?) = some r.scheduleId ∧
        fields.withDefault "results" [] (supply.list? Trace.ofDocument?) = some r.results ∧
        fields.required "status" Status.ofDocument? = some r.status ∧
        fields.optional "started_at" (·.timestamp?) = some r.startedAt ∧
        fields.optional "completed_at" (·.timestamp?) = some r.completedAt ∧
        fields.optional "error_message" (·.string?) = some r.error ∧
        fields.optional "traces_processed" (·.uint64?) = some r.traces ∧
        fields.optional "metrics_computed" (·.uint64?) = some r.metrics ∧
        fields.withDefault "retry_count" 0 (·.uint32?) = some r.retries :=
      ⟨_, Json.fields?_toDocument (by simp), hid.readsBack, (hstring _).readsBack, (hstring _).readsBack, htrigger.readsBack,
        (hstrings _).readsBack, hschedule.readsBack, hresults.readsBack, hstatus.readsBack, hstarted.readsBack,
        hcompleted.readsBack, (hstrings _).readsBack, (hcounts _).readsBack, (hcounts _).readsBack, hretries.readsBack⟩
    rw [Json.ReadsBack, ofDocument?, hfields, Option.bind_eq_bind, Option.bind_some]
    rw [hid, hbenchmark, hagent, htrigger, huser, hschedule, hresults, hstatus, hstarted, hcompleted, herror, htraces,
      hmetrics, hretries]
    rfl

/-! ### Times that texts tell -/

/-- The run with the times that their texts tell. -/
def spelled (r : Run) : Run :=
  { r with
    results := r.results.map (·.spelled)
    startedAt := r.startedAt.map (·.spelled)
    completedAt := r.completedAt.map (·.spelled) }

theorem toJson_spelled (r : Run) : r.spelled.toJson = r.toJson := by
  rw [toJson, toJson, spelled, Json.ofList_map Trace.toJson_spelled, Json.ofOption_map Json.ofTimestamp_spelled,
    Json.ofOption_map Json.ofTimestamp_spelled]

theorem floats_spelled (r : Run) : r.spelled.floats = r.floats := by
  rw [floats, floats, spelled, List.flatMap_map]
  simp only [Trace.floats_spelled]

theorem spelled_of_mem_times (r : Run) : ∀ t ∈ r.spelled.times, t.Spelled := by
  rw [forall_mem_times]
  refine ⟨Timestamp.spelled_of_mem_map _, Timestamp.spelled_of_mem_map _, ?_⟩
  rw [spelled, List.forall_mem_map]
  exact fun trace _ => trace.spelled_of_mem_times

/-- Nothing is changed exactly if texts can tell all times. -/
theorem spelled_eq_iff {r : Run} : r.spelled = r ↔ ∀ t ∈ r.times, t.Spelled := by
  have hresults : r.results.map (·.spelled) = r.results ↔ ∀ trace ∈ r.results, ∀ t ∈ trace.times, t.Spelled := by
    simp only [Json.map_eq_self_iff, Trace.spelled_eq_iff]
  rw [forall_mem_times, ← Timestamp.map_spelled_eq_iff, ← Timestamp.map_spelled_eq_iff, ← hresults]
  constructor
  · intro h
    exact ⟨congrArg (·.startedAt) h, congrArg (·.completedAt) h, congrArg (·.results) h⟩
  · rintro ⟨hstarted, hcompleted, hresults⟩
    rw [spelled, hstarted, hcompleted, hresults]

/-- What is read from a text of the run. -/
theorem read_text {r : Run} (h : ∀ x ∈ r.floats, Json.Reproduced x) {text : String}
    (htext : text = r.toJson.compact ∨ text = r.toJson.indented) (supply : Supply) :
    (Json.parse? text).bind (ofDocument? supply) = some r.spelled := by
  rw [← floats_spelled] at h
  rw [← toJson_spelled] at htext
  obtain ⟨hlegible, hread⟩ := stored 122 h r.spelled_of_mem_times supply
  rw [hlegible.parse?_text htext, Option.bind_some]
  exact hread

/-! ### Fields that are left out -/

/-- The fields of a run that may be missing, with what is taken for them. -/
def defaults : Fields :=
  [("triggered_by_user", .null), ("schedule_config_id", .null), ("results", .array []), ("started_at", .null),
    ("completed_at", .null), ("error_message", .null), ("traces_processed", .null), ("metrics_computed", .null),
    ("retry_count", .zero)]

/-- A run is read the same whether fields that have their defaults are written or left out. -/
theorem ofDocument?_without {fields : Fields} {names : List String} (h : Fields.WritesDefaults defaults names fields)
    (supply : Supply) : ofDocument? supply (.object (fields.without names)) = ofDocument? supply (.object fields) := by
  refine h.bind_fields? _ _ ?_
  rw [h.required, h.required, h.required, h.required, h.optional, h.optional, h.withDefault, h.required, h.optional,
    h.optional, h.optional, h.optional, h.optional, h.withDefault]
  all_goals rfl

end Scorecard.Run
