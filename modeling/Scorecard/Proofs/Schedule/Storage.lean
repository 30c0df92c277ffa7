import Scorecard.Proofs.Json.Fields
import Scorecard.Proofs.Json.Stored
import Scorecard.Schedule.Json

/-!
Schedules as they are stored. A schedule has no numbers but counts, so every schedule is taken back from
either of its texts, with the times that the texts tell, and a field that a new schedule starts with may be
missing.
-/
namespace Scorecard.Schedule

open Json (Stored Document Fields)

/-- The times in a schedule: when it was created and when its last and its next run are. -/
def times (s : Schedule) : List Timestamp := s.createdAt :: (s.lastRunAt.toList ++ s.nextRunAt.toList)

theorem forall_mem_times {s : Schedule} :
    (∀ t ∈ s.times, t.Spelled) ↔
      s.createdAt.Spelled ∧ (∀ t ∈ s.lastRunAt, t.Spelled) ∧ ∀ t ∈ s.nextRunAt, t.Spelled := by
  simp only [times, List.forall_mem_cons, List.forall_mem_append, Option.mem_toList, Option.mem_def]

theorem stored (height : Nat) {s : Schedule} (h : ∀ t ∈ s.times, t.Spelled) :
    Stored (height + 1) toJson ofDocument? s := by
  obtain ⟨hcreated, hlastTime, hnextTime⟩ := forall_mem_times.mp h
  have hstring := Json.stored_string height
  have hstrings (o : Option String) : Stored height (.ofOption .string) (·.option? (·.string?)) o :=
    Json.stored_option rfl fun s _ => hstring s
  have htime {o : Option Timestamp} (h : ∀ t ∈ o, t.Spelled) :
      Stored height (.ofOption .ofTimestamp) (·.option? (·.timestamp?)) o :=
    Json.stored_option rfl fun t ht => Json.stored_timestamp _ (h t ht)
  have hflag := Json.stored_bool height
  have hcount := Json.stored_uint64 height
  have hshort := Json.stored_uint32 height
  have hid := Json.stored_uuid height s.id
  have hcreated := Json.stored_timestamp height hcreated
  have hlastTime := htime hlastTime
  have hnextTime := htime hnextTime
  have hrun : Stored height (.ofOption .ofUuid) (·.option? (·.uuid?)) s.lastRunId :=
    Json.stored_option rfl fun u _ => Json.stored_uuid _ u
  have hstatus : Stored height (.ofOption fun status : Run.Status => .string status.word)
      (·.option? Run.Status.ofDocument?) s.lastRunStatus :=
    Json.stored_option rfl fun status _ => Json.stored_word _ status.ofWord?_word
  refine ⟨.object ?_, ?_⟩
  · simp only [List.forall_mem_cons]
    exact ⟨hid.legible, (hstring _).legible, (hstrings _).legible, (hstring _).legible, (hstring _).legible,
      (hstrings _).legible, (hstring _).legible, (hshort _).legible, (hflag _).legible, (hstrings _).legible,
      hcreated.legible, (hflag _).legible, (hcount _).legible, (hcount _).legible, (hshort _).legible, hrun.legible,
      hstatus.legible, hlastTime.legible, hnextTime.legible, List.forall_mem_nil _⟩
  · obtain ⟨fields, hfields, hid, hname, hdescription, hbenchmark, hagent, hcron, htimezone, hmax, hauto, hcreator,
        hcreated, henabled, hruns, hfailures, hrow, hlast, hstatus, hlastTime, hnextTime⟩ : ∃ fields : Fields,
        (∀ names least, s.toJson.toDocument.fields? names least = some fields) ∧
        fields.required "id" (·.uuid?) = some s.id ∧
        fields.required "name" (·.string?) = some s.name ∧
        fields.optional "description" (·.string?) = some s.description ∧
        fields.required "benchmark_id" (·.string?) = some s.benchmarkId ∧
        fields.required "agent_id" (·.string?) = some s.agentId ∧
        fields.optional "cron_expression" (·.string?) = some s.cronExpression ∧
        fields.withDefault "timezone" "UTC" (·.string?) = some s.timezone ∧
        fields.withDefault "max_consecutive_failures" defaultMaxConsecutiveFailures (·.uint32?) =
          some s.maxConsecutiveFailures ∧
        fields.withDefault "auto_disable_on_failure" true (·.bool?) = some s.autoDisable ∧
        fields.optional "created_by" (·.string?) = some s.createdBy ∧
        fields.required "created_at" (·.timestamp?) = some s.createdAt ∧
        fields.withDefault "enabled" true (·.bool?) = some s.enabled ∧
        fields.withDefault "run_count" 0 (·.uint64?) = some s.runCount ∧
        fields.withDefault "failure_count" 0 (·.uint64?) = some s.failureCount ∧
        fields.withDefault "consecutive_failures" 0 (·.uint32?) = some s.consecutiveFailures ∧
        fields.optional "last_run_id" (·.uuid?) = some s.lastRunId ∧
        fields.optional "last_run_status" Run.Status.ofDocument? = some s.lastRunStatus ∧
        fields.optional "last_run_at" (·.timestamp?) = some s.lastRunAt ∧
        fields.optional "next_run_at" (·.timestamp?) = some s.nextRunAt :=
      ⟨_, Json.fields?_toDocument (by simp), hid.readsBack, (hstring _).readsBack, (hstrings _).readsBack,
        (hstring _).readsBack, (hstring _).readsBack, (hstrings _).readsBack, (hstring _).readsBack, (hshort _).readsBack,
        (hflag _).readsBack, (hstrings _).readsBack, hcreated.readsBack, (hflag _).readsBack, (hcount _).readsBack,
        (hcount _).readsBack, (hshort _).readsBack, hrun.readsBack, hstatus.readsBack, hlastTime.readsBack,
        hnextTime.readsBack⟩
    rw [Json.ReadsBack, ofDocument?, hfields, Option.bind_eq_bind, Option.bind_some]
    rw [hid, hname, hdescription, hbenchmark, hagent, hcron, htimezone, hmax, hauto, hcreator, hcreated, henabled, hruns,
      hfailures, hrow, hlast, hstatus, hlastTime, hnextTime]
    rfl

/-! ### Times that texts tell -/

/-- The schedule with the times that their texts tell. -/
def spelled (s : Schedule) : Schedule :=
  { s with
    createdAt := s.createdAt.spelled
    lastRunAt := s.lastRunAt.map (·.spelled)
    nextRunAt := s.nextRunAt.map (·.spelled) }

theorem toJson_spelled (s : Schedule) : s.spelled.toJson = s.toJson := by
  rw [toJson, toJson, spelled, Json.ofTimestamp_spelled, Json.ofOption_map Json.ofTimestamp_spelled,
    Json.ofOption_map Json.ofTimestamp_spelled]

theorem spelled_of_mem_times (s : Schedule) : ∀ t ∈ s.spelled.times, t.Spelled := by
  rw [forall_mem_times]
  exact ⟨s.createdAt.spelled_spelled, Timestamp.spelled_of_mem_map _, Timestamp.spelled_of_mem_map _⟩

/-- Nothing is changed exactly if texts can tell all times. -/
theorem spelled_eq_iff {s : Schedule} : s.spelled = s ↔ ∀ t ∈ s.times, t.Spelled := by
  rw [forall_mem_times, ← Timestamp.map_spelled_eq_iff, ← Timestamp.map_spelled_eq_iff, ← Timestamp.spelled_eq_iff]
  constructor
  · intro h
    exact ⟨congrArg (·.createdAt) h, congrArg (·.lastRunAt) h, congrArg (·.nextRunAt) h⟩
  · rintro ⟨hcreated, hlast, hnext⟩
    rw [spelled, hcreated, hlast, hnext]

/-- What is read from a text of the schedule. -/
theorem read_text (s : Schedule) {text : String} (htext : text = s.toJson.compact ∨ text = s.toJson.indented) :
    (Json.parse? text).bind ofDocument? = some s.spelled := by
  rw [← toJson_spelled] at htext
  obtain ⟨hlegible, hread⟩ := stored 126 s.spelled_of_mem_times
  rw [hlegible.parse?_text htext, Option.bind_some]
  exact hread

/-! ### Fields that are left out -/

/-- The fields of a schedule that may be missing, with what is taken for them. -/
def defaults : Fields :=
  [("description", .null), ("cron_expression", .null), ("timezone", .string "UTC"),
    ("max_consecutive_failures", .number (.integer 3 (by decide))), ("auto_disable_on_failure", .bool true),
    ("created_by", .null), ("enabled", .bool true), ("run_count", .zero),
    ("failure_count", .zero), ("consecutive_failures", .zero),
    ("last_run_id", .null), ("last_run_status", .null), ("last_run_at", .null), ("next_run_at", .null)]

/-- A schedule is read the same whether fields that have their defaults are written or left out. -/
theorem ofDocument?_without {fields : Fields} {names : List String} (h : Fields.WritesDefaults defaults names fields) :
    ofDocument? (.object (fields.without names)) = ofDocument? (.object fields) := by
  refine h.bind_fields? _ _ ?_
  rw [h.required, h.required, h.optional, h.required, h.required, h.optional, h.withDefault, h.withDefault, h.withDefault,
    h.optional, h.required, h.withDefault, h.withDefault, h.withDefault, h.withDefault, h.optional, h.optional, h.optional,
    h.optional]
  all_goals rfl

end Scorecard.Schedule
