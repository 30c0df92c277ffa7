import Scorecard.Proofs.Json.Stored
import Scorecard.Proofs.Timestamp
import Scorecard.Report.Summary

/-!
Summaries as they are kept in files. What a summary says are the facts of the report that it was made of, and it is
taken back from the text of its file with the times that the text tells, so as it was if no alert has fired in a leap
second within a minute.
-/
namespace Scorecard

open Json (Stored Fields)

/-! ### Firings -/

/-- The numbers in a firing: the score and the threshold. -/
def Alert.Firing.floats (f : Alert.Firing) : List Float := [f.value, f.threshold]

theorem Alert.Firing.stored (height : Nat) {f : Alert.Firing} (h : ∀ x ∈ f.floats, Json.Reproduced x)
    (htime : f.triggeredAt.Spelled) : Stored (height + 1) toJson ofDocument? f := by
  obtain ⟨hvalue, hthreshold⟩ := List.forall_mem_cons.mp h
  have hstring := Json.stored_string height
  have halert := Json.stored_uuid height f.alertId
  have hvalue := Json.stored_float height hvalue
  have hthreshold := Json.stored_float height (List.forall_mem_singleton.mp hthreshold)
  have hcondition : Stored height (fun c : Condition => .string c.word) Condition.ofDocument? f.condition :=
    Json.stored_word _ f.condition.ofWord?_word
  have hseverity : Stored height (fun s : Severity => .string s.word) Severity.ofDocument? f.severity :=
    Json.stored_word _ f.severity.ofWord?_word
  have hrun : Stored height (.ofOption .ofUuid) (·.option? (·.uuid?)) f.runId :=
    Json.stored_option rfl fun u _ => Json.stored_uuid _ u
  have htime := Json.stored_timestamp height htime
  refine ⟨.object ?_, ?_⟩
  · simp only [List.forall_mem_cons]
    exact ⟨halert.legible, (hstring _).legible, (hstring _).legible, hvalue.legible, hthreshold.legible,
      hcondition.legible, hseverity.legible, hrun.legible, htime.legible, List.forall_mem_nil _⟩
  · obtain ⟨fields, hfields, halert, hname, hkpi, hvalue, hthreshold, hcondition, hseverity, hrun, htime⟩ :
        ∃ fields : Fields, (∀ names least, f.toJson.toDocument.fields? names least = some fields) ∧
        fields.required "alert_id" (·.uuid?) = some f.alertId ∧
        fields.required "alert_name" (·.string?) = some f.alertName ∧
        fields.required "kpi_name" (·.string?) = some f.kpiName ∧
        fields.required "value" (·.float?) = some f.value ∧
        fields.required "threshold" (·.float?) = some f.threshold ∧
        fields.required "condition" Condition.ofDocument? = some f.condition ∧
        fields.required "severity" Severity.ofDocument? = some f.severity ∧
        fields.optional "run_id" (·.uuid?) = some f.runId ∧
        fields.required "triggered_at" (·.timestamp?) = some f.triggeredAt :=
      ⟨_, Json.fields?_toDocument (by simp), halert.required rfl, (hstring _).required rfl, (hstring _).required rfl,
        hvalue.required rfl, hthreshold.required rfl, hcondition.required rfl, hseverity.required rfl, hrun.readsBack,
        htime.required rfl⟩
    rw [Json.ReadsBack, ofDocument?, hfields]
    simp only [halert, hname, hkpi, hvalue, hthreshold, hcondition, hseverity, hrun, htime, Option.bind_eq_bind,
      Option.bind_some, Option.pure_def]

/-- The firing with the time that its text tells. -/
def Alert.Firing.spelled (f : Alert.Firing) : Alert.Firing := { f with triggeredAt := f.triggeredAt.spelled }

theorem Alert.Firing.toJson_spelled (f : Alert.Firing) : f.spelled.toJson = f.toJson := by
  rw [toJson, toJson, spelled, Json.ofTimestamp_spelled]

theorem Alert.Firing.spelled_eq_iff {f : Alert.Firing} : f.spelled = f ↔ f.triggeredAt.Spelled := by
  rw [← Timestamp.spelled_eq_iff]
  constructor
  · intro h
    exact congrArg (·.triggeredAt) h
  · intro h
    rw [spelled, h]

namespace Report

/-! ### Lines -/

/-- The numbers in the line of an indicator: the score and, if there is a baseline, the distance from it. -/
def KpiLine.floats (l : KpiLine) : List Float := l.value :: l.delta.toList

theorem KpiLine.stored (height : Nat) {l : KpiLine} (h : ∀ x ∈ l.floats, Json.Reproduced x) :
    Stored (height + 1) toJson ofDocument? l := by
  obtain ⟨hvalue, hdelta⟩ := List.forall_mem_cons.mp h
  have hstring := Json.stored_string height
  have hvalue := Json.stored_float height hvalue
  have hdelta : Stored height (.ofOption .ofFloat) (·.option? (·.float?)) l.delta :=
    Json.stored_option rfl fun x hx => Json.stored_float height (hdelta x (Option.mem_toList.mpr hx))
  refine ⟨.object ?_, ?_⟩
  · simp only [List.forall_mem_cons]
    exact ⟨(hstring _).legible, hvalue.legible, (hstring _).legible, hdelta.legible, List.forall_mem_nil _⟩
  · obtain ⟨fields, hfields, hname, hvalue, hstatus, hdelta⟩ : ∃ fields : Fields,
        (∀ names least, l.toJson.toDocument.fields? names least = some fields) ∧
        fields.required "name" (·.string?) = some l.name ∧ fields.required "value" (·.float?) = some l.value ∧
        fields.required "status" (·.string?) = some l.status ∧
        fields.optional "delta_from_baseline" (·.float?) = some l.delta :=
      ⟨_, Json.fields?_toDocument (by simp), (hstring _).required rfl, hvalue.required rfl, (hstring _).required rfl,
        hdelta.readsBack⟩
    rw [Json.ReadsBack, ofDocument?, hfields]
    simp only [hname, hvalue, hstatus, hdelta, Option.bind_eq_bind, Option.bind_some, Option.pure_def]

namespace Summary

/-! ### Summaries -/

/-- The numbers in a summary: those of the metrics, of the lines and of the firings. -/
def floats (s : Summary) : List Float :=
  s.metrics.entries.map (·.2) ++ (s.kpis.flatMap KpiLine.floats ++ s.firings.flatMap Alert.Firing.floats)

/-- The times in a summary: its own and those of the firings. -/
def times (s : Summary) : List Timestamp := s.generatedAt :: s.firings.map (·.triggeredAt)

theorem stored (height : Nat) {s : Summary} (h : ∀ x ∈ s.floats, Json.Reproduced x) (htimes : ∀ t ∈ s.times, t.Spelled) :
    Stored (height + 3) toJson ofDocument? s := by
  obtain ⟨hgenerated, htriggered⟩ := List.forall_mem_cons.mp htimes
  obtain ⟨hmetrics, hparts⟩ := List.forall_mem_append.mp h
  obtain ⟨hlines, hfirings⟩ := List.forall_mem_append.mp hparts
  have hstring := Json.stored_string (height + 2)
  have hcount := Json.stored_uint64 (height + 2)
  have hgenerated := Json.stored_timestamp (height + 2) hgenerated
  have hrun := Json.stored_uuid (height + 2) s.runId
  have hstatus : Stored (height + 2) (fun status : Run.Status => .string status.word) Run.Status.ofDocument? s.status :=
    Json.stored_word _ s.status.ofWord?_word
  have hmetrics : Stored (height + 2) (.ofTable .ofFloat) (·.table? (·.float?)) s.metrics :=
    Json.stored_table fun e he => Json.stored_float _ (hmetrics _ (List.mem_map_of_mem he))
  have hkpis : Stored (height + 2) (.ofList KpiLine.toJson) (·.list? KpiLine.ofDocument?) s.kpis :=
    Json.stored_list fun l hl => KpiLine.stored height fun x hx => hlines x (List.mem_flatMap.mpr ⟨l, hl, hx⟩)
  have hfirings : Stored (height + 2) (.ofList Alert.Firing.toJson) (·.list? Alert.Firing.ofDocument?) s.firings :=
    Json.stored_list fun f hf =>
      Alert.Firing.stored height (fun x hx => hfirings x (List.mem_flatMap.mpr ⟨f, hf, hx⟩))
        (htriggered _ (List.mem_map_of_mem hf))
  have hskipped : Stored (height + 2) (.ofList .string) (·.list? (·.string?)) s.skipped :=
    Json.stored_list fun name _ => Json.stored_string _ name
  have herror : Stored (height + 2) (.ofOption .string) (·.option? (·.string?)) s.error :=
    Json.stored_option rfl fun error _ => Json.stored_string _ error
  refine ⟨.object ?_, ?_⟩
  · simp only [List.forall_mem_cons]
    exact ⟨(hstring _).legible, hgenerated.legible, hrun.legible, (hstring _).legible, (hstring _).legible,
      hstatus.legible, (hcount _).legible, (hcount _).legible, (hcount _).legible, hmetrics.legible, hkpis.legible,
      hfirings.legible, hskipped.legible, herror.legible, List.forall_mem_nil _⟩
  · obtain ⟨fields, hfields, hversion, hgenerated, hrun, hbenchmark, hagent, hstatus, hduration, htraces, hmeasured,
        hmetrics, hkpis, hfirings, hskipped, herror⟩ : ∃ fields : Fields,
        (∀ names least, s.toJson.toDocument.fields? names least = some fields) ∧
        fields.required "schema_version" (·.string?) = some s.schemaVersion ∧
        fields.required "generated_at" (·.timestamp?) = some s.generatedAt ∧
        fields.required "run_id" (·.uuid?) = some s.runId ∧
        fields.required "benchmark_id" (·.string?) = some s.benchmarkId ∧
        fields.required "agent_id" (·.string?) = some s.agentId ∧
        fields.required "status" Run.Status.ofDocument? = some s.status ∧
        fields.required "duration_ms" (·.uint64?) = some s.durationMillis ∧
        fields.required "traces_processed" (·.uint64?) = some s.tracesProcessed ∧
        fields.required "metrics_computed" (·.uint64?) = some s.metricsComputed ∧
        fields.required "metrics" (·.table? (·.float?)) = some s.metrics ∧
        fields.required "kpis" (·.list? KpiLine.ofDocument?) = some s.kpis ∧
        fields.required "triggered_alerts" (·.list? Alert.Firing.ofDocument?) = some s.firings ∧
        fields.required "skipped_kpis" (·.list? (·.string?)) = some s.skipped ∧
        fields.optional "error" (·.string?) = some s.error :=
      ⟨_, Json.fields?_toDocument (by simp), (hstring _).required rfl, hgenerated.required rfl, hrun.required rfl,
        (hstring _).required rfl, (hstring _).required rfl, hstatus.required rfl, (hcount _).required rfl,
        (hcount _).required rfl, (hcount _).required rfl, hmetrics.required rfl, hkpis.required rfl,
        hfirings.required rfl, hskipped.required rfl, herror.readsBack⟩
    rw [Json.ReadsBack, ofDocument?, hfields, Option.bind_eq_bind, Option.bind_some]
    rw [hversion, hgenerated, hrun, hbenchmark, hagent, hstatus, hduration, htraces, hmeasured, hmetrics, hkpis, hfirings,
      hskipped, herror]
    rfl

/-! ### Times that texts tell -/

/-- The summary with the times that its text tells. -/
def spelled (s : Summary) : Summary :=
  { s with generatedAt := s.generatedAt.spelled, firings := s.firings.map (·.spelled) }

theorem toJson_spelled (s : Summary) : s.spelled.toJson = s.toJson := by
  rw [toJson, toJson, spelled, Json.ofTimestamp_spelled, Json.ofList_map Alert.Firing.toJson_spelled]

theorem floats_spelled (s : Summary) : s.spelled.floats = s.floats := by
  rw [floats, floats, spelled, List.flatMap_map]
  rfl

theorem spelled_of_mem_times (s : Summary) : ∀ t ∈ s.spelled.times, t.Spelled := by
  rw [times, spelled, List.map_map, List.forall_mem_cons, List.forall_mem_map]
  exact ⟨s.generatedAt.spelled_spelled, fun f _ => f.triggeredAt.spelled_spelled⟩

/-- Nothing is changed exactly if texts can tell all times. -/
theorem spelled_eq_iff {s : Summary} : s.spelled = s ↔ ∀ t ∈ s.times, t.Spelled := by
  have hfirings : s.firings.map (·.spelled) = s.firings ↔ ∀ f ∈ s.firings, f.triggeredAt.Spelled := by
    simp only [Json.map_eq_self_iff, Alert.Firing.spelled_eq_iff]
  rw [times, List.forall_mem_cons, List.forall_mem_map, ← Timestamp.spelled_eq_iff, ← hfirings]
  constructor
  · intro h
    exact ⟨congrArg (·.generatedAt) h, congrArg (·.firings) h⟩
  · rintro ⟨hgenerated, hfirings⟩
    rw [spelled, hgenerated, hfirings]

/-- What is read from the text of the file. -/
theorem read_fileText {s : Summary} (h : ∀ x ∈ s.floats, Json.Reproduced x) :
    (Json.parse? s.fileText).bind ofDocument? = some s.spelled := by
  rw [← floats_spelled] at h
  obtain ⟨hlegible, hread⟩ := stored 124 h s.spelled_of_mem_times
  rw [fileText, ← toJson_spelled, hlegible.parse?_text (.inr rfl), Option.bind_some]
  exact hread

/-! ### Reports -/

/-- The line tells the name, the score, the status in a word and the distance from the baseline of the entry. -/
structure Tells (e : Kpi.HistoryEntry) (l : KpiLine) : Prop where
  name : l.name = e.kpiName
  value : l.value = e.value
  status : l.status = e.status.word
  delta : l.delta = e.delta

/-- The summary says of the run what the report says of it, and lists its scores, its firings and the names of what
was passed over in their order. -/
structure Summarizes (s : Summary) (r : Report) : Prop where
  run : s.runId = r.run.id
  benchmark : s.benchmarkId = r.run.benchmarkId
  agent : s.agentId = r.run.agentId
  status : s.status = r.run.status
  duration : s.durationMillis.toNat = r.run.durationMillis
  traces : s.tracesProcessed = r.run.traces.getD 0
  measured : s.metricsComputed = r.run.metrics.getD 0
  error : s.error = r.run.error
  metrics : s.metrics = r.metrics
  kpis : List.Forall₂ Tells r.history s.kpis
  firings : s.firings = r.firings
  skipped : s.skipped = r.skipped

theorem durationMillis_lt (r : Run) : r.durationMillis < 2 ^ 64 := by
  unfold Run.durationMillis
  split
  · exact Timestamp.millisBetween_lt _ _
  · decide

theorem summarizes_ofReport (generatedAt : Timestamp) (r : Report) : (ofReport generatedAt r).Summarizes r where
  run := rfl
  benchmark := rfl
  agent := rfl
  status := rfl
  duration := UInt64.toNat_ofNat_of_lt' (durationMillis_lt r.run)
  traces := rfl
  measured := rfl
  error := rfl
  metrics := rfl
  kpis := by
    rw [ofReport, List.forall₂_map_right_iff, List.forall₂_same]
    exact fun e _ => ⟨rfl, rfl, rfl, rfl⟩
  firings := rfl
  skipped := rfl

/-- The summary of a report tells what the report says, and it is read back from the text of its file with the times
that the text tells, so as it was written exactly if a text can tell them all. The doubles in it must be reproduced by
the writer and the reader of numbers. -/
theorem fileText_readsBack (generatedAt : Timestamp) (r : Report)
    (h : ∀ x ∈ (ofReport generatedAt r).floats, Json.Reproduced x) :
    (ofReport generatedAt r).Summarizes r ∧
      ∃ s, (Json.parse? (ofReport generatedAt r).fileText).bind ofDocument? = some s ∧
        s = (ofReport generatedAt r).spelled ∧
        (s = ofReport generatedAt r ↔ generatedAt.Spelled ∧ ∀ f ∈ r.firings, f.triggeredAt.Spelled) := by
  refine ⟨summarizes_ofReport generatedAt r, _, read_fileText h, rfl, spelled_eq_iff.trans ?_⟩
  rw [times, List.forall_mem_cons, List.forall_mem_map]
  exact Iff.rfl

/-- A run that failed, with a score that fell short of its baseline, an alert of it in a leap second at the end of a
minute and a number with an exponent. -/
theorem fileText_readsBack_of_failed :
    let time : Timestamp := ⟨1483228799, 1500000000, by decide, by decide⟩
    let run := ((Run.new ⟨7⟩ "bench-1" "agent \"ä\"\n" .manual).started time).failed "no \\ data" time
    let entry := (Kpi.HistoryEntry.new ⟨2⟩ time "bench-1" "agent" "quality" 0.25).withBaseline 0.75
    let firing := (Alert.new ⟨1⟩ "low" "quality" .lessThan 0.5 .critical).firing time entry
    let r : Report := ⟨run, (∅ : Table Float).insert "BLEU" 1e22, [entry], [firing], ["style", ""]⟩
    (∀ x ∈ (ofReport time r).floats, Json.Reproduced x) ∧ (ofReport time r).Summarizes r ∧
      ∃ s, (Json.parse? (ofReport time r).fileText).bind ofDocument? = some s ∧ s = ofReport time r := by
  intro time run entry firing r
  have hfloats : ∀ x ∈ (ofReport time r).floats, Json.Reproduced x := by decide +kernel
  obtain ⟨hsummarizes, s, hread, -, hsame⟩ := fileText_readsBack time r hfloats
  exact ⟨hfloats, hsummarizes, s, hread, hsame.mpr ⟨by decide, List.forall_mem_singleton.mpr (by decide)⟩⟩

/-- An alert that fired in a leap second within a minute is read back as if it had fired in the second after. -/
theorem fileText_changed_of_leapSecond :
    let time : Timestamp := ⟨1583064000, 0, by decide, by decide⟩
    let leap : Timestamp := ⟨1583064030, 1500000000, by decide, by decide⟩
    let entry := Kpi.HistoryEntry.new ⟨2⟩ time "bench-1" "agent-1" "quality" 0.25
    let firing := (Alert.new ⟨1⟩ "low" "quality" .lessThan 0.5 .critical).firing leap entry
    let r : Report := ⟨Run.new ⟨7⟩ "bench-1" "agent-1" .manual, ∅, [entry], [firing], []⟩
    (∀ x ∈ (ofReport time r).floats, Json.Reproduced x) ∧
      ∃ s, (Json.parse? (ofReport time r).fileText).bind ofDocument? = some s ∧ s ≠ ofReport time r := by
  intro time leap entry firing r
  have hfloats : ∀ x ∈ (ofReport time r).floats, Json.Reproduced x := by decide +kernel
  have hlost : ¬∀ t ∈ (ofReport time r).times, t.Spelled := by decide +kernel
  exact ⟨hfloats, _, read_fileText hfloats, mt spelled_eq_iff.mp hlost⟩

end Summary

end Report

end Scorecard
