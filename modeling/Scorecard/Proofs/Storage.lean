import Scorecard.Proofs.Run.Operation
import Scorecard.Proofs.Run.Storage
import Scorecard.Proofs.Schedule.Operation
import Scorecard.Proofs.Schedule.Storage

/-!
What is stored is what is loaded. Runs and schedules are written as text, compact or indented, and come back
with the times that the text tells, so as they were if no time has a leap second within a minute; then whatever is
done to them afterwards answers as if they had never been away. Fields that have their defaults need not be in an
object.
-/
namespace Scorecard

/-- A run or a schedule is loaded from its text with the times that the text tells, so it is as it was, with all that
follows from it, exactly if a text can tell all its times; and it is loaded from an object the same whether fields that
have their defaults are written or missing. The doubles in a run must be reproduced by the writer and the reader of
numbers, and whatever ids and times are supplied are not used. -/
theorem stored_and_loaded (supply : Supply) :
    (∀ (r : Run) (text : String), (∀ x ∈ r.floats, Json.Reproduced x) →
      text = r.toJson.compact ∨ text = r.toJson.indented →
        ∃ r', (Json.parse? text).bind (Run.ofDocument? supply) = some r' ∧ r' = r.spelled ∧
          (r' = r ↔ ∀ t ∈ r.times, t.Spelled) ∧
          ((∀ t ∈ r.times, t.Spelled) → ∀ ops, r'.afterAll ops = r.afterAll ops ∧
            ∀ q : Run.Request, q.apply (r'.afterAll ops) = q.apply (r.afterAll ops))) ∧
      (∀ (s : Schedule) (text : String), text = s.toJson.compact ∨ text = s.toJson.indented →
        ∃ s', (Json.parse? text).bind Schedule.ofDocument? = some s' ∧ s' = s.spelled ∧
          (s' = s ↔ ∀ t ∈ s.times, t.Spelled) ∧
          ((∀ t ∈ s.times, t.Spelled) → ∀ ops, s'.afterAll ops = s.afterAll ops ∧
            ∀ op : Schedule.Operation, op.tripped (s'.afterAll ops) = op.tripped (s.afterAll ops))) ∧
      (∀ (fields : Json.Fields) (missing : List String), Json.Fields.WritesDefaults Run.defaults missing fields →
        Run.ofDocument? supply (.object (fields.without missing)) = Run.ofDocument? supply (.object fields)) ∧
      ∀ (fields : Json.Fields) (missing : List String), Json.Fields.WritesDefaults Schedule.defaults missing fields →
        Schedule.ofDocument? (.object (fields.without missing)) = Schedule.ofDocument? (.object fields) := by
  refine ⟨fun r text hfloats htext => ?_, fun s text htext => ?_, fun fields missing h => ?_, fun fields missing h => ?_⟩
  · refine ⟨_, Run.read_text hfloats htext supply, rfl, Run.spelled_eq_iff, fun htimes ops => ?_⟩
    rw [Run.spelled_eq_iff.mpr htimes]
    exact ⟨rfl, fun q => rfl⟩
  · refine ⟨_, s.read_text htext, rfl, Schedule.spelled_eq_iff, fun htimes ops => ?_⟩
    rw [Schedule.spelled_eq_iff.mpr htimes]
    exact ⟨rfl, fun op => rfl⟩
  · exact Run.ofDocument?_without h supply
  · exact Schedule.ofDocument?_without h

/-- A run that started in a leap second and a schedule that a run in it has failed are loaded from their
texts; and of what has its default, a run may lack its results and its count of retries, a schedule its zone and
whether it is enabled. -/
theorem stored_and_loaded_of_leapSecond :
    let time : Timestamp := ⟨1483228799, 1999999999, by decide, by decide⟩
    let supply : Supply := ⟨time, fun _ => ⟨0⟩⟩
    let measured := ((Trace.new ⟨1⟩ time "t").withMeasurement time "bleu" 0.1).withScore "q" 1e22
    let r := { Run.new ⟨7⟩ "a \"b\"\n" "agent" .webhook with results := [measured], startedAt := some time }
    let s := ((Schedule.new ⟨9⟩ time "nightly" "b" "a").recordFailure (some r.id) time).schedule
    let fields : Json.Fields := [("retry_count", .zero), ("status", .string "PENDING"),
      ("results", .array []), ("triggered_by", .string "MANUAL"), ("agent_id", .string "a"),
      ("benchmark_id", .string "b"), ("id", .string r.id.text)]
    let missing := ["results", "retry_count"]
    let fields' : Json.Fields := [("id", .string s.id.text), ("timezone", .string "UTC"), ("name", .string "nightly"),
      ("enabled", .bool true), ("benchmark_id", .string "b"), ("agent_id", .string "a"),
      ("created_at", .string time.text)]
    let missing' := ["enabled", "timezone"]
    (∀ x ∈ r.floats, Json.Reproduced x) ∧ (∀ t ∈ r.times, t.Spelled) ∧
      (∃ r', (Json.parse? r.toJson.indented).bind (Run.ofDocument? supply) = some r' ∧ r' = r ∧
        ∀ ops, r'.afterAll ops = r.afterAll ops ∧ ∀ q : Run.Request, q.apply (r'.afterAll ops) = q.apply (r.afterAll ops)) ∧
      (∀ t ∈ s.times, t.Spelled) ∧
      (∃ s', (Json.parse? s.toJson.compact).bind Schedule.ofDocument? = some s' ∧ s' = s ∧
        ∀ ops, s'.afterAll ops = s.afterAll ops ∧
          ∀ op : Schedule.Operation, op.tripped (s'.afterAll ops) = op.tripped (s.afterAll ops)) ∧
      Json.Fields.WritesDefaults Run.defaults missing fields ∧
      Run.ofDocument? supply (.object (fields.without missing)) = Run.ofDocument? supply (.object fields) ∧
      Json.Fields.WritesDefaults Schedule.defaults missing' fields' ∧
      Schedule.ofDocument? (.object (fields'.without missing')) = Schedule.ofDocument? (.object fields') := by
  intro time supply measured r s fields missing fields' missing'
  have hfloats : ∀ x ∈ r.floats, Json.Reproduced x := by decide +kernel
  have htimes : ∀ t ∈ r.times, t.Spelled := by decide +kernel
  have htimes' : ∀ t ∈ s.times, t.Spelled := by decide +kernel
  have hdefaults : Json.Fields.WritesDefaults Run.defaults missing fields :=
    List.forall_mem_cons.mpr ⟨⟨_, rfl, rfl⟩, List.forall_mem_singleton.mpr ⟨_, rfl, rfl⟩⟩
  have hdefaults' : Json.Fields.WritesDefaults Schedule.defaults missing' fields' :=
    List.forall_mem_cons.mpr ⟨⟨_, rfl, rfl⟩, List.forall_mem_singleton.mpr ⟨_, rfl, rfl⟩⟩
  obtain ⟨hrun, hschedule, hrunFields, hscheduleFields⟩ := stored_and_loaded supply
  obtain ⟨r', hread, -, hsame, hafter⟩ := hrun r _ hfloats (.inr rfl)
  obtain ⟨s', hread', -, hsame', hafter'⟩ := hschedule s _ (.inl rfl)
  exact ⟨hfloats, htimes, ⟨r', hread, hsame.mpr htimes, hafter htimes⟩, htimes',
    ⟨s', hread', hsame'.mpr htimes', hafter' htimes'⟩, hdefaults, hrunFields fields missing hdefaults, hdefaults',
    hscheduleFields fields' missing' hdefaults'⟩

/-- A run that started in a leap second within a minute is loaded as another; and a run that is an array is refused
without the fields at its end, though it is read with nulls and zero in their places. -/
theorem loaded_changed_or_refused :
    let time : Timestamp := ⟨1583064030, 1500000000, by decide, by decide⟩
    let supply : Supply := ⟨time, fun _ => ⟨0⟩⟩
    let r := (Run.new ⟨7⟩ "b" "a" .manual).started time
    let items : List Json.Document := [.string r.id.text, .string "b", .string "a", .string "MANUAL", .null, .null,
      .array [], .string "PENDING"]
    (∀ x ∈ r.floats, Json.Reproduced x) ∧
      (∃ r', (Json.parse? r.toJson.compact).bind (Run.ofDocument? supply) = some r' ∧ r' ≠ r) ∧
      (Run.ofDocument? supply (.array items)).isSome = false ∧
      (Run.ofDocument? supply (.array (items ++ [.null, .null, .null, .null, .null, .zero]))).isSome = true := by
  intro time supply r items
  have hfloats : ∀ x ∈ r.floats, Json.Reproduced x := by decide +kernel
  have hlost : ¬∀ t ∈ r.times, t.Spelled := by decide +kernel
  exact ⟨hfloats, ⟨_, Run.read_text hfloats (.inl rfl) supply, mt Run.spelled_eq_iff.mp hlost⟩, by decide +kernel,
    by decide +kernel⟩

end Scorecard
