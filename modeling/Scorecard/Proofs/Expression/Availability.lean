import Scorecard.Expression.Diagnostic
import Scorecard.Proofs.Expression.Validation
import Scorecard.Proofs.Metric.Name

/-!
The check against available metrics is exact. It lets an outcome pass unless there is a formula with a metric that is
not available, and then it says which these are and what is available, each name once and in order. What is available
is a set of metrics: neither the order of the names nor their spelling makes a difference. The main statement is
`checkAvailable_exact`.
-/
namespace Scorecard.Expression

/-- The lists name the same metrics, in whichever order, number and spelling. -/
def SameNames (available available' : List String) : Prop :=
  (∀ a ∈ available, ∃ a' ∈ available', Metric.SameName a a') ∧ ∀ a' ∈ available', ∃ a ∈ available, Metric.SameName a a'

/-- One diagnostic at the start of the text lists the metrics that are not available, and those that are. -/
def IsUnavailable (references : NameSet) (available : List String) (outcome : Outcome) : Prop :=
  ∃ missing shown : List String,
    (missing.Pairwise (· < ·) ∧
      ∀ name, name ∈ missing ↔ references.contains name = true ∧ name ∉ available.map Metric.normalize) ∧
    (shown.Pairwise (· < ·) ∧ ∀ name, name ∈ shown ↔ name ∈ available.map Metric.normalize) ∧
    diagnostics outcome =
      [{ code := .metricNotAvailable
         message := "Metrics referenced but not available: " ++ ", ".intercalate missing ++ ". Available metrics: " ++
           if available = [] then "(none)" else ", ".intercalate shown
         line := 1
         column := 1
         severity := .error }]

/-! ### What is available -/

theorem SameNames.map_normalize {available available' : List String} (h : SameNames available available') :
    NameSet.ofList (available.map Metric.normalize) = NameSet.ofList (available'.map Metric.normalize) := by
  refine NameSet.ofList_congr fun name => ?_
  simp only [List.mem_map]
  constructor
  · rintro ⟨a, ha, rfl⟩
    obtain ⟨a', ha', hsame⟩ := h.1 a ha
    exact ⟨a', ha', hsame.normalize_eq.symm⟩
  · rintro ⟨a', ha', rfl⟩
    obtain ⟨a, ha, hsame⟩ := h.2 a' ha'
    exact ⟨a, ha, hsame.normalize_eq⟩

/-- Only the set of metrics counts. -/
theorem checkAvailable_congr {available available' : List String} (h : SameNames available available')
    (outcome : Outcome) : checkAvailable available outcome = checkAvailable available' outcome := by
  unfold checkAvailable
  rw [h.map_normalize]

theorem mem_keys_ofList {names : List String} {name : String} : name ∈ (NameSet.ofList names).keys ↔ name ∈ names := by
  rw [← Table.contains_iff_mem_keys, NameSet.contains_ofList]

theorem isEmpty_keys_ofList {names : List String} : (NameSet.ofList names).keys.isEmpty = true ↔ names = [] := by
  rw [List.isEmpty_iff, List.eq_nil_iff_forall_not_mem, List.eq_nil_iff_forall_not_mem]
  simp only [mem_keys_ofList]

/-! ### What is not -/

theorem message_unavailable (missing : List String) (names : List String) :
    (Problem.unavailable missing (NameSet.ofList names).keys).message =
      "Metrics referenced but not available: " ++ ", ".intercalate missing ++ ". Available metrics: " ++
        if names = [] then "(none)" else ", ".intercalate (NameSet.ofList names).keys := by
  have hlisted : Problem.listed (NameSet.ofList names).keys =
      if names = [] then "(none)" else ", ".intercalate (NameSet.ofList names).keys := by
    simp only [Problem.listed, isEmpty_keys_ofList]
  rw [← hlisted]
  unfold Problem.message
  simp only [toString]

/-- A metric that is not available is reported, with all others that are not. -/
theorem isUnavailable_of_missing {available : List String} {c : Compiled} {name : String}
    (hreference : c.references.contains name = true) (hname : name ∉ available.map Metric.normalize) :
    IsUnavailable c.references available (checkAvailable available (.ok c)) := by
  let names := available.map Metric.normalize
  let missing := c.references.keys.filter fun name => !(NameSet.ofList names).contains name
  have hmissing (name : String) : name ∈ missing ↔ c.references.contains name = true ∧ name ∉ names := by
    rw [List.mem_filter, ← Table.contains_iff_mem_keys, Bool.not_eq_true', ← Bool.not_eq_true, NameSet.contains_ofList]
  have hcheck : checkAvailable available (.ok c) =
      .error [⟨.unavailable missing (NameSet.ofList names).keys, .start⟩] := by
    have hne : ¬missing.isEmpty = true := by
      rw [List.isEmpty_iff]
      exact List.ne_nil_of_mem ((hmissing name).mpr ⟨hreference, hname⟩)
    exact if_neg hne
  refine ⟨missing, (NameSet.ofList names).keys, ⟨?_, hmissing⟩, ⟨Table.pairwise_keys _, fun _ => mem_keys_ofList⟩, ?_⟩
  · exact c.references.pairwise_keys.filter _
  · have hnone : names = [] ↔ available = [] := List.map_eq_nil_iff
    rw [hcheck, diagnostics, List.map_singleton, Fault.diagnostic, message_unavailable]
    simp only [hnone]
    rfl

/-- Whatever the text, the registry and the names that are available: what did not compile stays as it is, and so does
what compiled if all its metrics are available; otherwise the metrics that are not are reported. And the names may be
exchanged for others that name the same metrics. -/
theorem checkAvailable_exact (known : Metric.Registry) (text : String) (available : List String) :
    (∀ found, compile known text = .error found → checkAvailable available (compile known text) = .error found) ∧
      (∀ c, compile known text = .ok c →
        ((∀ name, c.references.contains name = true → name ∈ available.map Metric.normalize) →
            checkAvailable available (compile known text) = .ok c) ∧
          ((∃ name, c.references.contains name = true ∧ name ∉ available.map Metric.normalize) →
            IsUnavailable c.references available (checkAvailable available (compile known text)))) ∧
        ∀ available', SameNames available available' →
          checkAvailable available' (compile known text) = checkAvailable available (compile known text) := by
  refine ⟨fun found hfound => ?_, fun c hc => ⟨fun hall => ?_, ?_⟩, fun available' hsame => ?_⟩
  · rw [hfound]
    rfl
  · exact checkAvailable_eq_ok_iff.mpr ⟨hc, hall⟩
  · rintro ⟨name, hreference, hname⟩
    rw [hc]
    exact isUnavailable_of_missing hreference hname
  · exact (checkAvailable_congr hsame _).symm

/-- Of two metrics one is available, and this in several spellings. -/
theorem checkAvailable_exact_average :
    let text := "AVERAGE(rouge, bleu)"
    let available := ["Rouge ", "latency"]
    let available' := ["latency", "ROUGE", "latency"]
    ∃ c, compile .standard text = .ok c ∧ c.references.contains "BLEU" = true ∧
      "BLEU" ∉ available.map Metric.normalize ∧ SameNames available available' ∧
      IsUnavailable c.references available (checkAvailable available (compile .standard text)) ∧
      checkAvailable available' (compile .standard text) = checkAvailable available (compile .standard text) := by
  intro text available available'
  have hkeys : (compile .standard text).toOption.map (·.references.keys) = some ["BLEU", "ROUGE"] := by decide +kernel
  have hblank : ∀ c ∈ [' '], Text.isBlank c = true := List.forall_mem_singleton.mpr (by decide)
  have hnone : ∀ c ∈ [], Text.isBlank c = true := List.forall_mem_nil _
  have hrouge : Metric.SameName "Rouge " "ROUGE" :=
    @Metric.SameName.intro [] "Rouge".toList [' '] [] "ROUGE".toList [] hnone hblank hnone hnone (by decide)
  have hlatency : Metric.SameName "latency" "latency" :=
    @Metric.SameName.intro [] "latency".toList [] [] "latency".toList [] hnone hnone hnone hnone rfl
  have hsame : SameNames available available' := by
    constructor <;> simp [available, available', hrouge, hlatency]
  have hmissing : "BLEU" ∉ available.map Metric.normalize := by decide
  obtain ⟨-, hok, hcongr⟩ := checkAvailable_exact .standard text available
  cases hcompile : compile .standard text with
  | error found =>
      rw [hcompile] at hkeys
      cases hkeys
  | ok c =>
      rw [hcompile] at hkeys
      have hreferences : c.references.keys = ["BLEU", "ROUGE"] := Option.some.inj hkeys
      have hreference : c.references.contains "BLEU" = true :=
        Table.contains_iff_mem_keys.mpr (hreferences ▸ List.mem_cons_self)
      refine ⟨c, rfl, hreference, hmissing, hsame, ?_, ?_⟩
      · rw [← hcompile]
        exact (hok c hcompile).2 ⟨"BLEU", hreference, hmissing⟩
      · rw [← hcompile]
        exact hcongr available' hsame

end Scorecard.Expression
