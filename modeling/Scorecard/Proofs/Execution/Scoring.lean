import Mathlib
import Scorecard.Execution.Scoring

/-!
What scoring does with one indicator, and from it what it does with a list of them. An indicator is
scored, passed over, or ends the scoring, and which of the three depends on the indicator, the metrics
and the settings alone. A scoring ends with the first indicator that ends it; without one, the history
holds the indicators that can be scored and the skipped names are those of the others, all in order.
-/
namespace Scorecard.Execution

/-! ### One indicator -/

section

variable (settings : Settings) (known : Metric.Registry) (metrics : Table Float)

/-- The indicator has the score `value`, by the formula `f`. -/
structure Scores (kpi : Kpi) (f : Formula) (value : Float) : Prop where
  build : kpi.specification.build known = .ok f
  evaluate : f.evaluate metrics = .ok value

/-- The indicator has a formula but no score, and the settings do not mind. -/
structure PassedOver (kpi : Kpi) (f : Formula) (error : EvaluationError) : Prop where
  build : kpi.specification.build known = .ok f
  evaluate : f.evaluate metrics = .error error
  lenient : settings.failOnKpiError = false

/-- The indicator ends the scoring: building its formula comes first, evaluating it second. -/
inductive Stops (kpi : Kpi) : Failure → Prop
  | specification {error : Kpi.SpecificationError} (hbuild : kpi.specification.build known = .error error) :
      Stops kpi (.specification error)
  | evaluation {f : Formula} {error : EvaluationError} (hbuild : kpi.specification.build known = .ok f)
      (hevaluate : f.evaluate metrics = .error error) (hstrict : settings.failOnKpiError = true) :
      Stops kpi (.evaluation error)

/-- The indicator has a formula, and a score unless the settings do not mind. -/
def GoesOn (kpi : Kpi) : Prop :=
  ∃ f, kpi.specification.build known = .ok f ∧
    ((∃ value, f.evaluate metrics = .ok value) ∨ settings.failOnKpiError = false)

def isScored (kpi : Kpi) : Bool :=
  match kpi.specification.build known with
  | .ok f => (f.evaluate metrics).isOk
  | .error _ => false

/-- One of three things becomes of an indicator. -/
theorem scores_or_passedOver_or_stops (kpi : Kpi) :
    (∃ f value, Scores known metrics kpi f value) ∨ (∃ f error, PassedOver settings known metrics kpi f error) ∨
      ∃ failure, Stops settings known metrics kpi failure := by
  cases hbuild : kpi.specification.build known with
  | error error => exact .inr (.inr ⟨_, .specification hbuild⟩)
  | ok f =>
      cases hevaluate : f.evaluate metrics with
      | ok value => exact .inl ⟨f, value, hbuild, hevaluate⟩
      | error error =>
          cases hsettings : settings.failOnKpiError with
          | true => exact .inr (.inr ⟨_, .evaluation hbuild hevaluate hsettings⟩)
          | false => exact .inr (.inl ⟨f, error, hbuild, hevaluate, hsettings⟩)

/-- Along a list of indicators a scoring goes on with each that is scored or passed over, until one stops it. -/
@[elab_as_elim]
theorem score_induction {motive : List Kpi → Prop} (nil : motive [])
    (scores : ∀ kpi kpis f value, Scores known metrics kpi f value → motive kpis → motive (kpi :: kpis))
    (passedOver : ∀ kpi kpis f error, PassedOver settings known metrics kpi f error → motive kpis → motive (kpi :: kpis))
    (stops : ∀ kpi kpis failure, Stops settings known metrics kpi failure → motive (kpi :: kpis)) (kpis : List Kpi) :
    motive kpis := by
  induction kpis with
  | nil => exact nil
  | cons kpi kpis ih =>
      rcases scores_or_passedOver_or_stops settings known metrics kpi with
        ⟨f, value, h⟩ | ⟨f, error, h⟩ | ⟨failure, h⟩
      · exact scores kpi kpis f value h ih
      · exact passedOver kpi kpis f error h ih
      · exact stops kpi kpis failure h

end

variable {settings : Settings} {known : Metric.Registry} {metrics : Table Float} {kpi : Kpi}

theorem Scores.goesOn {f : Formula} {value : Float} (h : Scores known metrics kpi f value) :
    GoesOn settings known metrics kpi :=
  ⟨f, h.build, .inl ⟨value, h.evaluate⟩⟩

theorem PassedOver.goesOn {f : Formula} {error : EvaluationError} (h : PassedOver settings known metrics kpi f error) :
    GoesOn settings known metrics kpi :=
  ⟨f, h.build, .inr h.lenient⟩

theorem Stops.not_goesOn {failure : Failure} (h : Stops settings known metrics kpi failure) :
    ¬GoesOn settings known metrics kpi := by
  rintro ⟨f, hbuild, hgoes⟩
  cases h with
  | specification hbuild' =>
      rw [hbuild] at hbuild'
      cases hbuild'
  | evaluation hbuild' hevaluate hstrict =>
      rw [hbuild] at hbuild'
      cases hbuild'
      rcases hgoes with ⟨value, hvalue⟩ | hlenient
      · rw [hvalue] at hevaluate
        cases hevaluate
      · rw [hstrict] at hlenient
        cases hlenient

theorem Scores.isScored {f : Formula} {value : Float} (h : Scores known metrics kpi f value) :
    isScored known metrics kpi = true := by
  rw [Execution.isScored, h.build]
  dsimp only
  rw [h.evaluate]
  rfl

theorem PassedOver.isScored {f : Formula} {error : EvaluationError} (h : PassedOver settings known metrics kpi f error) :
    isScored known metrics kpi = false := by
  rw [Execution.isScored, h.build]
  dsimp only
  rw [h.evaluate]
  rfl

/-! ### Scoring step by step -/

namespace Context

variable (c : Context) (index : Nat) (traces : List Trace) (kpis : List Kpi)

theorem score_cons_of_scores {f : Formula} {value : Float} (h : Scores c.known c.metrics kpi f value) :
    c.score index traces (kpi :: kpis) =
      { c.score (index + 1) (traces.map (scoreTrace kpi.name f)) kpis with
        history := c.entry index kpi f value ::
          (c.score (index + 1) (traces.map (scoreTrace kpi.name f)) kpis).history
        journal := kpi.specification.buildJournal c.known ++ .count .evaluations ::
          Journal.tell (c.scoredEvent (c.entry index kpi f value)) ::
            (c.score (index + 1) (traces.map (scoreTrace kpi.name f)) kpis).journal } := by
  rw [score, h.build]
  dsimp only
  rw [h.evaluate]

theorem score_cons_of_passedOver {f : Formula} {error : EvaluationError}
    (h : PassedOver c.settings c.known c.metrics kpi f error) :
    c.score index traces (kpi :: kpis) =
      { c.score index traces kpis with
        skipped := kpi.name :: (c.score index traces kpis).skipped
        journal := kpi.specification.buildJournal c.known ++ [.count .evaluations, .count .evaluationFailures] ++
          (c.score index traces kpis).journal } := by
  rw [score, h.build]
  dsimp only
  rw [h.evaluate]
  dsimp only
  rw [if_neg (by simp [h.lenient])]

/-- What an indicator that ends the scoring leaves: the traces as they are, and its failure. -/
theorem score_cons_of_stops {failure : Failure} (h : Stops c.settings c.known c.metrics kpi failure) :
    ∃ journal, c.score index traces (kpi :: kpis) = ⟨traces, [], [], journal, some failure⟩ := by
  cases h with
  | specification hbuild =>
      rw [score, hbuild]
      exact ⟨_, rfl⟩
  | evaluation hbuild hevaluate hstrict =>
      rw [score, hbuild]
      dsimp only
      rw [hevaluate]
      dsimp only
      rw [if_pos hstrict]
      exact ⟨_, rfl⟩

/-- The entry says whose score it is, what the score is and by which formula, and how it lies with
respect to the band and the baseline of the indicator. -/
structure Records (kpi : Kpi) (entry : Kpi.HistoryEntry) : Prop where
  run : entry.runId = some c.runId
  benchmark : entry.benchmarkId = c.benchmarkId
  agent : entry.agentId = c.agentId
  indicator : entry.kpiId = some kpi.id ∧ entry.kpiName = kpi.name
  score : ∃ f, Scores c.known c.metrics kpi f entry.value ∧ entry.fingerprint = some f.fingerprint
  band : entry.minimum = kpi.minimum ∧ entry.maximum = kpi.maximum
  status : entry.status = .ofScore kpi.minimum kpi.maximum entry.value
  baseline : entry.baseline = kpi.baseline
  delta : entry.delta = kpi.baseline.map fun baseline => entry.value - baseline

theorem records_entry {f : Formula} {value : Float} (h : Scores c.known c.metrics kpi f value) :
    c.Records kpi (c.entry index kpi f value) := by
  unfold entry
  cases hbaseline : kpi.baseline with
  | none => exact ⟨rfl, rfl, rfl, ⟨rfl, rfl⟩, ⟨f, h, rfl⟩, ⟨rfl, rfl⟩, rfl, hbaseline.symm, by rw [hbaseline]; rfl⟩
  | some baseline =>
      exact ⟨rfl, rfl, rfl, ⟨rfl, rfl⟩, ⟨f, h, rfl⟩, ⟨rfl, rfl⟩, rfl, hbaseline.symm, by rw [hbaseline]; rfl⟩

theorem measurements_scoreTrace (name : String) (f : Formula) (t : Trace) :
    (scoreTrace name f t).measurements = t.measurements := by
  unfold scoreTrace
  split <;> rfl

/-! ### Scoring a list -/

/-- The scoring goes through if every indicator goes on. -/
theorem failure_score_eq_none_iff :
    (c.score index traces kpis).failure = none ↔ ∀ kpi ∈ kpis, GoesOn c.settings c.known c.metrics kpi := by
  induction kpis using score_induction c.settings c.known c.metrics generalizing index traces with
  | nil => simp [score]
  | scores kpi kpis f value h ih =>
      rw [List.forall_mem_cons, score_cons_of_scores c index traces kpis h]
      exact (ih _ _).trans (and_iff_right h.goesOn).symm
  | passedOver kpi kpis f error h ih =>
      rw [List.forall_mem_cons, score_cons_of_passedOver c index traces kpis h]
      exact (ih _ _).trans (and_iff_right h.goesOn).symm
  | stops kpi kpis failure h =>
      obtain ⟨journal, hscore⟩ := score_cons_of_stops c index traces kpis h
      rw [List.forall_mem_cons, hscore]
      exact ⟨fun hnone => absurd hnone (Option.some_ne_none _), fun hgoes => absurd hgoes.1 h.not_goesOn⟩

/-- A scoring that fails does so with the first indicator that ends it. -/
theorem exists_of_failure_score {failure : Failure} (h : (c.score index traces kpis).failure = some failure) :
    ∃ before kpi after, kpis = before ++ kpi :: after ∧
      (∀ k ∈ before, GoesOn c.settings c.known c.metrics k) ∧ Stops c.settings c.known c.metrics kpi failure := by
  induction kpis using score_induction c.settings c.known c.metrics generalizing index traces with
  | nil => cases h
  | scores kpi kpis f value hkpi ih =>
      rw [score_cons_of_scores c index traces kpis hkpi] at h
      obtain ⟨before, stopping, after, rfl, hbefore, hstops⟩ := ih _ _ h
      exact ⟨kpi :: before, stopping, after, rfl, List.forall_mem_cons.mpr ⟨hkpi.goesOn, hbefore⟩, hstops⟩
  | passedOver kpi kpis f error hkpi ih =>
      rw [score_cons_of_passedOver c index traces kpis hkpi] at h
      obtain ⟨before, stopping, after, rfl, hbefore, hstops⟩ := ih _ _ h
      exact ⟨kpi :: before, stopping, after, rfl, List.forall_mem_cons.mpr ⟨hkpi.goesOn, hbefore⟩, hstops⟩
  | stops kpi kpis failure' hkpi =>
      obtain ⟨journal, hscore⟩ := score_cons_of_stops c index traces kpis hkpi
      rw [hscore] at h
      obtain rfl : failure' = failure := Option.some.inj h
      exact ⟨[], kpi, kpis, rfl, fun _ hk => absurd hk List.not_mem_nil, hkpi⟩

/-- The history holds the indicators that have scores, the skipped names are those of the others. -/
theorem history_and_skipped_score (h : (c.score index traces kpis).failure = none) :
    List.Forall₂ (Records c) (kpis.filter fun kpi => isScored c.known c.metrics kpi) (c.score index traces kpis).history ∧
      (c.score index traces kpis).skipped =
        (kpis.filter fun kpi => !isScored c.known c.metrics kpi).map (·.name) := by
  induction kpis using score_induction c.settings c.known c.metrics generalizing index traces with
  | nil => exact ⟨.nil, rfl⟩
  | scores kpi kpis f value hkpi ih =>
      rw [score_cons_of_scores c index traces kpis hkpi] at h ⊢
      obtain ⟨hhistory, hskipped⟩ := ih _ _ h
      simp only [List.filter_cons, hkpi.isScored, if_true, Bool.not_true, Bool.false_eq_true, if_false]
      exact ⟨.cons (c.records_entry index hkpi) hhistory, hskipped⟩
  | passedOver kpi kpis f error hkpi ih =>
      rw [score_cons_of_passedOver c index traces kpis hkpi] at h ⊢
      obtain ⟨hhistory, hskipped⟩ := ih _ _ h
      simp only [List.filter_cons, hkpi.isScored, Bool.not_false, if_true, Bool.false_eq_true, if_false]
      exact ⟨hhistory, congrArg (kpi.name :: ·) hskipped⟩
  | stops kpi kpis failure hkpi =>
      obtain ⟨journal, hscore⟩ := score_cons_of_stops c index traces kpis hkpi
      rw [hscore] at h
      cases h

/-- Every entry of the history records one of the indicators. -/
theorem exists_of_mem_history {entry : Kpi.HistoryEntry} (h : entry ∈ (c.score index traces kpis).history) :
    ∃ kpi ∈ kpis, c.Records kpi entry := by
  induction kpis using score_induction c.settings c.known c.metrics generalizing index traces with
  | nil => cases h
  | scores kpi kpis f value hkpi ih =>
      rw [score_cons_of_scores c index traces kpis hkpi] at h
      rcases List.mem_cons.mp h with rfl | h
      · exact ⟨kpi, List.mem_cons_self, c.records_entry index hkpi⟩
      · obtain ⟨k, hk, hrecords⟩ := ih _ _ h
        exact ⟨k, List.mem_cons_of_mem _ hk, hrecords⟩
  | passedOver kpi kpis f error hkpi ih =>
      rw [score_cons_of_passedOver c index traces kpis hkpi] at h
      obtain ⟨k, hk, hrecords⟩ := ih _ _ h
      exact ⟨k, List.mem_cons_of_mem _ hk, hrecords⟩
  | stops kpi kpis failure hkpi =>
      obtain ⟨journal, hscore⟩ := score_cons_of_stops c index traces kpis hkpi
      rw [hscore] at h
      cases h

end Context

end Scorecard.Execution
