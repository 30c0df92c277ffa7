import Scorecard.Proofs.Execution.Results
import Scorecard.Proofs.Formula.FiniteScores

/-!
Which scores of a history are finite. A history holds the scores that the indicators have on the metrics of all
traces, and nothing is asked of them before they are recorded. So all are finite exactly if none of the formulas
leaves the finite numbers on these metrics.
-/
namespace Scorecard.Execution

/-! ### Entries -/

theorem exists_mem_of_forall₂ {α β : Type} {R : α → β → Prop} {as : List α} {bs : List β} (h : List.Forall₂ R as bs)
    {a : α} (ha : a ∈ as) : ∃ b ∈ bs, R a b := by
  induction h with
  | nil => cases ha
  | @cons a' b' _ _ hab _ ih =>
      rcases List.mem_cons.mp ha with rfl | ha
      · exact ⟨b', List.mem_cons_self, hab⟩
      · obtain ⟨b, hb, hr⟩ := ih ha
        exact ⟨b, List.mem_cons_of_mem b' hb, hr⟩

/-- An indicator has one formula and one score. -/
theorem Scores.unique {known : Metric.Registry} {metrics : Table Float} {kpi : Kpi} {f f' : Formula} {value value' : Float}
    (h : Scores known metrics kpi f value) (h' : Scores known metrics kpi f' value') : f = f' ∧ value = value' := by
  obtain rfl : f = f' := Except.ok.inj (h.build.symm.trans h'.build)
  exact ⟨rfl, Except.ok.inj (h.evaluate.symm.trans h'.evaluate)⟩

/-- Where a scoring goes through, each score is recorded. -/
theorem Context.exists_entry_of_scores (c : Context) {index : Nat} {traces : List Trace} {kpis : List Kpi}
    (hfailure : (c.score index traces kpis).failure = none) {kpi : Kpi} (hkpi : kpi ∈ kpis) {f : Formula} {value : Float}
    (h : Scores c.known c.metrics kpi f value) : ∃ entry ∈ (c.score index traces kpis).history, entry.value = value := by
  have hmem : kpi ∈ kpis.filter fun kpi => isScored c.known c.metrics kpi := List.mem_filter.mpr ⟨hkpi, h.isScored⟩
  obtain ⟨hhistory, -⟩ := c.history_and_skipped_score index traces kpis hfailure
  obtain ⟨entry, hentry, hrecords⟩ := exists_mem_of_forall₂ hhistory hmem
  obtain ⟨f', hscores, -⟩ := hrecords.score
  exact ⟨entry, hentry, (hscores.unique h).2⟩

/-! ### Histories -/

variable {x : Executor} {stamps : Stamps} {answer : Answer} {benchmark : Benchmark} {w w' : Workspace} {report : Report}

/-- No formula that has a score on the metrics of the traces leaves the finite numbers on them. -/
def ScoresStayFinite (x : Executor) (answer : Answer) (benchmark : Benchmark) : Prop :=
  ∀ traces, answer = .ok traces → ∀ kpi ∈ benchmark.measures, ∀ f value,
    Scores x.known (aggregate traces) kpi f value → f.StaysFinite (aggregate traces)

theorem finite_history_iff (h : (x.execute stamps answer benchmark).run w = .ok report w') :
    (∀ entry ∈ report.history, entry.value.isFinite = true) ↔
      (report.run.status = .completed → ScoresStayFinite x answer benchmark) := by
  cases leaves_execute h with
  | unanswered _ hstatus _ hhistory | stopped _ _ _ hstatus _ hhistory =>
      rw [hhistory, hstatus]
      exact iff_of_true (List.forall_mem_nil _) fun hcompleted => nomatch hcompleted
  | @scored traces c hanswer hc hfailure hstatus _ hhistory =>
      subst hc
      rw [hhistory]
      constructor
      · rintro hfinite - traces' hanswer' kpi hkpi f value hscores
        obtain rfl : traces = traces' := Except.ok.inj (hanswer.symm.trans hanswer')
        obtain ⟨entry, hentry, rfl⟩ := Context.exists_entry_of_scores _ hfailure hkpi hscores
        exact (Formula.isFinite_evaluate_iff hscores.evaluate).mp (hfinite entry hentry)
      · intro hstays entry hentry
        obtain ⟨kpi, hkpi, hrecords⟩ := Context.exists_of_mem_history _ 0 traces benchmark.measures hentry
        obtain ⟨f, hscores, -⟩ := hrecords.score
        rw [Formula.isFinite_evaluate_iff hscores.evaluate]
        exact hstays hstatus traces hanswer kpi hkpi f entry.value hscores

/-- A score is finite exactly if its formula does not leave the finite numbers on the way to it, and an execution
records finite scores only exactly if it fails or none of its formulas does so. -/
theorem finite_scores_iff {f : Formula} {values : Table Float} {score : Float}
    (hscore : f.evaluate values = .ok score)
    (hexecute : (x.execute stamps answer benchmark).run w = .ok report w') :
    (score.isFinite = true ↔ f.StaysFinite values) ∧
      ((∀ entry ∈ report.history, entry.value.isFinite = true) ↔
        (report.run.status = .completed → ScoresStayFinite x answer benchmark)) :=
  ⟨Formula.isFinite_evaluate_iff hscore, finite_history_iff hexecute⟩

/-- A trace with two measurements. -/
def measuredTwice (bleu rouge : Float) : Trace :=
  ((Trace.new ⟨2⟩ noon "trace-1").withMeasurement noon "BLEU" bleu).withMeasurement noon "ROUGE" rouge

/-- The mean of the two metrics, which is to be at least 0.5. -/
def overall : Kpi :=
  { Kpi.new ⟨3⟩ "overall" (.ofFormula (.averageOf ["BLEU", "ROUGE"])) with minimum := some 0.5 }

/-- Whether there is a report, and it is as asked. -/
def reports (asked : Report → Bool) : EStateM.Result Interruption Workspace Report → Bool
  | .ok report _ => asked report
  | .error .. => false

theorem exists_of_reports {asked : Report → Bool} {result : EStateM.Result Interruption Workspace Report}
    (h : reports asked result = true) : ∃ report w, result = .ok report w ∧ asked report = true := by
  cases result with
  | ok report w => exact ⟨report, w, rfl, h⟩
  | error _ _ => cases h

/-- Great numbers of opposite signs. -/
theorem finite_scores_iff_of_opposite :
    (∃ score, (Formula.average ["BLEU", "ROUGE"]).evaluate (Table.ofList [("BLEU", 1.7e308), ("ROUGE", -1.7e308)]) =
        .ok score ∧
      (score.isFinite = true ↔
        (Formula.average ["BLEU", "ROUGE"]).StaysFinite (Table.ofList [("BLEU", 1.7e308), ("ROUGE", -1.7e308)]))) ∧
    ∃ report w, executeOn [measuredTwice 1.7e308 (-1.7e308)] [overall] = .ok report w ∧
      ((∀ entry ∈ report.history, entry.value.isFinite = true) ↔
        (report.run.status = .completed →
          ScoresStayFinite executor (.ok [measuredTwice 1.7e308 (-1.7e308)]) (benchmarkOf [overall]))) := by
  have hevaluate : (Formula.average ["BLEU", "ROUGE"]).evaluate
      (Table.ofList [("BLEU", 1.7e308), ("ROUGE", -1.7e308)]) = .ok 0 := by decide +kernel
  have hreports : reports (fun _ => true) (executeOn [measuredTwice 1.7e308 (-1.7e308)] [overall]) = true := by
    decide +kernel
  obtain ⟨report, w, hexecute, -⟩ := exists_of_reports hreports
  obtain ⟨hformula, hexecution⟩ := finite_scores_iff hevaluate hexecute
  exact ⟨⟨0, hevaluate, hformula⟩, report, w, hexecute, hexecution⟩

/-- Great numbers of one sign have a mean between them, but their sum is infinite. -/
theorem not_isFinite_mean_of_huge :
    (Formula.average ["BLEU", "ROUGE"]).evaluate (Table.ofList [("BLEU", 1.7e308), ("ROUGE", 1.7e308)]) =
        .ok Formula.infinity ∧
      Formula.infinity.isFinite = false ∧
      ∃ report w, executeOn [measuredTwice 1.7e308 1.7e308] [overall] = .ok report w ∧
        report.run.status = .completed ∧
        report.history.map (fun entry => (entry.value.isFinite, entry.status)) = [(false, .healthy)] := by
  have hreports : reports (fun report => report.run.status = .completed ∧
      report.history.map (fun entry => (entry.value.isFinite, entry.status)) = [(false, .healthy)])
      (executeOn [measuredTwice 1.7e308 1.7e308] [overall]) = true := by
    decide +kernel
  obtain ⟨report, w, hexecute, hasked⟩ := exists_of_reports hreports
  exact ⟨by decide +kernel, by decide +kernel, report, w, hexecute, of_decide_eq_true hasked⟩

end Scorecard.Execution
