import Scorecard.Proofs.Execution.Outcome
import Scorecard.Proofs.Execution.TraceScores

/-!
The traces that an execution leaves in its run: those that the source answered, each scored by itself. Under the
name of an indicator that is scored, a trace of a completed run has the score that its own metrics give, or the
one that it brought along. A run that fails at an indicator keeps the scores by the indicators before it, although
its report does not tell of them.
-/
namespace Scorecard.Execution

/-- What is left of an execution that ends, by where it does: at the source, at an indicator, or not before. -/
inductive Leaves (x : Executor) (stamps : Stamps) (answer : Answer) (benchmark : Benchmark) (run : Run)
    (report : Report) : Prop
  | unanswered {failure : Failure} (hanswer : answer = .error failure) (status : report.run.status = .failed)
      (results : report.run.results = run.results) (history : report.history = [])
  | stopped {traces : List Trace} {c : Context} {failure : Failure} (hanswer : answer = .ok traces)
      (hc : c = x.context stamps benchmark run traces)
      (failed : (c.score 0 traces benchmark.measures).failure = some failure) (status : report.run.status = .failed)
      (results : report.run.results = traces.map (scoreAll (c.scored benchmark.measures))) (history : report.history = [])
  | scored {traces : List Trace} {c : Context} (hanswer : answer = .ok traces)
      (hc : c = x.context stamps benchmark run traces)
      (failed : (c.score 0 traces benchmark.measures).failure = none) (status : report.run.status = .completed)
      (results : report.run.results = traces.map (scoreAll (c.scored benchmark.measures)))
      (history : report.history = (c.score 0 traces benchmark.measures).history)

section

variable {x : Executor} {stamps : Stamps} {answer : Answer} {benchmark : Benchmark} {run : Run} {report : Report}
  {w w' : Workspace}

theorem leaves_execute (h : (x.execute stamps answer benchmark).run w = .ok report w') :
    Leaves x stamps answer benchmark w.run report := by
  have hcourse := course_execute x stamps answer benchmark w
  rw [h] at hcourse
  cases hcourse with
  | unanswered _ hanswer hbegun =>
      subst hbegun
      exact .unanswered hanswer rfl rfl rfl
  | @stopped traces c _ _ _ hanswer hc hfailure hscored =>
      subst hscored
      exact .stopped hanswer hc hfailure rfl (c.traces_score 0 traces benchmark.measures) rfl
  | @completed traces c _ _ hanswer hc hfailure _ hchecked =>
      subst hchecked
      exact .scored hanswer hc hfailure rfl (c.traces_score 0 traces benchmark.measures) rfl

/-- A run is completed where a scoring goes through. -/
theorem Leaves.exists_of_completed (h : Leaves x stamps answer benchmark run report)
    (hcompleted : report.run.status = .completed) :
    ∃ traces c, answer = .ok traces ∧ c = x.context stamps benchmark run traces ∧
      (∀ kpi ∈ benchmark.measures, GoesOn c.settings c.known c.metrics kpi) ∧
      report.run.results = traces.map (scoreAll (c.scored benchmark.measures)) ∧
      report.history = (c.score 0 traces benchmark.measures).history := by
  cases h with
  | unanswered _ hstatus =>
      rw [hstatus] at hcompleted
      cases hcompleted
  | stopped _ _ _ hstatus =>
      rw [hstatus] at hcompleted
      cases hcompleted
  | @scored traces c hanswer hc hfailure _ hresults hhistory =>
      exact ⟨traces, c, hanswer, hc, (c.failure_score_eq_none_iff 0 traces _).mp hfailure, hresults, hhistory⟩

theorem Leaves.history_of_failed (h : Leaves x stamps answer benchmark run report)
    (hfailed : report.run.status = .failed) : report.history = [] := by
  cases h with
  | unanswered _ _ _ hhistory => exact hhistory
  | stopped _ _ _ _ _ hhistory => exact hhistory
  | scored _ _ _ hstatus =>
      rw [hstatus] at hfailed
      cases hfailed

theorem Leaves.completed_or_failed (h : Leaves x stamps answer benchmark run report) :
    report.run.status = .completed ∨ report.run.status = .failed := by
  cases h with
  | unanswered _ hstatus => exact .inr hstatus
  | stopped _ _ _ hstatus => exact .inr hstatus
  | scored _ _ _ hstatus => exact .inl hstatus

/-! ### Completed runs -/

/-- The copy has a score under the name exactly if the metrics of the trace suffice for the formula, and it is
the score that they give. -/
def HasOwnScore (name : String) (f : Formula) (given copy : Trace) : Prop :=
  ∀ value, copy.scores.get? name = some value ↔ f.evaluate (aggregate [given]) = .ok value

/-- What becomes of a trace with respect to an indicator that is scored. -/
structure ScoredCopy (name : String) (f : Formula) (given copy : Trace) : Prop where
  rest : copy = { given with scores := copy.scores }
  score : copy.scores.get? name = (f.evaluate (aggregate [given])).toOption.or (given.scores.get? name)
  own_iff : HasOwnScore name f given copy ↔
    (∃ value, f.evaluate (aggregate [given]) = .ok value) ∨ given.scores.get? name = none

theorem hasOwnScore_iff {name : String} {f : Formula} {given copy : Trace}
    (h : copy.scores.get? name = (ownScore? f given).or (given.scores.get? name)) :
    HasOwnScore name f given copy ↔
      (∃ value, f.evaluate (aggregate [given]) = .ok value) ∨ given.scores.get? name = none := by
  simp only [HasOwnScore, h, ← ownScore?_eq_some_iff]
  cases ownScore? f given with
  | some own => simp
  | none => simp [Option.eq_none_iff_forall_ne_some]

theorem scoredCopy_scoreAll {scored : List (String × Formula)} (hnames : (scored.map (·.1)).Nodup) {name : String}
    {f : Formula} (h : (name, f) ∈ scored) (t : Trace) : ScoredCopy name f t (scoreAll scored t) where
  rest := scoreAll_eq scored t
  score := scores_scoreAll hnames h t
  own_iff := hasOwnScore_iff (scores_scoreAll hnames h t)

/-- The traces of a run that is completed are those of the source. For each entry of the history each of them has
the score that its own metrics give by the formula of the entry. Where they give none it is as it was: without a
score if it came without one. -/
theorem execute_scoresTraces (h : (x.execute stamps answer benchmark).run w = .ok report w')
    (hcompleted : report.run.status = .completed) (hnames : (benchmark.measures.map (·.name)).Nodup) :
    ∃ traces, answer = .ok traces ∧ ∀ entry ∈ report.history, ∃ kpi ∈ benchmark.measures, ∃ f,
      kpi.name = entry.kpiName ∧ Scores x.known (aggregate traces) kpi f entry.value ∧
        List.Forall₂ (ScoredCopy kpi.name f) traces report.run.results := by
  obtain ⟨traces, c, hanswer, hc, hgoes, hresults, hhistory⟩ := (leaves_execute h).exists_of_completed hcompleted
  refine ⟨traces, hanswer, fun entry hentry => ?_⟩
  rw [hhistory] at hentry
  obtain ⟨kpi, hkpi, hrecord⟩ := c.exists_of_mem_history 0 traces benchmark.measures hentry
  obtain ⟨f, hscores, -⟩ := hrecord.score
  have hmem := Context.mem_scored hscores hgoes hkpi
  have hnodup := (c.names_scored_sublist benchmark.measures).nodup hnames
  refine ⟨kpi, hkpi, f, hrecord.indicator.2.symm, ?_, ?_⟩
  · rw [hc] at hscores
    exact hscores
  · rw [hresults, List.forall₂_map_right_iff, List.forall₂_same]
    exact fun t _ => scoredCopy_scoreAll hnodup hmem t

/-- A trace with the measurement 0.25. -/
def measured : Trace := (Trace.new ⟨2⟩ noon "trace-1").withMeasurement noon "ROUGE" 0.25

/-- A trace without measurements, which has a score from before. -/
def scoredBefore : Trace := (Trace.new ⟨7⟩ noon "trace-2").withScore "quality" 0.75

def quality : Kpi := Kpi.new ⟨3⟩ "quality" (.ofFormula (.averageOf ["ROUGE"]))

def style : Kpi := Kpi.new ⟨6⟩ "style" (.ofFormula (.averageOf ["BLEU"]))

def benchmarkOf (measures : List Kpi) : Benchmark := { Benchmark.new "bench-1" with measures }

def executor : Executor := ⟨.standard, .standard⟩

def newRun : Run := .new ⟨5⟩ "bench-1" "agent-1" .manual

def executeOn (traces : List Trace) (measures : List Kpi) : EStateM.Result Interruption Workspace Report :=
  (executor.execute ⟨noon, fun _ => ⟨4⟩, fun _ => noon, noon, noon⟩ (.ok traces) (benchmarkOf measures)).run
    ⟨newRun, [], []⟩

theorem executeOn_scoresTraces :
    ∃ report w, executeOn [measured, scoredBefore] [quality] = .ok report w ∧ report.run.status = .completed ∧
      ([quality].map (·.name)).Nodup ∧ ∃ traces, (.ok [measured, scoredBefore] : Answer) = .ok traces ∧
        ∀ entry ∈ report.history, ∃ kpi ∈ [quality], ∃ f,
          kpi.name = entry.kpiName ∧ Scores executor.known (aggregate traces) kpi f entry.value ∧
            List.Forall₂ (ScoredCopy kpi.name f) traces report.run.results := by
  have hexecute : executeOn [measured, scoredBefore] [quality] = .ok _ _ := rfl
  have hnames : ([quality].map (·.name)).Nodup := by decide
  exact ⟨_, _, hexecute, by decide +kernel, hnames, execute_scoresTraces hexecute (by decide +kernel) hnames⟩

/-- The trace without measurements keeps its score, which no metric of its own gives. -/
theorem not_hasOwnScore_of_scoredBefore :
    ∃ report w, executeOn [measured, scoredBefore] [quality] = .ok report w ∧ report.run.status = .completed ∧
      ([quality].map (·.name)).Nodup ∧ report.history.map (·.kpiName) = ["quality"] ∧
      quality.specification.build executor.known = .ok (.averageOf ["ROUGE"]) ∧
      ¬List.Forall₂ (HasOwnScore "quality" (.averageOf ["ROUGE"])) [measured, scoredBefore] report.run.results := by
  have hexecute : executeOn [measured, scoredBefore] [quality] = .ok _ _ := rfl
  refine ⟨_, _, hexecute, by decide +kernel, by decide, by decide +kernel, rfl, fun h => ?_⟩
  cases h with
  | cons _ h =>
      cases h with
      | cons h _ =>
          have hown := (h 0.75).mp rfl
          cases hown

/-! ### Runs and their reports -/

/-- The report has an entry for every name under which a trace of its run has a score. -/
def RecordsScores (report : Report) : Prop :=
  ∀ t ∈ report.run.results, ∀ name, t.scores.contains name = true → name ∈ report.history.map (·.kpiName)

/-- A run that fails keeps scores: those that its traces had before the source was asked, or those by an indicator
that comes before the one at which the run fails. -/
inductive KeepsScores (x : Executor) (answer : Answer) (benchmark : Benchmark) (run : Run) : Prop
  | earlier {failure : Failure} {name : String} {t : Trace} (hanswer : answer = .error failure) (ht : t ∈ run.results)
      (hscore : t.scores.contains name = true)
  | halfway {traces : List Trace} {before after : List Kpi} {kpi k : Kpi} {failure : Failure} {f : Formula}
      {value own : Float} {t : Trace} (hanswer : answer = .ok traces)
      (hmeasures : benchmark.measures = before ++ kpi :: after)
      (hbefore : ∀ k ∈ before, GoesOn x.settings x.known (aggregate traces) k)
      (hkpi : Stops x.settings x.known (aggregate traces) kpi failure) (hk : k ∈ before)
      (hscores : Scores x.known (aggregate traces) k f value) (ht : t ∈ traces)
      (hown : f.evaluate (aggregate [t]) = .ok own)

theorem Context.scored_append_cons_of_stops {c : Context} {before : List Kpi} {kpi : Kpi} {failure : Failure}
    (hbefore : ∀ k ∈ before, GoesOn c.settings c.known c.metrics k)
    (hkpi : Stops c.settings c.known c.metrics kpi failure) (after : List Kpi) :
    c.scored (before ++ kpi :: after) = c.scored before := by
  rw [scored_append hbefore, scored_cons_of_stops hkpi, List.append_nil]

theorem contains_scoreAll_of_fresh {t : Trace} (ht : t.scores = ∅) (scored : List (String × Formula)) (name : String) :
    (scoreAll scored t).scores.contains name = true ↔ ∃ f, (name, f) ∈ scored ∧ (ownScore? f t).isSome = true := by
  rw [contains_scoreAll_iff, ht]
  exact or_iff_right Bool.false_ne_true

/-- What a scoring that stops leaves on fresh traces are the scores by the indicators before it stops. -/
theorem exists_contains_scoreAll_iff {c : Context} {before : List Kpi} {kpi : Kpi} {failure : Failure}
    (hbefore : ∀ k ∈ before, GoesOn c.settings c.known c.metrics k)
    (hkpi : Stops c.settings c.known c.metrics kpi failure) (after : List Kpi) {t : Trace} (ht : t.scores = ∅) :
    (∃ name, (scoreAll (c.scored (before ++ kpi :: after)) t).scores.contains name = true) ↔
      ∃ k ∈ before, ∃ f, (∃ value, Scores c.known c.metrics k f value) ∧ ∃ own, f.evaluate (aggregate [t]) = .ok own := by
  simp only [Context.scored_append_cons_of_stops hbefore hkpi, contains_scoreAll_of_fresh ht, Option.isSome_iff_exists,
    ownScore?_eq_some_iff]
  constructor
  · rintro ⟨name, f, hmem, hown⟩
    obtain ⟨k, hk, -, hscores⟩ := Context.exists_of_mem_scored hmem
    exact ⟨k, hk, f, hscores, hown⟩
  · rintro ⟨k, hk, f, ⟨value, hscores⟩, hown⟩
    exact ⟨k.name, f, Context.mem_scored hscores hbefore hk, hown⟩

theorem keepsScores_error_iff {failure : Failure} :
    KeepsScores x (.error failure) benchmark run ↔ ∃ t ∈ run.results, ∃ name, t.scores.contains name = true := by
  constructor
  · intro h
    cases h with
    | earlier _ ht hscore => exact ⟨_, ht, _, hscore⟩
    | halfway hanswer => cases hanswer
  · rintro ⟨t, ht, name, hscore⟩
    exact .earlier rfl ht hscore

/-- The scores that are kept are those that a scoring which stops leaves on the traces. -/
theorem keepsScores_ok_iff {c : Context} {traces : List Trace} {before after : List Kpi} {kpi : Kpi} {failure : Failure}
    (hc : c = x.context stamps benchmark run traces) (hfresh : ∀ t ∈ traces, t.scores = ∅)
    (hmeasures : benchmark.measures = before ++ kpi :: after)
    (hbefore : ∀ k ∈ before, GoesOn c.settings c.known c.metrics k)
    (hkpi : Stops c.settings c.known c.metrics kpi failure) :
    KeepsScores x (.ok traces) benchmark run ↔
      ∃ t ∈ traces, ∃ name, (scoreAll (c.scored benchmark.measures) t).scores.contains name = true := by
  subst hc
  constructor
  · intro h
    cases h with
    | earlier hanswer => cases hanswer
    | halfway hanswer hmeasures' hbefore' hkpi' hk hscores ht hown =>
        obtain rfl := Except.ok.inj hanswer
        refine ⟨_, ht, ?_⟩
        rw [hmeasures', exists_contains_scoreAll_iff (c := x.context stamps benchmark run _) hbefore' hkpi' _ (hfresh _ ht)]
        exact ⟨_, hk, _, ⟨_, hscores⟩, _, hown⟩
  · rintro ⟨t, ht, hname⟩
    rw [hmeasures, exists_contains_scoreAll_iff hbefore hkpi _ (hfresh t ht)] at hname
    obtain ⟨k, hk, f, ⟨value, hscores⟩, own, hown⟩ := hname
    exact .halfway rfl hmeasures hbefore hkpi hk hscores ht hown

/-- A failed run keeps scores exactly if one is found on its traces. -/
theorem keepsScores_iff_of_failed (hleaves : Leaves x stamps answer benchmark run report)
    (hfresh : ∀ traces, answer = .ok traces → ∀ t ∈ traces, t.scores = ∅) (hfailed : report.run.status = .failed) :
    KeepsScores x answer benchmark run ↔ ∃ t ∈ report.run.results, ∃ name, t.scores.contains name = true := by
  cases hleaves with
  | unanswered hanswer _ hresults => rw [hanswer, hresults, keepsScores_error_iff]
  | @stopped traces c failure hanswer hc hfailure _ hresults =>
      obtain ⟨before, kpi, after, hmeasures, hbefore, hkpi⟩ := c.exists_of_failure_score 0 traces _ hfailure
      rw [hanswer, keepsScores_ok_iff hc (hfresh traces hanswer) hmeasures hbefore hkpi, hresults]
      simp only [List.mem_map, exists_exists_and_eq_and]
  | scored _ _ _ hstatus =>
      rw [hstatus] at hfailed
      cases hfailed

theorem KeepsScores.not_unhindered (h : KeepsScores x answer benchmark run) : ¬Unhindered x answer benchmark := by
  cases h with
  | earlier hanswer => exact (FailsFirst.source hanswer).not_unhindered
  | halfway hanswer hmeasures hbefore hkpi => exact (FailsFirst.indicator hanswer hmeasures hbefore hkpi).not_unhindered

theorem not_keepsScores_of_completed (hleaves : Leaves x stamps answer benchmark run report)
    (hcompleted : report.run.status = .completed) : ¬KeepsScores x answer benchmark run := by
  obtain ⟨traces, c, hanswer, rfl, hgoes, -⟩ := hleaves.exists_of_completed hcompleted
  exact fun hkeeps => hkeeps.not_unhindered ⟨traces, hanswer, hgoes⟩

theorem recordsScores_of_completed (hleaves : Leaves x stamps answer benchmark run report)
    (hfresh : ∀ traces, answer = .ok traces → ∀ t ∈ traces, t.scores = ∅) (hcompleted : report.run.status = .completed) :
    RecordsScores report := by
  obtain ⟨traces, c, hanswer, -, -, hresults, hhistory⟩ := hleaves.exists_of_completed hcompleted
  intro t ht name hname
  rw [hresults] at ht
  obtain ⟨given, hgiven, rfl⟩ := List.mem_map.mp ht
  obtain ⟨f, hmem, -⟩ := (contains_scoreAll_of_fresh (hfresh traces hanswer given hgiven) _ name).mp hname
  rw [hhistory, c.names_history_score]
  exact List.mem_map_of_mem hmem

theorem recordsScores_iff_of_history (h : report.history = []) :
    RecordsScores report ↔ ¬∃ t ∈ report.run.results, ∃ name, t.scores.contains name = true := by
  rw [RecordsScores, h]
  push Not
  exact forall₂_congr fun t ht => forall_congr' fun name => imp_congr_right fun _ => by simp

/-- On traces that come without scores, the report of a completed run has an entry for every name under which one
of them has a score afterwards. The report of a failed run has none, so it tells of all scores exactly if the run
keeps none. -/
theorem execute_recordsScores (h : (x.execute stamps answer benchmark).run w = .ok report w')
    (hfresh : ∀ traces, answer = .ok traces → ∀ t ∈ traces, t.scores = ∅) :
    (report.run.status = .completed → RecordsScores report) ∧
      (RecordsScores report ↔ ¬KeepsScores x answer benchmark w.run) := by
  have hleaves := leaves_execute h
  refine ⟨recordsScores_of_completed hleaves hfresh, ?_⟩
  rcases hleaves.completed_or_failed with hcompleted | hfailed
  · exact iff_of_true (recordsScores_of_completed hleaves hfresh hcompleted)
      (not_keepsScores_of_completed hleaves hcompleted)
  · rw [recordsScores_iff_of_history (hleaves.history_of_failed hfailed), keepsScores_iff_of_failed hleaves hfresh hfailed]

end

/-- The report of a run that fails at the second indicator. -/
theorem executeOn_recordsScores :
    ∃ report w, executeOn [measured] [quality, style] = .ok report w ∧
      (∀ traces, (.ok [measured] : Answer) = .ok traces → ∀ t ∈ traces, t.scores = ∅) ∧
      (report.run.status = .completed → RecordsScores report) ∧
      (RecordsScores report ↔ ¬KeepsScores executor (.ok [measured]) (benchmarkOf [quality, style]) newRun) := by
  have hexecute : executeOn [measured] [quality, style] = .ok _ _ := rfl
  have hfresh : ∀ traces, (.ok [measured] : Answer) = .ok traces → ∀ t ∈ traces, t.scores = ∅ := by
    rintro _ ⟨⟩ t ht
    obtain rfl := List.mem_singleton.mp ht
    rfl
  exact ⟨_, _, hexecute, hfresh, execute_recordsScores hexecute hfresh⟩

/-- The run keeps the score by the first indicator, which its report says nothing of. -/
theorem not_recordsScores_of_failed :
    ∃ report w, executeOn [measured] [quality, style] = .ok report w ∧ report.run.status = .failed ∧
      (∀ t ∈ [measured], t.scores = ∅) ∧ ¬RecordsScores report := by
  have hexecute : executeOn [measured] [quality, style] = .ok _ _ := rfl
  refine ⟨_, _, hexecute, by decide +kernel, List.forall_mem_singleton.mpr rfl, fun hrecords => ?_⟩
  have hrecorded := hrecords (scoreTrace "quality" (.averageOf ["ROUGE"]) measured) List.mem_cons_self "quality" rfl
  cases hrecorded

end Scorecard.Execution
