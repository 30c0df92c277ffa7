import Scorecard.Proofs.Execution.Results
import Scorecard.Proofs.Journal

/-!
What executions count and tell. Each score that is asked for is counted, and then it is told or counted as failed; a
run that is executed is told first of all, and last of all how it ended, which is counted too, unless the execution
breaks off and has no end. So the counters and the events of executions can be reckoned up against their reports.
-/
namespace Scorecard

/-- Whether the event tells how a run starts or ends. -/
def Event.isOfRun (e : Event) : Bool := e.name == "run.started" || e.name == "run.finished" || e.name == "run.failed"

namespace Journal

/-- At no point of the journal more evaluations have failed than there were. -/
def Covered (j : Journal) : Prop := ∀ p, p <+: j → tally .evaluationFailures p ≤ tally .evaluations p

/-- Every evaluation is told with its score or has failed, and nothing is said of how runs start and end. -/
structure Balanced (j : Journal) : Prop where
  covered : j.Covered
  evaluations : j.tally .evaluations = (j.toldAs "kpi.evaluated").length + j.tally .evaluationFailures
  runs : j.tally .runsCompleted = 0 ∧ j.tally .runsFailed = 0
  silent : ∀ e ∈ j.told, e.isOfRun = false

variable {j j' : Journal} {name : String}

theorem covered_of_tally_eq_zero (h : j.tally .evaluationFailures = 0) : j.Covered := by
  intro p hp
  have hle : tally .evaluationFailures p ≤ tally .evaluationFailures j := hp.sublist.countP_le
  omega

theorem Covered.append (h : j.Covered) (h' : j'.Covered) : (j ++ j').Covered := by
  intro p hp
  rcases List.prefix_or_prefix_of_prefix hp (List.prefix_append j j') with hwithin | ⟨q, rfl⟩
  · exact h p hwithin
  · have hall := h j (List.prefix_refl j)
    have hrest := h' q ((List.prefix_append_right_inj j).mp hp)
    rw [tally_append, tally_append]
    omega

theorem Covered.tell (h : j.Covered) (e : Event) : Covered (Journal.tell e :: j) := by
  have hstart : Covered [Journal.tell e] := covered_of_tally_eq_zero rfl
  exact hstart.append h

theorem Covered.withinRun (h : j.Covered) : j.withinRun.Covered := by
  intro p hp
  obtain ⟨q, hq, rfl⟩ := List.prefix_map_iff.mp hp
  have hcovered := h q hq
  rwa [← tally_withinRun, ← tally_withinRun .evaluations] at hcovered

theorem Balanced.append (h : j.Balanced) (h' : j'.Balanced) : (j ++ j').Balanced where
  covered := h.covered.append h'.covered
  evaluations := by
    have hfirst := h.evaluations
    have hrest := h'.evaluations
    rw [toldAs_append, List.length_append, tally_append, tally_append]
    omega
  runs := by
    rw [tally_append, tally_append, h.runs.1, h.runs.2, h'.runs.1, h'.runs.2]
    exact ⟨rfl, rfl⟩
  silent := by
    rw [told_append]
    exact List.forall_mem_append.mpr ⟨h.silent, h'.silent⟩

theorem Balanced.withinRun (h : j.Balanced) : j.withinRun.Balanced where
  covered := h.covered.withinRun
  evaluations := by
    rw [toldAs_withinRun, tally_withinRun, tally_withinRun]
    exact h.evaluations
  runs := by
    rw [tally_withinRun, tally_withinRun]
    exact h.runs
  silent := by
    rw [told_withinRun]
    exact h.silent

/-- A journal is balanced if it counts no evaluations and tells of no scores and no runs. -/
theorem balanced_of_silent (hevaluations : j.tally .evaluations = 0) (hfailures : j.tally .evaluationFailures = 0)
    (hruns : j.tally .runsCompleted = 0 ∧ j.tally .runsFailed = 0)
    (htold : ∀ e ∈ j.told, e.name ≠ "kpi.evaluated" ∧ e.isOfRun = false) : j.Balanced where
  covered := covered_of_tally_eq_zero hfailures
  evaluations := by
    rw [hevaluations, hfailures, toldAs_eq_nil fun e he => (htold e he).1]
    rfl
  runs := hruns
  silent e he := (htold e he).2

theorem balanced_nil : Balanced [] := balanced_of_silent rfl rfl ⟨rfl, rfl⟩ fun _ he => nomatch he

theorem balanced_failing : Balanced [.count .evaluations, .count .evaluationFailures] where
  covered p hp := by
    simp only [List.prefix_cons_iff, List.prefix_nil] at hp
    rcases hp with rfl | ⟨_, rfl, rfl | ⟨_, rfl, rfl⟩⟩ <;> decide
  evaluations := rfl
  runs := ⟨rfl, rfl⟩
  silent _ he := nomatch he

theorem balanced_scored (run kpi : String) (value : Float) (status : String) :
    Balanced [.count .evaluations, tell (.kpiEvaluated run kpi value status)] where
  covered := covered_of_tally_eq_zero rfl
  evaluations := rfl
  runs := ⟨rfl, rfl⟩
  silent := by simp [Event.isOfRun, Event.name]

end Journal

/-! ### Building and firing -/

theorem Kpi.Specification.buildJournal_cases (known : Metric.Registry) (s : Kpi.Specification) :
    s.buildJournal known = [] ∨ s.buildJournal known = [.count .formulasParsed] ∨
      ∃ text faults, s.buildJournal known = [.count .parseFailures, Journal.tell (.parseFailed text faults)] := by
  unfold buildJournal
  split
  · next text _ =>
      cases Expression.compile known text with
      | ok compiled => exact .inr (.inl rfl)
      | error faults => exact .inr (.inr ⟨_, _, rfl⟩)
  · exact .inl rfl

theorem Kpi.Specification.tally_buildJournal (known : Metric.Registry) (s : Kpi.Specification) :
    (s.buildJournal known).tally .evaluations = 0 ∧ (s.buildJournal known).tally .evaluationFailures = 0 := by
  rcases s.buildJournal_cases known with h | h | ⟨text, faults, h⟩ <;> rw [h] <;> exact ⟨rfl, rfl⟩

theorem Kpi.Specification.balanced_buildJournal (known : Metric.Registry) (s : Kpi.Specification) :
    (s.buildJournal known).Balanced := by
  obtain ⟨hevaluations, hfailures⟩ := s.tally_buildJournal known
  refine Journal.balanced_of_silent hevaluations hfailures ?_ ?_
  · rcases s.buildJournal_cases known with h | h | ⟨text, faults, h⟩ <;> rw [h] <;> exact ⟨rfl, rfl⟩
  · rcases s.buildJournal_cases known with h | h | ⟨text, faults, h⟩ <;> simp [h, Event.name, Event.isOfRun]

/-- Nothing is told of a formula that can be built. -/
theorem Kpi.Specification.told_buildJournal {known : Metric.Registry} (s : Kpi.Specification) {f : Formula}
    (h : s.build known = .ok f) : Journal.told (s.buildJournal known) = [] := by
  unfold build at h
  unfold buildJournal
  cases hbasis : s.basis with
  | expression text =>
      rw [hbasis] at h
      dsimp only [formulaOf] at h
      cases hcompile : Expression.compile known text with
      | ok compiled =>
          dsimp only
          rw [hcompile]
          rfl
      | error faults =>
          rw [hcompile] at h
          cases h
  | formula f => rfl
  | nothing => rfl

theorem Alert.Firing.tally_journal (c : Counter) (firings : List Alert.Firing) :
    (Alert.Firing.journal firings).tally c = 0 := by
  induction firings with
  | nil => rfl
  | cons firing firings ih => exact (Journal.tally_tell c firing.event _).trans ih

theorem Alert.Firing.told_journal (firings : List Alert.Firing) :
    (Alert.Firing.journal firings).told = firings.map (·.event) := by
  induction firings with
  | nil => rfl
  | cons firing firings ih => exact congrArg (firing.event :: ·) ih

theorem Alert.Firing.balanced_journal (firings : List Alert.Firing) : (Alert.Firing.journal firings).Balanced := by
  refine Journal.balanced_of_silent (tally_journal _ _) (tally_journal _ _) ⟨tally_journal _ _, tally_journal _ _⟩ ?_
  rw [told_journal, List.forall_mem_map]
  intro firing _
  exact ⟨by simp [event, Event.name], rfl⟩

namespace Execution

/-! ### Scorings -/

/-- What an indicator enters that ends the scoring. -/
theorem Context.balanced_journal_of_stops (c : Context) (index : Nat) (traces : List Trace) {kpi : Kpi}
    (kpis : List Kpi) {failure : Failure} (h : Stops c.settings c.known c.metrics kpi failure) :
    (c.score index traces (kpi :: kpis)).journal.Balanced := by
  have hbuilding := kpi.specification.balanced_buildJournal c.known
  cases h with
  | specification hbuild =>
      rw [score, hbuild]
      exact hbuilding
  | evaluation hbuild hevaluate hstrict =>
      rw [score, hbuild]
      dsimp only
      rw [hevaluate]
      dsimp only
      rw [if_pos hstrict]
      exact hbuilding.append Journal.balanced_failing

theorem Context.balanced_score (c : Context) (index : Nat) (traces : List Trace) (kpis : List Kpi) :
    (c.score index traces kpis).journal.Balanced := by
  induction kpis using score_induction c.settings c.known c.metrics generalizing index traces with
  | nil => exact Journal.balanced_nil
  | scores kpi kpis f value h ih =>
      rw [score_cons_of_scores c index traces kpis h]
      exact (kpi.specification.balanced_buildJournal c.known).append ((Journal.balanced_scored _ _ _ _).append (ih _ _))
  | passedOver kpi kpis f error h ih =>
      rw [score_cons_of_passedOver c index traces kpis h]
      exact ((kpi.specification.balanced_buildJournal c.known).append Journal.balanced_failing).append (ih _ _)
  | stops kpi kpis failure h => exact c.balanced_journal_of_stops index traces kpis h

/-- A scoring that goes through counts every indicator and tells every score. -/
theorem Context.tally_and_told_score (c : Context) (index : Nat) (traces : List Trace) (kpis : List Kpi)
    (h : (c.score index traces kpis).failure = none) :
    (c.score index traces kpis).journal.tally .evaluations = kpis.length ∧
      (c.score index traces kpis).journal.tally .evaluationFailures = (c.score index traces kpis).skipped.length ∧
      (c.score index traces kpis).journal.told = (c.score index traces kpis).history.map c.scoredEvent := by
  induction kpis using score_induction c.settings c.known c.metrics generalizing index traces with
  | nil => exact ⟨rfl, rfl, rfl⟩
  | scores kpi kpis f value hkpi ih =>
      rw [score_cons_of_scores c index traces kpis hkpi] at h ⊢
      obtain ⟨hevaluations, hfailures, htold⟩ := ih _ _ h
      have hquiet := kpi.specification.tally_buildJournal c.known
      have hsilent := kpi.specification.told_buildJournal hkpi.build
      simp [hquiet, hevaluations, hfailures, hsilent, htold]
  | passedOver kpi kpis f error hkpi ih =>
      rw [score_cons_of_passedOver c index traces kpis hkpi] at h ⊢
      obtain ⟨hevaluations, hfailures, htold⟩ := ih _ _ h
      have hquiet := kpi.specification.tally_buildJournal c.known
      have hsilent := kpi.specification.told_buildJournal hkpi.build
      simp [hquiet, hevaluations, hfailures, hsilent, htold]
  | stops kpi kpis failure hkpi =>
      obtain ⟨journal, hscore⟩ := score_cons_of_stops c index traces kpis hkpi
      rw [hscore] at h
      cases h

/-! ### Ends of runs -/

/-- The counter and the event of the end of a run. -/
inductive Ends (run : Run) : Counter → Event → Prop
  | completed {traces metrics : UInt64} (status : run.status = .completed)
      (counts : run.traces = some traces ∧ run.metrics = some metrics) :
      Ends run .runsCompleted (.runFinished run.id.text (.ofNat run.durationMillis) traces metrics)
  | failed {error : String} (status : run.status = .failed) (herror : run.error = some error) :
      Ends run .runsFailed (.runFailed run.id.text error)

/-- Between its start and its end an execution has entered `between`, and the end is that of the report. -/
structure Closes (benchmark : Benchmark) (run : Run) (report : Report) (between : Journal) (counter : Counter)
    (ending : Event) : Prop where
  ends : Ends report.run counter ending
  balanced : between.Balanced
  completed : report.run.status = .completed →
    between.tally .evaluations = benchmark.measures.length ∧
    between.tally .evaluationFailures = report.skipped.length ∧
    between.told = (report.history.map fun e => .kpiEvaluated run.id.text e.kpiName e.value e.status.word) ++
      report.firings.map (·.event)

theorem closes_failed (stamps : Stamps) (benchmark : Benchmark) (run : Run) {between : Journal} (h : between.Balanced)
    (failure : Failure) (w : Workspace) :
    Closes benchmark run ⟨(w.failed stamps failure).run, ∅, [], [], []⟩ between .runsFailed
      (.runFailed w.run.id.text failure.message) where
  ends := .failed rfl rfl
  balanced := h
  completed hstatus := nomatch hstatus

theorem closes_completed (stamps : Stamps) (benchmark : Benchmark) (run : Run) (w : Workspace) {c : Context}
    {traces : List Trace} (hrun : c.runId = run.id) (hfailure : (c.score 0 traces benchmark.measures).failure = none)
    (firings : List Alert.Firing) :
    Closes benchmark run ⟨(w.completed stamps traces).run, aggregate traces,
        (c.score 0 traces benchmark.measures).history, firings, (c.score 0 traces benchmark.measures).skipped⟩
      ((c.score 0 traces benchmark.measures).journal ++ Alert.Firing.journal firings).withinRun .runsCompleted
      (.runFinished (w.completed stamps traces).run.id.text (.ofNat (w.completed stamps traces).run.durationMillis)
        (.ofNat traces.length) (.ofNat (measurementCount traces))) where
  ends := .completed rfl ⟨rfl, rfl⟩
  balanced := ((c.balanced_score 0 traces benchmark.measures).append (Alert.Firing.balanced_journal firings)).withinRun
  completed _ := by
    obtain ⟨hevaluations, hfailures, htold⟩ := c.tally_and_told_score 0 traces benchmark.measures hfailure
    simp only [Journal.tally_withinRun, Journal.tally_append, Alert.Firing.tally_journal, Journal.told_withinRun,
      Journal.told_append, Alert.Firing.told_journal, hevaluations, hfailures, htold, ← hrun, Nat.add_zero]
    exact ⟨trivial, trivial, rfl⟩

/-! ### Executions -/

/-- How an execution starts its entries. -/
def startEntry (benchmark : Benchmark) (run : Run) : Entry :=
  Journal.tell (.runStarted run.id.text benchmark.id run.agentId)

/-- What an execution adds to its journal. -/
theorem entered_execute (x : Executor) (stamps : Stamps) (answer : Answer) (benchmark : Benchmark) (w : Workspace) :
    match (x.execute stamps answer benchmark).run w with
    | .error (.refused _) w' => w' = w
    | .error .brokenOff w' =>
      ∃ between : Journal, w'.journal = w.journal ++ startEntry benchmark w.run :: between ∧ between.Balanced
    | .ok report w' => ∃ between counter ending,
      w'.journal = w.journal ++ startEntry benchmark w.run :: (between ++ [.count counter, .event ending true]) ∧
        Closes benchmark w.run report between counter ending := by
  have hcourse := course_execute x stamps answer benchmark w
  generalize (x.execute stamps answer benchmark).run w = result at hcourse
  cases hcourse with
  | refused => rfl
  | unanswered _ _ hbegun =>
      subst hbegun
      refine ⟨[], _, _, ?_, closes_failed stamps benchmark w.run Journal.balanced_nil _ _⟩
      exact (List.append_cons ..).symm
  | @stopped traces c _ _ _ _ _ _ hscored =>
      subst hscored
      have hbalanced := (c.balanced_score 0 traces benchmark.measures).withinRun
      refine ⟨_, _, _, ?_, closes_failed stamps benchmark w.run hbalanced _ _⟩
      simp [Workspace.failed, Workspace.scored, Workspace.begun, startEntry]
  | @brokenOff traces c _ _ _ _ _ _ hscored =>
      subst hscored
      have hfired := Alert.Firing.balanced_journal
        (Alert.check stamps.alertsAt w.alerts (c.score 0 traces benchmark.measures).history).firings
      refine ⟨_, ?_, ((c.balanced_score 0 traces benchmark.measures).append hfired).withinRun⟩
      simp [Workspace.checked, Workspace.scored, Workspace.begun, startEntry]
  | @completed traces c _ _ _ hc hfailure _ hchecked =>
      subst hchecked
      have hrun : c.runId = w.run.id := by
        rw [hc]
        rfl
      refine ⟨_, _, _, ?_, closes_completed stamps benchmark w.run _ hrun hfailure _⟩
      simp [Workspace.completed, Workspace.checked, Workspace.scored, Workspace.begun, startEntry]

/-- The counters before and after the execution of a run, and the events in between, agree with its report. The
counters are words, so their growth is. -/
structure Accounted (benchmark : Benchmark) (run : Run) (report : Report) (n n' : Counters) (events : List Event) :
    Prop where
  ended : ∃ counter between ending, Ends report.run counter ending ∧
    (∀ c, c = .runsCompleted ∨ c = .runsFailed → n'.value c = n.value c + if c = counter then 1 else 0) ∧
    events = .runStarted run.id.text benchmark.id run.agentId :: (between ++ [ending]) ∧
    ∀ e ∈ between, e.isOfRun = false
  evaluations : ∃ failures : Nat, n'.evaluationFailures = n.evaluationFailures + .ofNat failures ∧
    n'.evaluations = n.evaluations + .ofNat ((events.filter (·.name == "kpi.evaluated")).length + failures)
  completed : report.run.status = .completed →
    n'.evaluations = n.evaluations + .ofNat benchmark.measures.length ∧
    n'.evaluationFailures = n.evaluationFailures + .ofNat report.skipped.length ∧
    ∃ ending, events = .runStarted run.id.text benchmark.id run.agentId ::
      ((report.history.map fun e => .kpiEvaluated run.id.text e.kpiName e.value e.status.word) ++
        report.firings.map (·.event) ++ [ending])

theorem Ends.of_run {run : Run} {counter : Counter} {ending : Event} (h : Ends run counter ending) :
    (counter = .runsCompleted ∨ counter = .runsFailed) ∧ ending.name ≠ "kpi.evaluated" := by
  cases h with
  | completed => exact ⟨.inl rfl, by simp [Event.name]⟩
  | failed => exact ⟨.inr rfl, by simp [Event.name]⟩

section

variable {benchmark : Benchmark} {run : Run} {report : Report} {between : Journal} {counter : Counter} {ending : Event}

/-- What is counted and told, once the event of the start is put in front. -/
theorem Closes.accounted (h : Closes benchmark run report between counter ending) (n : Counters) :
    Accounted benchmark run report n
      (Journal.record (startEntry benchmark run :: (between ++ [.count counter, .event ending true])) n)
      (Journal.told (startEntry benchmark run :: (between ++ [.count counter, .event ending true]))) := by
  obtain ⟨hcounter, hname⟩ := h.ends.of_run
  rw [startEntry]
  generalize hstarted : Event.runStarted run.id.text benchmark.id run.agentId = started
  have htold : Journal.told (Journal.tell started :: (between ++ [.count counter, .event ending true])) =
      started :: (between.told ++ [ending]) := by
    simp
  have hvalue (c : Counter) :
      (Journal.record (Journal.tell started :: (between ++ [.count counter, .event ending true])) n).value c =
        n.value c + .ofNat (between.tally c + if counter = c then 1 else 0) := by
    simp [Journal.value_record]
  rw [htold]
  generalize Journal.record _ n = n' at hvalue
  have hevaluations : n'.evaluations = n.evaluations + .ofNat (between.tally .evaluations) := by
    refine (hvalue .evaluations).trans ?_
    rcases hcounter with rfl | rfl <;> rfl
  have hfailures : n'.evaluationFailures = n.evaluationFailures + .ofNat (between.tally .evaluationFailures) := by
    refine (hvalue .evaluationFailures).trans ?_
    rcases hcounter with rfl | rfl <;> rfl
  refine ⟨⟨counter, between.told, ending, h.ends, ?_, by rw [hstarted], h.balanced.silent⟩, ⟨_, hfailures, ?_⟩, ?_⟩
  · have hword (c : Counter) : UInt64.ofNat (if counter = c then 1 else 0) = if c = counter then 1 else 0 := by
      rw [apply_ite UInt64.ofNat]
      simp only [eq_comm]
      rfl
    rintro c (rfl | rfl)
    · rw [hvalue, h.balanced.runs.1, Nat.zero_add, hword]
    · rw [hvalue, h.balanced.runs.2, Nat.zero_add, hword]
  · have hstart : started.name ≠ "kpi.evaluated" := by simp [← hstarted, Event.name]
    have hscores : (started :: (between.told ++ [ending])).filter (·.name == "kpi.evaluated") =
        between.toldAs "kpi.evaluated" := by
      simp [Journal.toldAs, hstart, hname]
    rw [hscores, hevaluations, h.balanced.evaluations]
  · intro hcompleted
    obtain ⟨hmeasures, hskipped, hevents⟩ := h.completed hcompleted
    rw [hevaluations, hfailures, hmeasures, hskipped, hevents, hstarted]
    exact ⟨rfl, rfl, ending, rfl⟩

/-- One end is counted. -/
theorem Closes.covered (h : Closes benchmark run report between counter ending) :
    Journal.Covered (startEntry benchmark run :: (between ++ [.count counter, .event ending true])) ∧
      Journal.tally .runsCompleted (startEntry benchmark run :: (between ++ [.count counter, .event ending true])) +
        Journal.tally .runsFailed (startEntry benchmark run :: (between ++ [.count counter, .event ending true])) = 1 := by
  constructor
  · refine (h.balanced.covered.append (Journal.covered_of_tally_eq_zero ?_)).tell _
    rcases h.ends.of_run.1 with rfl | rfl <;> rfl
  · simp only [startEntry, Journal.tally_tell, Journal.tally_append, Journal.tally_count, h.balanced.runs]
    rcases h.ends.of_run.1 with rfl | rfl <;> rfl

end

/-! ### Sessions -/

/-- An execution that is asked for. -/
structure Job where
  executor : Executor
  stamps : Stamps
  answer : Answer
  benchmark : Benchmark
  alerts : List Alert
  run : Run

/-- What is done for a job where a journal has been kept so far. -/
def Job.perform (job : Job) (j : Journal) : EStateM.Result Interruption Workspace Report :=
  (job.executor.execute job.stamps job.answer job.benchmark).run ⟨job.run, job.alerts, j⟩

/-- The reports of a session, one job after the other, and its journal. -/
def session (j : Journal) : List Job → List Report × Journal
  | [] => ([], j)
  | job :: jobs =>
    match job.perform j with
    | .ok report w => (report :: (session w.journal jobs).1, (session w.journal jobs).2)
    | .error _ w => session w.journal jobs

/-- A session goes on after its first job, of which the end is counted where there is a report. -/
theorem exists_session_cons (job : Job) (j : Journal) :
    ∃ entered, entered.Covered ∧ ∀ jobs, (session j (job :: jobs)).2 = (session (j ++ entered) jobs).2 ∧
      (session j (job :: jobs)).1.length = (entered.tally .runsCompleted + entered.tally .runsFailed) +
        (session (j ++ entered) jobs).1.length := by
  have hentered := entered_execute job.executor job.stamps job.answer job.benchmark ⟨job.run, job.alerts, j⟩
  cases hperform : (job.executor.execute job.stamps job.answer job.benchmark).run ⟨job.run, job.alerts, j⟩ with
  | ok report w =>
      rw [hperform] at hentered
      obtain ⟨between, counter, ending, hjournal, hcloses⟩ := hentered
      obtain ⟨hcovered, hruns⟩ := hcloses.covered
      refine ⟨_, hcovered, fun jobs => ?_⟩
      rw [session, Job.perform, hperform, hruns]
      dsimp only
      rw [hjournal]
      exact ⟨rfl, Nat.add_comm _ 1⟩
  | error i w =>
      have hsession (jobs : List Job) : session j (job :: jobs) = session w.journal jobs := by
        rw [session, Job.perform, hperform]
      rw [hperform] at hentered
      cases i with
      | refused refusal =>
          refine ⟨[], Journal.covered_of_tally_eq_zero rfl, fun jobs => ?_⟩
          rw [hsession, hentered, List.append_nil]
          exact ⟨rfl, (Nat.zero_add _).symm⟩
      | brokenOff =>
          obtain ⟨between, hjournal, hbalanced⟩ := hentered
          refine ⟨_, hbalanced.covered.tell (.runStarted job.run.id.text job.benchmark.id job.run.agentId), fun jobs => ?_⟩
          rw [hsession, hjournal, startEntry, Journal.tally_tell, Journal.tally_tell, hbalanced.runs.1, hbalanced.runs.2]
          exact ⟨rfl, (Nat.zero_add _).symm⟩

theorem exists_session (jobs : List Job) (j : Journal) :
    ∃ entered, (session j jobs).2 = j ++ entered ∧ entered.Covered ∧
      entered.tally .runsCompleted + entered.tally .runsFailed = (session j jobs).1.length := by
  induction jobs generalizing j with
  | nil => exact ⟨[], (List.append_nil j).symm, Journal.covered_of_tally_eq_zero rfl, rfl⟩
  | cons job jobs ih =>
      obtain ⟨first, hfirst, hsession⟩ := exists_session_cons job j
      obtain ⟨hjournal, hreports⟩ := hsession jobs
      obtain ⟨rest, hrest, hcovered, hruns⟩ := ih (j ++ first)
      refine ⟨first ++ rest, ?_, hfirst.append hcovered, ?_⟩
      · rw [hjournal, hrest, List.append_assoc]
      · rw [hreports, ← hruns, Journal.tally_append, Journal.tally_append]
        omega

/-- The counters and the events account for executions. A refused execution changes and enters nothing. Any other
starts with the event of its start. If it gives a report, it ends with the one event of its end, which is counted; each
score that it asks for is told or counted as failed, and if it completes its run, its events are exactly those of its
report. If it breaks off, no end is counted or told. So over a session as many ends are counted as there are reports,
and at no time more failures than evaluations, as long as the evaluations fit their counter. -/
theorem executions_accounted :
    (∀ (x : Executor) (stamps : Stamps) (answer : Answer) (benchmark : Benchmark) (w : Workspace),
      match (x.execute stamps answer benchmark).run w with
      | .error (.refused _) w' => w.run.status ≠ .pending ∧ w' = w
      | .error .brokenOff w' => w.run.status = .pending ∧ BreaksOff x stamps answer benchmark w ∧
        ∃ between : Journal, w'.journal = w.journal ++
          Journal.tell (.runStarted w.run.id.text benchmark.id w.run.agentId) :: between ∧ between.Balanced
      | .ok report w' => ∃ entered : Journal, w'.journal = w.journal ++ entered ∧
        ∀ n, Accounted benchmark w.run report n (entered.record n) entered.told) ∧
      ∀ jobs, ((session [] jobs).2.record .zero).runsCompleted + ((session [] jobs).2.record .zero).runsFailed =
          .ofNat (session [] jobs).1.length ∧
        ∀ k, Journal.tally .evaluations ((session [] jobs).2.take k) < 2 ^ 64 →
          (Journal.record ((session [] jobs).2.take k) .zero).evaluationFailures ≤
            (Journal.record ((session [] jobs).2.take k) .zero).evaluations := by
  constructor
  · intro x stamps answer benchmark w
    have hentered := entered_execute x stamps answer benchmark w
    have hrefused := refused_execute_iff x stamps answer benchmark w
    have hbroken := brokenOff_execute_iff x stamps answer benchmark w
    cases hrun : (x.execute stamps answer benchmark).run w with
    | ok report w' =>
        rw [hrun] at hentered
        obtain ⟨between, counter, ending, hjournal, hcloses⟩ := hentered
        exact ⟨_, hjournal, hcloses.accounted⟩
    | error i w' =>
        rw [hrun] at hentered
        cases i with
        | refused refusal => exact ⟨hrefused.mp ⟨refusal, w', hrun⟩, hentered⟩
        | brokenOff =>
            obtain ⟨hpending, hbreaks⟩ := hbroken.mp ⟨w', hrun⟩
            exact ⟨hpending, hbreaks, hentered⟩
  · intro jobs
    obtain ⟨entered, hjournal, hcovered, hreports⟩ := exists_session jobs []
    rw [hjournal, List.nil_append]
    refine ⟨?_, fun k hk => ?_⟩
    · have hcompleted := Journal.value_record_zero .runsCompleted entered
      have hfailed := Journal.value_record_zero .runsFailed entered
      rw [← hreports, UInt64.ofNat_add, ← hcompleted, ← hfailed]
      rfl
    · have hle := hcovered _ (List.take_prefix k entered)
      have hevaluations : (Journal.record (entered.take k) .zero).evaluations = _ :=
        Journal.value_record_zero .evaluations (entered.take k)
      have hfailures : (Journal.record (entered.take k) .zero).evaluationFailures = _ :=
        Journal.value_record_zero .evaluationFailures (entered.take k)
      rw [hevaluations, hfailures, UInt64.le_iff_toNat_le, UInt64.toNat_ofNat_of_lt' hk,
        UInt64.toNat_ofNat_of_lt' (hle.trans_lt hk)]
      exact hle

/-- Executions of two indicators, the second of which has no score: it is passed over, it fails the run, and the run
is not pending. -/
def threeJobs : List Job :=
  let stamps : Stamps := ⟨noon, fun _ => ⟨4⟩, fun _ => noon, noon, noon⟩
  let lenient : Executor := ⟨{ Settings.standard with failOnKpiError := false }, .standard⟩
  let benchmark := benchmarkOf [quality, style]
  [⟨lenient, stamps, .ok [measured], benchmark, [], newRun⟩, ⟨executor, stamps, .ok [measured], benchmark, [], newRun⟩,
    ⟨executor, stamps, .ok [measured], benchmark, [], newRun.started noon⟩]

theorem executions_accounted_of_threeJobs :
    (session [] threeJobs).1.map (·.run.status) = [.completed, .failed] ∧
      ((session [] threeJobs).2.record .zero).runsCompleted + ((session [] threeJobs).2.record .zero).runsFailed = 2 ∧
      Journal.tally .evaluations ((session [] threeJobs).2.take 20) < 2 ^ 64 ∧
      (Journal.record ((session [] threeJobs).2.take 20) .zero).evaluationFailures ≤
        (Journal.record ((session [] threeJobs).2.take 20) .zero).evaluations := by
  obtain ⟨hreports, hcovered⟩ := executions_accounted.2 threeJobs
  have hstatus : (session [] threeJobs).1.map (·.run.status) = [.completed, .failed] := by decide +kernel
  have hlength := congrArg List.length hstatus
  have hfew : Journal.tally .evaluations ((session [] threeJobs).2.take 20) < 2 ^ 64 := by decide +kernel
  rw [List.length_map] at hlength
  rw [hlength] at hreports
  exact ⟨hstatus, hreports, hfew, hcovered 20 hfew⟩

/-- The score of a pending run meets an alert with a mark on the last day of the calendar: the start of the run is
told, and its score, but no end is told or counted. -/
theorem ends_uncounted_of_lastDay :
    let alert := { lowQuality with cooldownMinutes := 4294967295, lastTriggeredAt := some Alert.lastDay }
    newRun.status = .pending ∧
      ∃ w, (Job.perform ⟨executor, ⟨noon, fun _ => ⟨4⟩, fun _ => noon, noon, noon⟩, .ok [measured], benchmarkOf [quality],
          [alert], newRun⟩ []) = .error .brokenOff w ∧
        w.journal.told.map (·.name) = ["run.started", "kpi.evaluated"] ∧
        (w.journal.record .zero).runsCompleted = 0 ∧ (w.journal.record .zero).runsFailed = 0 :=
  ⟨rfl, _, rfl, by decide +kernel, by decide +kernel, by decide +kernel⟩

end Execution

end Scorecard
