import Scorecard.Proofs.Alert.Calendar
import Scorecard.Proofs.Execution.Containment

/-!
What an execution comes to. A run that is not pending is refused. Every other ends completed or failed,
unless the check of the alerts breaks off, and which of the two is decided by the answer of the source and by what
each indicator by itself makes of the metrics. A failed run names the first failure, a completed one has the counts
of its traces and an entry for each indicator that can be scored. An execution that breaks off leaves its run
running.
-/
namespace Scorecard.Execution

section

variable (x : Executor) (answer : Answer) (benchmark : Benchmark)

/-- Nothing fails: the source has traces, and every indicator goes on with their metrics. -/
def Unhindered : Prop :=
  ∃ traces, answer = .ok traces ∧ ∀ kpi ∈ benchmark.measures, GoesOn x.settings x.known (aggregate traces) kpi

/-- The failure that comes first, where the source comes before the indicators, and these in their order. -/
inductive FailsFirst : Failure → Prop
  | source {failure : Failure} (hanswer : answer = .error failure) : FailsFirst failure
  | indicator {traces : List Trace} {before : List Kpi} {kpi : Kpi} {after : List Kpi} {failure : Failure}
      (hanswer : answer = .ok traces) (hmeasures : benchmark.measures = before ++ kpi :: after)
      (hbefore : ∀ k ∈ before, GoesOn x.settings x.known (aggregate traces) k)
      (hkpi : Stops x.settings x.known (aggregate traces) kpi failure) : FailsFirst failure

end

/-- The counts are those of the traces. The history records the indicators that can be scored and the
skipped names are those of the others, each in the order of the benchmark. -/
structure Complete (c : Context) (traces : List Trace) (kpis : List Kpi) (report : Report) : Prop where
  counts : report.run.traces = some (.ofNat traces.length) ∧
    report.run.metrics = some (.ofNat (traces.map (·.measurements.length)).sum)
  history : List.Forall₂ c.Records (kpis.filter fun kpi => isScored c.known c.metrics kpi) report.history
  skipped : report.skipped = (kpis.filter fun kpi => !isScored c.known c.metrics kpi).map (·.name)

/-- What a report says of the run that was executed. -/
structure Concludes (x : Executor) (stamps : Stamps) (answer : Answer) (benchmark : Benchmark) (run : Run)
    (report : Report) : Prop where
  ended : report.run.status = .completed ∨ report.run.status = .failed
  completed_iff : report.run.status = .completed ↔ Unhindered x answer benchmark
  failed : report.run.status = .failed →
    ∃ failure, FailsFirst x answer benchmark failure ∧ report.run.error = some failure.message
  complete : report.run.status = .completed → ∀ traces, answer = .ok traces →
    Complete ⟨x.settings, x.known, stamps, run.id, run.agentId, benchmark.id, aggregate traces⟩ traces
      benchmark.measures report

section

variable {x : Executor} {stamps : Stamps} {answer : Answer} {benchmark : Benchmark} {run : Run}

/-- A first failure is a hindrance. -/
theorem FailsFirst.not_unhindered {failure : Failure} (h : FailsFirst x answer benchmark failure) :
    ¬Unhindered x answer benchmark := by
  rintro ⟨traces, htraces, hgoes⟩
  cases h with
  | source hanswer =>
      rw [htraces] at hanswer
      cases hanswer
  | indicator hanswer hmeasures hbefore hkpi =>
      rw [htraces] at hanswer
      obtain rfl := Except.ok.inj hanswer
      apply hkpi.not_goesOn
      apply hgoes
      rw [hmeasures]
      exact List.mem_append_right _ List.mem_cons_self

theorem concludes_failed {failure : Failure} (h : FailsFirst x answer benchmark failure) (w : Workspace) :
    Concludes x stamps answer benchmark run ⟨(w.failed stamps failure).run, ∅, [], [], []⟩ where
  ended := .inr rfl
  completed_iff := ⟨fun hstatus => (nomatch hstatus), fun hunhindered => absurd hunhindered h.not_unhindered⟩
  failed := fun _ => ⟨failure, h, rfl⟩
  complete := fun hstatus => nomatch hstatus

end

/-- Once nothing fails, the check of the alerts comes upon a cooldown that ends beyond the calendar. -/
def BreaksOff (x : Executor) (stamps : Stamps) (answer : Answer) (benchmark : Benchmark) (w : Workspace) : Prop :=
  Unhindered x answer benchmark ∧ ∃ traces, answer = .ok traces ∧ ∃ a ∈ w.alerts,
    a.Overruns stamps.alertsAt ((x.context stamps benchmark w.run traces).score 0 traces benchmark.measures).history

/-- The run has started and not ended, and of the alerts some may be marked. -/
structure LeftRunning (stamps : Stamps) (w w' : Workspace) : Prop where
  run : w'.run.status = .running ∧ w'.run.startedAt = some stamps.startedAt
  alerts : List.Forall₂ (Alert.SameOrMarked stamps.alertsAt) w.alerts w'.alerts

/-! ### Executions -/

section

variable {x : Executor} {stamps : Stamps} {benchmark : Benchmark} {w : Workspace} {traces : List Trace} {c : Context}

/-- The scoring goes through if nothing fails. -/
theorem unhindered_iff_failure_eq_none (hc : c = x.context stamps benchmark w.run traces) :
    Unhindered x (.ok traces) benchmark ↔ (c.score 0 traces benchmark.measures).failure = none := by
  subst hc
  rw [Context.failure_score_eq_none_iff, Unhindered]
  constructor
  · rintro ⟨traces', htraces, hgoes⟩
    obtain rfl := Except.ok.inj htraces
    exact hgoes
  · intro hgoes
    exact ⟨traces, rfl, hgoes⟩

theorem failsFirst_of_failure (hc : c = x.context stamps benchmark w.run traces) {failure : Failure}
    (h : (c.score 0 traces benchmark.measures).failure = some failure) :
    FailsFirst x (.ok traces) benchmark failure := by
  subst hc
  obtain ⟨before, kpi, after, hmeasures, hbefore, hkpi⟩ := Context.exists_of_failure_score _ 0 traces _ h
  exact .indicator rfl hmeasures hbefore hkpi

/-- Whether the check breaks off, once the scoring has gone through. -/
theorem breaksOff_iff (hc : c = x.context stamps benchmark w.run traces)
    (hfailure : (c.score 0 traces benchmark.measures).failure = none) :
    BreaksOff x stamps (.ok traces) benchmark w ↔
      (Alert.check stamps.alertsAt w.alerts (c.score 0 traces benchmark.measures).history).isWhole = false := by
  rw [BreaksOff, and_iff_right ((unhindered_iff_failure_eq_none hc).mpr hfailure), Alert.isWhole_check_eq_false_iff, hc]
  constructor
  · rintro ⟨traces', htraces, h⟩
    obtain rfl := Except.ok.inj htraces
    exact h
  · intro h
    exact ⟨traces, rfl, h⟩

theorem complete_completed (hfailure : (c.score 0 traces benchmark.measures).failure = none) (w' : Workspace)
    (firings : List Alert.Firing) :
    Complete c traces benchmark.measures ⟨(w'.completed stamps traces).run, aggregate traces,
      (c.score 0 traces benchmark.measures).history, firings, (c.score 0 traces benchmark.measures).skipped⟩ := by
  obtain ⟨hhistory, hskipped⟩ := c.history_and_skipped_score 0 traces benchmark.measures hfailure
  refine ⟨⟨rfl, ?_⟩, hhistory, hskipped⟩
  rw [← measurementCount_eq_sum]
  rfl

end

theorem leftRunning_checked (stamps : Stamps) (benchmark : Benchmark) (w : Workspace) (traces : List Trace)
    (scoring : Scoring) (history : List Kpi.HistoryEntry) :
    LeftRunning stamps w (((w.begun stamps benchmark).scored traces scoring).checked stamps.alertsAt history) where
  run := by
    obtain ⟨counts, measured, hcounted⟩ := exists_counted_eq (w.begun stamps benchmark).run traces
    rw [Workspace.checked, Workspace.scored, hcounted]
    exact ⟨rfl, rfl⟩
  alerts := Alert.sameOrMarked_check stamps.alertsAt history (List.forall₂_same.mpr fun _ _ => .inl rfl)

section

variable (x : Executor) (stamps : Stamps) (answer : Answer) (benchmark : Benchmark) (w : Workspace)

theorem refused_execute_iff :
    (∃ refusal w', (x.execute stamps answer benchmark).run w = .error (.refused refusal) w') ↔
      w.run.status ≠ .pending := by
  have hcourse := course_execute x stamps answer benchmark w
  generalize (x.execute stamps answer benchmark).run w = result at hcourse
  cases hcourse with
  | refused hstatus => exact iff_of_true ⟨_, _, rfl⟩ hstatus
  | unanswered hstatus | stopped hstatus | brokenOff hstatus | completed hstatus =>
      refine iff_of_false ?_ (not_not_intro hstatus)
      rintro ⟨refusal, w', ⟨⟩⟩

theorem brokenOff_execute_iff :
    (∃ w', (x.execute stamps answer benchmark).run w = .error .brokenOff w') ↔
      w.run.status = .pending ∧ BreaksOff x stamps answer benchmark w := by
  have hcourse := course_execute x stamps answer benchmark w
  generalize (x.execute stamps answer benchmark).run w = result at hcourse
  cases hcourse with
  | refused hstatus =>
      refine iff_of_false ?_ fun h => hstatus h.1
      rintro ⟨w', ⟨⟩⟩
  | unanswered hstatus hanswer =>
      have hfails : FailsFirst x answer benchmark _ := .source hanswer
      refine iff_of_false ?_ fun h => hfails.not_unhindered h.2.1
      rintro ⟨w', ⟨⟩⟩
  | stopped hstatus hanswer hc hfailure =>
      subst hanswer
      refine iff_of_false ?_ fun h => (failsFirst_of_failure hc hfailure).not_unhindered h.2.1
      rintro ⟨w', ⟨⟩⟩
  | brokenOff hstatus hanswer hc hfailure hbroken =>
      subst hanswer
      exact iff_of_true ⟨_, rfl⟩ ⟨hstatus, (breaksOff_iff hc hfailure).mpr hbroken⟩
  | completed hstatus hanswer hc hfailure hwhole =>
      subst hanswer
      refine iff_of_false ?_ fun h => ?_
      · rintro ⟨w', ⟨⟩⟩
      · have hbroken := (breaksOff_iff hc hfailure).mp h.2
        rw [hwhole] at hbroken
        cases hbroken

/-- What is changed by an execution that gives no report, and what a report says. -/
theorem concludes_execute :
    match (x.execute stamps answer benchmark).run w with
    | .error (.refused _) w' => w' = w
    | .error .brokenOff w' => LeftRunning stamps w w'
    | .ok report w' => report.run = w'.run ∧ Concludes x stamps answer benchmark w.run report := by
  have hcourse := course_execute x stamps answer benchmark w
  generalize (x.execute stamps answer benchmark).run w = result at hcourse
  cases hcourse with
  | refused => rfl
  | unanswered _ hanswer => exact ⟨rfl, concludes_failed (.source hanswer) _⟩
  | stopped _ hanswer hc hfailure =>
      subst hanswer
      exact ⟨rfl, concludes_failed (failsFirst_of_failure hc hfailure) _⟩
  | brokenOff _ _ _ _ _ hscored =>
      subst hscored
      exact leftRunning_checked ..
  | completed _ hanswer hc hfailure =>
      subst hanswer
      refine ⟨rfl, .inl rfl, iff_of_true rfl ((unhindered_iff_failure_eq_none hc).mpr hfailure),
        fun hfailed => (nomatch hfailed), ?_⟩
      rintro - _ ⟨⟩
      subst hc
      exact complete_completed hfailure _ _

end

/-- The outcome of an execution, whatever the settings, the answer, the benchmark, the alerts and the run
are: refused exactly if the run is not pending, with nothing changed; without an end exactly if the check of the
alerts breaks off; and otherwise a report that shows the run as it is afterwards. -/
theorem execute_concludes (x : Executor) (stamps : Stamps) (answer : Answer) (benchmark : Benchmark) (w : Workspace) :
    ((∃ refusal w', (x.execute stamps answer benchmark).run w = .error (.refused refusal) w') ↔
        w.run.status ≠ .pending) ∧
      ((∃ w', (x.execute stamps answer benchmark).run w = .error .brokenOff w') ↔
        w.run.status = .pending ∧ BreaksOff x stamps answer benchmark w) ∧
      match (x.execute stamps answer benchmark).run w with
      | .error (.refused _) w' => w' = w
      | .error .brokenOff w' => LeftRunning stamps w w'
      | .ok report w' => report.run = w'.run ∧ Concludes x stamps answer benchmark w.run report :=
  ⟨refused_execute_iff x stamps answer benchmark w, brokenOff_execute_iff x stamps answer benchmark w,
    concludes_execute x stamps answer benchmark w⟩

/-- The score of the first indicator meets an alert with a mark on the last day of the calendar: the run is pending
and nothing fails, but there is no report, and the run is left running. -/
theorem execute_brokenOff_of_lastDay :
    let alert := { lowQuality with cooldownMinutes := 4294967295, lastTriggeredAt := some Alert.lastDay }
    (newWorkspace alert).run.status = .pending ∧
      ∃ w, (executeAtNoon []).run (newWorkspace alert) = .error .brokenOff w ∧ w.run.status = .running :=
  ⟨rfl, _, rfl, by decide +kernel⟩

end Scorecard.Execution
