import Scorecard.Proofs.Alert.Checking
import Scorecard.Proofs.Execution.Course

/-!
What executions let out. The alerts are looked at once everything is scored, so an execution that fails,
at whichever indicator, leaves them as they were and reports nothing but the failed run. One that goes
through marks those alerts only that its report tells.
-/
namespace Scorecard.Execution

/-- Nothing is reported but the run, and the alerts are those from before. -/
structure Silent (report : Report) (w w' : Workspace) : Prop where
  alerts : w'.alerts = w.alerts
  metrics : report.metrics = ∅
  history : report.history = []
  firings : report.firings = []
  skipped : report.skipped = []

/-- Each alert is in its place and as it was, or it is marked and its firing is reported. -/
def MarksReported (now : Timestamp) (report : Report) (w w' : Workspace) : Prop :=
  List.Forall₂ (Alert.Checked now report.history report.firings) w.alerts w'.alerts

/-- An execution that ends with a failed run is silent, and one that ends with a completed run marks only
the alerts that it reports. The run that it reports is the one that it leaves behind. -/
theorem execute_contained {x : Executor} {stamps : Stamps} {answer : Answer} {benchmark : Benchmark}
    {w w' : Workspace} {report : Report} (h : (x.execute stamps answer benchmark).run w = .ok report w') :
    report.run = w'.run ∧
      (report.run.status = .failed → Silent report w w') ∧
      (report.run.status = .completed → MarksReported stamps.alertsAt report w w') := by
  have hcourse := course_execute x stamps answer benchmark w
  rw [h] at hcourse
  cases hcourse with
  | unanswered _ _ hbegun =>
      subst hbegun
      exact ⟨rfl, fun _ => ⟨rfl, rfl, rfl, rfl, rfl⟩, fun hstatus => nomatch hstatus⟩
  | stopped _ _ _ _ hscored =>
      subst hscored
      exact ⟨rfl, fun _ => ⟨rfl, rfl, rfl, rfl, rfl⟩, fun hstatus => nomatch hstatus⟩
  | completed _ _ _ _ hwhole hchecked =>
      subst hchecked
      exact ⟨rfl, fun hstatus => (nomatch hstatus), fun _ => Alert.checked_check stamps.alertsAt hwhole⟩

/-- The first of March 2020, at noon. -/
def noon : Timestamp := .ofSecond 1583064000 (by decide)

/-- An alert on scores below one half. -/
def lowQuality : Alert := Alert.new ⟨1⟩ "low quality" "quality" .lessThan 0.5 .warning

/-- A pending run, with one alert and a journal without entries. -/
def newWorkspace (alert : Alert) : Workspace := ⟨.new ⟨5⟩ "bench-1" "agent-1" .manual, [alert], []⟩

/-- An execution at noon on one trace with the measurement 0.25, which is the score of the first
indicator; other indicators follow. -/
def executeAtNoon (others : List Kpi) : Steps Report :=
  let trace := (Trace.new ⟨2⟩ noon "trace-1").withMeasurement noon "ROUGE" 0.25
  let quality := Kpi.new ⟨3⟩ "quality" (.ofFormula (.averageOf ["ROUGE"]))
  let benchmark := { Benchmark.new "bench-1" with measures := quality :: others }
  Executor.execute ⟨.standard, .standard⟩ ⟨noon, fun _ => ⟨4⟩, fun _ => noon, noon, noon⟩ (.ok [trace]) benchmark

/-- If an indicator without a formula comes after the low score, nothing is heard of the score; if none
does, the alert is marked, and told. -/
theorem executeAtNoon_contained :
    (∃ report w, (executeAtNoon [.new ⟨6⟩ "style" ∅]).run (newWorkspace lowQuality) = .ok report w ∧
        report.run.status = .failed ∧ Silent report (newWorkspace lowQuality) w) ∧
      ∃ report w, (executeAtNoon []).run (newWorkspace lowQuality) = .ok report w ∧
        report.run.status = .completed ∧ report.firings.map (·.alertId) = [lowQuality.id] ∧
        w.alerts.map (·.lastTriggeredAt) = [some noon] ∧ MarksReported noon report (newWorkspace lowQuality) w := by
  have hstopped : (executeAtNoon [.new ⟨6⟩ "style" ∅]).run (newWorkspace lowQuality) = .ok _ _ := rfl
  have hcompleted : (executeAtNoon []).run (newWorkspace lowQuality) = .ok _ _ := rfl
  constructor
  · refine ⟨_, _, hstopped, by decide +kernel, ?_⟩
    exact (execute_contained hstopped).2.1 (by decide +kernel)
  · refine ⟨_, _, hcompleted, by decide +kernel, by decide +kernel, by decide +kernel, ?_⟩
    exact (execute_contained hcompleted).2.2 (by decide +kernel)

end Scorecard.Execution
