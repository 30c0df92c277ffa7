import Scorecard.Report.Summary

/-!
Summaries as Markdown, for people to read: the facts of the run, then a section for the scores, one
for the indicators that were passed over and one for the alerts, as far as there are any.
-/
namespace Scorecard.Report.Summary

/-- Values are written with four decimal places. -/
def valueText (x : Float) : String := Decimal.fixed 4 x

def factLines (s : Summary) : List String :=
  let run := s.runId.text
  let status := s.status.word
  let duration := toString s.durationMillis.toNat
  let traces := toString s.tracesProcessed.toNat
  let metrics := toString s.metricsComputed.toNat
  [s!"- run: \x60{run}\x60\n", s!"- benchmark: {s.benchmarkId}\n", s!"- agent: {s.agentId}\n",
    s!"- status: {status}\n", s!"- duration: {duration} ms\n", s!"- traces: {traces}\n",
    s!"- metrics: {metrics}\n"]

def errorLines (s : Summary) : List String :=
  match s.error with
  | some error => [s!"- error: {error}\n"]
  | none => []

def kpiRow (l : KpiLine) : String :=
  let value := valueText l.value
  s!"| {l.name} | {value} | {l.status} |\n"

def kpiSection (s : Summary) : List String :=
  if s.kpis.isEmpty then []
  else ["## KPIs\n", "| KPI | Value | Status |\n", "|---|---|---|\n"] ++ s.kpis.map kpiRow ++ ["\n"]

def skippedSection (s : Summary) : List String :=
  if s.skipped.isEmpty then []
  else "## Skipped KPIs\n" :: s.skipped.map (fun name => s!"- {name}\n") ++ ["\n"]

def firingLine (f : Alert.Firing) : String :=
  let severity := f.severity.title
  let value := valueText f.value
  let threshold := Decimal.plain.write f.threshold
  s!"- {f.alertName} ({severity}): {f.kpiName} = {value}, threshold {threshold}\n"

def alertSection (s : Summary) : List String :=
  if s.firings.isEmpty then [] else "## Alerts\n" :: s.firings.map firingLine

def markdown (s : Summary) : String :=
  String.join ("# Benchmark Run Summary\n\n" :: s.factLines ++ s.errorLines ++ "\n" :: s.kpiSection ++
    s.skippedSection ++ s.alertSection)

end Scorecard.Report.Summary
