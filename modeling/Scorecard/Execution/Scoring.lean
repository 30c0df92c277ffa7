import Scorecard.Benchmark.Aggregate
import Scorecard.Benchmark.Basic
import Scorecard.Formula.Evaluate
import Scorecard.Formula.Fingerprint
import Scorecard.Kpi.HistoryEntry
import Scorecard.Run.Basic
import Scorecard.Settings

/-!
Scoring the indicators of a benchmark, one after the other, on the aggregated metrics of a run. An
indicator whose formula cannot be built ends the scoring. One that cannot be evaluated ends it too,
unless the settings say that it is to be passed over. Each scored indicator is also scored on each
trace by itself, where a trace that lacks the data gets no score.
-/
namespace Scorecard.Execution

/-- The kinds of errors that may fail a run. -/
inductive ErrorKind where
  | evaluation
  | lifecycle
  | expression
  | source
  | configuration
  | serialization
  | io
deriving DecidableEq

/-- How a message starts. An error of an expression speaks for itself. -/
def ErrorKind.label : ErrorKind → String
  | .evaluation => "evaluation error: "
  | .lifecycle => "lifecycle error: "
  | .expression => ""
  | .source => "metric source error: "
  | .configuration => "configuration error: "
  | .serialization => "serialization error: "
  | .io => "io error: "

/-- Why an execution fails its run. An error of any kind may be reported from outside, in words of its own. -/
inductive Failure where
  | evaluation (error : EvaluationError)
  | lifecycle (refusal : Run.Refusal)
  | specification (error : Kpi.SpecificationError)
  | reported (kind : ErrorKind) (text : String)
deriving DecidableEq

namespace Failure

def kind : Failure → ErrorKind
  | .evaluation _ => .evaluation
  | .lifecycle _ => .lifecycle
  | .specification _ => .expression
  | .reported kind _ => kind

def text : Failure → String
  | .evaluation error => error.message
  | .lifecycle refusal => refusal.message
  | .specification error => error.message
  | .reported _ text => text

def message (f : Failure) : String := f.kind.label ++ f.text

end Failure

/-- The clock readings and fresh ids that an execution makes use of. -/
structure Stamps where
  startedAt : Timestamp
  entryId : Nat → Uuid
  recordedAt : Nat → Timestamp
  alertsAt : Timestamp
  finishedAt : Timestamp

/-- What stays the same while the indicators of a run are scored. -/
structure Context where
  settings : Settings
  known : Metric.Registry
  stamps : Stamps
  runId : Uuid
  agentId : String
  benchmarkId : String
  metrics : Table Float

/-- How far the scoring has come. -/
structure Scoring where
  traces : List Trace
  history : List Kpi.HistoryEntry
  skipped : List String
  journal : Journal
  failure : Option Failure

/-- The trace with its own score, if its own metrics suffice for the formula. -/
def scoreTrace (kpi : String) (f : Formula) (t : Trace) : Trace :=
  match f.evaluate (aggregate [t]) with
  | .ok score => t.withScore kpi score
  | .error _ => t

namespace Context

/-- The history entry of a score, which is entry number `index` of the run. -/
def entry (c : Context) (index : Nat) (kpi : Kpi) (f : Formula) (value : Float) : Kpi.HistoryEntry :=
  let plain := Kpi.HistoryEntry.new (c.stamps.entryId index) (c.stamps.recordedAt index) c.benchmarkId c.agentId
    kpi.name value
  let banded := plain.withBand kpi.minimum kpi.maximum
  let held :=
    match kpi.baseline with
    | some baseline => banded.withBaseline baseline
    | none => banded
  { held with runId := some c.runId, kpiId := some kpi.id, fingerprint := some f.fingerprint }.judged

def scoredEvent (c : Context) (e : Kpi.HistoryEntry) : Event :=
  .kpiEvaluated c.runId.text e.kpiName e.value e.status.word

/-- Scores the indicators; `index` is the number of entries already there. -/
def score (c : Context) (index : Nat) (traces : List Trace) : List Kpi → Scoring
  | [] => ⟨traces, [], [], [], none⟩
  | kpi :: kpis =>
    let building := kpi.specification.buildJournal c.known
    match kpi.specification.build c.known with
    | .error e => ⟨traces, [], [], building, some (.specification e)⟩
    | .ok f =>
      match f.evaluate c.metrics with
      | .error e =>
        let failing := building ++ [.count .evaluations, .count .evaluationFailures]
        if c.settings.failOnKpiError then ⟨traces, [], [], failing, some (.evaluation e)⟩
        else
          let rest := c.score index traces kpis
          { rest with skipped := kpi.name :: rest.skipped, journal := failing ++ rest.journal }
      | .ok value =>
        let entry := c.entry index kpi f value
        let rest := c.score (index + 1) (traces.map (scoreTrace kpi.name f)) kpis
        { rest with
          history := entry :: rest.history
          journal := building ++ .count .evaluations :: Journal.tell (c.scoredEvent entry) :: rest.journal }

end Context

end Scorecard.Execution
