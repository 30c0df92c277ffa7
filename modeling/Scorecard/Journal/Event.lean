import Scorecard.Journal.Counters

/-!
Events, what a process tells about its work as it goes on. Every event has a name that stays the
same whatever its text, a level, and named fields.
-/
namespace Scorecard

/-- How much an event matters, least first. -/
inductive Level where
  | trace
  | debug
  | info
  | warn
  | error
deriving DecidableEq

namespace Level

def word : Level → String
  | .trace => "TRACE"
  | .debug => "DEBUG"
  | .info => "INFO"
  | .warn => "WARN"
  | .error => "ERROR"

def rank : Level → Nat
  | .trace => 0
  | .debug => 1
  | .info => 2
  | .warn => 3
  | .error => 4

end Level

inductive Event where
  | runStarted (run benchmark agent : String)
  | runFinished (run : String) (millis traces metrics : UInt64)
  | runFailed (run error : String)
  | kpiEvaluated (run kpi : String) (value : Float) (status : String)
  | alertTriggered (alert kpi : String) (value threshold : Float)
  | runRecorded (schedule : String) (success : Bool) (consecutiveFailures : UInt32)
  | autoDisabled (schedule : String) (consecutiveFailures : UInt32)
  | parseFailed (expression : String) (faults : UInt64)
  | countersFlushed (counters : Counters)

namespace Event

/-- What a field of an event holds. -/
inductive Value where
  | text (s : String)
  | count (n : UInt64)
  | number (x : Float)
  | flag (b : Bool)

def name : Event → String
  | .runStarted .. => "run.started"
  | .runFinished .. => "run.finished"
  | .runFailed .. => "run.failed"
  | .kpiEvaluated .. => "kpi.evaluated"
  | .alertTriggered .. => "alert.triggered"
  | .runRecorded .. => "schedule.run_recorded"
  | .autoDisabled .. => "schedule.auto_disabled"
  | .parseFailed .. => "dsl.parse_failed"
  | .countersFlushed _ => "metrics.flush"

def level : Event → Level
  | .runStarted .. | .runFinished .. | .kpiEvaluated .. | .runRecorded .. | .countersFlushed _ => .info
  | .runFailed .. | .alertTriggered .. | .autoDisabled .. => .warn
  | .parseFailed .. => .debug

/-- The fields besides the name. -/
def fields : Event → List (String × Value)
  | .runStarted run benchmark agent =>
    [("run_id", .text run), ("benchmark_id", .text benchmark), ("agent_id", .text agent)]
  | .runFinished run millis traces metrics =>
    [("run_id", .text run), ("duration_ms", .count millis), ("traces_processed", .count traces),
      ("metrics_computed", .count metrics)]
  | .runFailed run error => [("run_id", .text run), ("error", .text error)]
  | .kpiEvaluated run kpi value status =>
    [("run_id", .text run), ("kpi", .text kpi), ("value", .number value), ("status", .text status)]
  | .alertTriggered alert kpi value threshold =>
    [("alert", .text alert), ("kpi", .text kpi), ("value", .number value), ("threshold", .number threshold)]
  | .runRecorded schedule success failures =>
    [("schedule_id", .text schedule), ("success", .flag success),
      ("consecutive_failures", .count failures.toUInt64)]
  | .autoDisabled schedule failures =>
    [("schedule_id", .text schedule), ("consecutive_failures", .count failures.toUInt64)]
  | .parseFailed expression faults => [("expression", .text expression), ("error_count", .count faults)]
  | .countersFlushed counters => Counter.all.map fun c => (c.word, .count (counters.value c))

end Event

end Scorecard
