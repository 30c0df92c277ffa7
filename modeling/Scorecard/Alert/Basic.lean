import Scorecard.Kpi.HistoryEntry

/-!
Alert rules. A rule watches one indicator, on one benchmark or on all, and fires when the condition
holds of a new score. After firing it is silent until its cooldown is over.
-/
namespace Scorecard

namespace Alert

inductive Condition where
  | lessThan
  | greaterThan
  | equals
  | notEquals
  | percentageDrop
  | percentageRise
  | anomalyDetected
deriving DecidableEq

namespace Condition

def word : Condition → String
  | .lessThan => "LESS_THAN"
  | .greaterThan => "GREATER_THAN"
  | .equals => "EQUALS"
  | .notEquals => "NOT_EQUALS"
  | .percentageDrop => "PERCENTAGE_DROP"
  | .percentageRise => "PERCENTAGE_RISE"
  | .anomalyDetected => "ANOMALY_DETECTED"

def all : List Condition :=
  [.lessThan, .greaterThan, .equals, .notEquals, .percentageDrop, .percentageRise, .anomalyDetected]

def ofWord? (word : String) : Option Condition := all.find? (·.word == word)

theorem ofWord?_word (c : Condition) : ofWord? c.word = some c := by
  cases c <;> rfl

def ofDocument? (d : Json.Document) : Option Condition := d.word?.bind ofWord?

/-- Scores that differ by less than this count as equal. -/
def tolerance : Float := 1e-4

/-- Whether the condition holds of one score. The last three would need several scores and hold of
none. -/
def holds (threshold value : Float) : Condition → Bool
  | .lessThan => value < threshold
  | .greaterThan => threshold < value
  | .equals => (value - threshold).abs < tolerance
  | .notEquals => tolerance ≤ (value - threshold).abs
  | .percentageDrop | .percentageRise | .anomalyDetected => false

end Condition

inductive Severity where
  | info
  | warning
  | critical
deriving DecidableEq

namespace Severity

def word : Severity → String
  | .info => "INFO"
  | .warning => "WARNING"
  | .critical => "CRITICAL"

/-- The severity as a word in running text. -/
def title : Severity → String
  | .info => "Info"
  | .warning => "Warning"
  | .critical => "Critical"

def all : List Severity := [.info, .warning, .critical]

def ofWord? (word : String) : Option Severity := all.find? (·.word == word)

theorem ofWord?_word (s : Severity) : ofWord? s.word = some s := by
  cases s <;> rfl

def ofDocument? (d : Json.Document) : Option Severity := d.word?.bind ofWord?

end Severity

end Alert

structure Alert where
  id : Uuid
  name : String
  benchmarkId : Option String
  kpiName : String
  condition : Alert.Condition
  threshold : Float
  severity : Alert.Severity
  enabled : Bool
  cooldownMinutes : UInt32
  lastTriggeredAt : Option Timestamp

namespace Alert

def defaultCooldownMinutes : UInt32 := 60

/-- An enabled rule for all benchmarks that has not fired yet. -/
def new (id : Uuid) (name kpiName : String) (condition : Condition) (threshold : Float) (severity : Severity) :
    Alert :=
  { id, name, benchmarkId := none, kpiName, condition, threshold, severity, enabled := true,
    cooldownMinutes := defaultCooldownMinutes, lastTriggeredAt := none }

def forBenchmark (a : Alert) (benchmark : String) : Alert := { a with benchmarkId := some benchmark }

def holds (a : Alert) (value : Float) : Bool := a.condition.holds a.threshold value

/-- The end of the cooldown that started at `last`, if the calendar reaches that far. -/
def cooldownEnd? (a : Alert) (last : Timestamp) : Option Timestamp := last.addMinutes? a.cooldownMinutes.toNat

/-- Whether the rule has fired and its cooldown is not over. There is no answer where that hangs on a
cooldown that ends beyond the calendar. -/
def isCooling? (a : Alert) (now : Timestamp) : Option Bool :=
  match a.lastTriggeredAt with
  | none => some false
  | some last => (a.cooldownEnd? last).map fun finish => decide (now < finish)

def markTriggered (a : Alert) (now : Timestamp) : Alert := { a with lastTriggeredAt := some now }

/-- Whether the entry is one that the rule watches. -/
def watches (a : Alert) (e : Kpi.HistoryEntry) : Bool :=
  a.kpiName == e.kpiName && a.benchmarkId.all (· == e.benchmarkId)

/-- Whether the rule fires for the entry, without an answer where the end of the cooldown would have to be
known and lies beyond the calendar. An entry that the rule does not watch raises no such question. -/
def fires? (a : Alert) (now : Timestamp) (e : Kpi.HistoryEntry) : Option Bool :=
  if a.enabled && a.watches e then (a.isCooling? now).map fun cooling => !cooling && a.holds e.value
  else some false

end Alert

end Scorecard
