import Scorecard.Json.Fields
import Scorecard.Metric.Registry
import Scorecard.Schedule.Basic
import Scorecard.Text.Case

/-!
Settings: how often runs may be retried, when schedules switch themselves off, which metrics are
known beyond the standard ones, and what a score that cannot be computed does to its run. They come
from environment variables or from a document; what is not given has its default.
-/
namespace Scorecard

structure Settings where
  maxRetries : UInt32
  maxConsecutiveFailures : UInt32
  autoDisable : Bool
  customMetrics : List String
  failOnKpiError : Bool
deriving DecidableEq

namespace Settings

def standard : Settings :=
  { maxRetries := 3, maxConsecutiveFailures := Schedule.defaultMaxConsecutiveFailures, autoDisable := true,
    customMetrics := [], failOnKpiError := true }

/-- The registry that the settings ask for. -/
def registry (s : Settings) : Metric.Registry := Metric.Registry.standard.withNames s.customMetrics

/-- The parts of a text between commas, at least one. `pending` is the part read so far, last
character first. -/
def splitCommas (pending : List Char) : List Char → List (List Char)
  | [] => [pending.reverse]
  | c :: cs => if c = ',' then pending.reverse :: splitCommas [] cs else splitCommas (c :: pending) cs

/-- The items of a list with commas, trimmed, without the blank ones. -/
def splitList (text : String) : List String :=
  (((splitCommas [] text.toList).map Text.trimChars).filter fun item => !item.isEmpty).map String.ofList

/-! ### Variables -/

/-- A variable whose text is no value of its kind. -/
structure InvalidValue where
  key : String
  text : String
deriving DecidableEq

def InvalidValue.message (e : InvalidValue) : String :=
  s!"configuration error: invalid value for {e.key}: '{e.text}'"

/-- Digits, with a plus sign in front or not. -/
def wordOfText? (text : String) : Option UInt32 :=
  let digits :=
    match Text.trimChars text.toList with
    | '+' :: cs => cs
    | cs => cs
  if digits.isEmpty || !digits.all Char.isDigit then none
  else
    let n := Nat.ofDigitChars 10 digits 0
    if n < UInt32.size then some (.ofNat n) else none

def boolOfText? (text : String) : Option Bool :=
  match Text.trim text with
  | "true" => some true
  | "false" => some false
  | _ => none

/-- The value of a variable, or the default if it is not set. -/
def readVariable {α : Type} (values : String → Option String) (key : String)
    (default : α) (adapt : String → String) (read : String → Option α) : Except InvalidValue α :=
  match values key with
  | none => .ok default
  | some text =>
    match read (adapt text) with
    | some a => .ok a
    | none => .error ⟨key, adapt text⟩

/-- The settings of an environment. Truth values may be written in any letter case. The first
variable that is wrong is reported. -/
def ofVariables (values : String → Option String) : Except InvalidValue Settings := do
  return {
    maxRetries := ← readVariable values "KPIBENCH_MAX_RETRIES" standard.maxRetries id wordOfText?
    maxConsecutiveFailures :=
      ← readVariable values "KPIBENCH_MAX_CONSECUTIVE_FAILURES" standard.maxConsecutiveFailures id wordOfText?
    autoDisable := ← readVariable values "KPIBENCH_AUTO_DISABLE" standard.autoDisable Text.lower boolOfText?
    customMetrics := ((values "KPIBENCH_CUSTOM_METRICS").map splitList).getD standard.customMetrics
    failOnKpiError :=
      ← readVariable values "KPIBENCH_FAIL_ON_KPI_ERROR" standard.failOnKpiError Text.lower boolOfText? }

/-! ### Documents -/

def toJson (s : Settings) : Json :=
  .object [("max_retries", .ofUInt32 s.maxRetries),
    ("max_consecutive_failures", .ofUInt32 s.maxConsecutiveFailures),
    ("auto_disable_on_failure", .bool s.autoDisable), ("custom_metric_keys", .ofList .string s.customMetrics),
    ("fail_run_on_kpi_error", .bool s.failOnKpiError)]

def ofDocument? (d : Json.Document) : Option Settings := do
  let fields ← d.fields? ["max_retries", "max_consecutive_failures", "auto_disable_on_failure",
    "custom_metric_keys", "fail_run_on_kpi_error"] 0
  return {
    maxRetries := ← fields.withDefault "max_retries" standard.maxRetries (·.uint32?)
    maxConsecutiveFailures :=
      ← fields.withDefault "max_consecutive_failures" standard.maxConsecutiveFailures (·.uint32?)
    autoDisable := ← fields.withDefault "auto_disable_on_failure" standard.autoDisable (·.bool?)
    customMetrics := ← fields.withDefault "custom_metric_keys" standard.customMetrics (·.list? (·.string?))
    failOnKpiError := ← fields.withDefault "fail_run_on_kpi_error" standard.failOnKpiError (·.bool?) }

end Settings

end Scorecard
