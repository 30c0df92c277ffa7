import Scorecard.Decimal.Binary
import Scorecard.Formula.Basic

/-!
Evaluation of formulas on metric values. Averages and extremes use the metrics that are there and
fail when none is; weighted sums and thresholds need each of theirs. A metric that is there but is
not finite is an error, and nothing can be evaluated on no values at all. Of several errors the one
that comes first in the order of the names is reported.
-/
namespace Scorecard

/-- Why a formula has no score. -/
inductive EvaluationError where
  | noValues
  | missing (metric : String)
  | insufficient (metrics : List String)
  | notFinite (metric : String)
deriving DecidableEq

def EvaluationError.message : EvaluationError → String
  | .noValues => "no metric values provided"
  | .missing metric => s!"missing required metric: {metric}"
  | .insufficient metrics =>
    let names := ", ".intercalate metrics
    s!"insufficient data: none of the referenced metrics are present ({names})"
  | .notFinite metric => s!"metric {metric} has a non-finite value"

namespace Formula

/-- The value of a metric, if there is one. -/
def value? (values : Table Float) (metric : String) : Except EvaluationError (Option Float) :=
  match values.get? metric with
  | none => .ok none
  | some x => if x.isFinite then .ok (some x) else .error (.notFinite metric)

def requiredValue (values : Table Float) (metric : String) : Except EvaluationError Float :=
  match value? values metric with
  | .ok (some x) => .ok x
  | .ok none => .error (.missing metric)
  | .error e => .error e

/-- The values of those metrics that have one, in the order of the list. -/
def collect (values : Table Float) : List String → Except EvaluationError (List Float)
  | [] => .ok []
  | metric :: metrics => do
    let x? ← value? values metric
    let xs ← collect values metrics
    return x?.toList ++ xs

def presentValues (values : Table Float) (metrics : List String) : Except EvaluationError (List Float) := do
  let xs ← collect values metrics
  if xs.isEmpty then .error (.insufficient metrics) else return xs

/-- The sum from left to right. The sum of nothing is the negative zero, which adding leaves alone
any number. -/
def sum (xs : List Float) : Float := xs.foldl (· + ·) (-0.0)

def mean (xs : List Float) : Float := sum xs / xs.length.toUInt64.toFloat

def infinity : Float := Decimal.ofRank false Decimal.infinityRank

/-- The least value; of two that compare equal the later. -/
def minimum (xs : List Float) : Float := xs.foldl (fun m x => if m < x then m else x) infinity

/-- The greatest value; of two that compare equal the later. -/
def maximum (xs : List Float) : Float := xs.foldl (fun m x => if x < m then m else x) (-infinity)

/-- Adds the weighted values to `total` in the order of the weights. -/
def weigh (values : Table Float) (total : Float) : List (String × Float) → Except EvaluationError Float
  | [] => .ok total
  | (metric, weight) :: weights => do
    let x ← requiredValue values metric
    weigh values (total + x * weight) weights

def evaluate (f : Formula) (values : Table Float) : Except EvaluationError Float :=
  if values.isEmpty then .error .noValues
  else
    match f with
    | .average metrics => (presentValues values metrics).map mean
    | .least metrics => (presentValues values metrics).map minimum
    | .greatest metrics => (presentValues values metrics).map maximum
    | .weightedSum weights =>
      if weights.isEmpty then .error (.insufficient []) else weigh values 0 weights.entries
    | .threshold metric bound comparison =>
      (requiredValue values metric).map fun x => if comparison.holds x bound then 1 else 0

end Formula

end Scorecard
