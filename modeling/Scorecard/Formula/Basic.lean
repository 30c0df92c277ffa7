import Scorecard.Metric.Name
import Scorecard.Table

/-!
Formulas, the five ways to make one score out of metrics. The constructors below bring the names of
a formula into normal form, as every reader of formulas does.
-/
namespace Scorecard

/-- How a threshold compares. The expression language knows `atLeast` only. -/
inductive Comparison where
  | atLeast
  | greaterThan
  | lessThan
deriving DecidableEq

def Comparison.holds (value threshold : Float) : Comparison → Bool
  | .atLeast => threshold ≤ value
  | .greaterThan => threshold < value
  | .lessThan => value < threshold

inductive Formula where
  | average (metrics : List String)
  | weightedSum (weights : Table Float)
  | least (metrics : List String)
  | greatest (metrics : List String)
  | threshold (metric : String) (bound : Float) (comparison : Comparison)
deriving DecidableEq

namespace Formula

/-- The shape of a formula, without its metrics. -/
inductive Kind where
  | average
  | weightedSum
  | least
  | greatest
  | threshold
deriving DecidableEq

namespace Kind

def all : List Kind := [.average, .weightedSum, .least, .greatest, .threshold]

def keyword : Kind → String
  | .average => "AVERAGE"
  | .weightedSum => "WEIGHTED_SUM"
  | .least => "MIN"
  | .greatest => "MAX"
  | .threshold => "THRESHOLD"

/-- The kind of a keyword in any mixture of ASCII cases. -/
def ofKeyword? (word : String) : Option Kind := all.find? fun kind => kind.keyword == word.map Char.toUpper

theorem ofKeyword?_keyword (kind : Kind) : ofKeyword? kind.keyword = some kind := by
  cases kind <;> decide +kernel

end Kind

def kind : Formula → Kind
  | .average _ => .average
  | .weightedSum _ => .weightedSum
  | .least _ => .least
  | .greatest _ => .greatest
  | .threshold .. => .threshold

def averageOf (metrics : List String) : Formula := .average (metrics.map Metric.normalize)

def leastOf (metrics : List String) : Formula := .least (metrics.map Metric.normalize)

def greatestOf (metrics : List String) : Formula := .greatest (metrics.map Metric.normalize)

/-- Weights given for one metric in several spellings come down to the last one. -/
def weightedSumOf (weights : List (String × Float)) : Formula :=
  .weightedSum (Table.ofList (weights.map fun (name, weight) => (Metric.normalize name, weight)))

def thresholdOf (metric : String) (bound : Float) (comparison : Comparison) : Formula :=
  .threshold (Metric.normalize metric) bound comparison

/-- The metrics that a formula reads. -/
def metrics : Formula → NameSet
  | .average names => NameSet.ofList names
  | .weightedSum weights => NameSet.ofList weights.keys
  | .least names => NameSet.ofList names
  | .greatest names => NameSet.ofList names
  | .threshold name _ _ => NameSet.ofList [name]

/-- Equality up to the sign of zeros: constants are compared as numbers, and what is not a number
differs from itself. -/
def sameConstants : List (String × Float) → List (String × Float) → Bool
  | [], [] => true
  | (k, x) :: l, (k', x') :: l' => k == k' && x == x' && sameConstants l l'
  | _, _ => false

def equivalent : Formula → Formula → Bool
  | .average names, .average names' => names == names'
  | .weightedSum weights, .weightedSum weights' => sameConstants weights.entries weights'.entries
  | .least names, .least names' => names == names'
  | .greatest names, .greatest names' => names == names'
  | .threshold name x c, .threshold name' x' c' => name == name' && x == x' && decide (c = c')
  | _, _ => false

/-- Whether the formula is of the kind that the expression language can spell: it has metrics to
list, and compares as the language does. The names of the metrics are not looked at. -/
def hasExpression : Formula → Bool
  | .average names => !names.isEmpty
  | .weightedSum weights => !weights.isEmpty
  | .least names => !names.isEmpty
  | .greatest names => !names.isEmpty
  | .threshold _ _ comparison => decide (comparison = .atLeast)

end Formula

end Scorecard
