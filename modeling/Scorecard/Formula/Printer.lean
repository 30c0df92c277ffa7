import Scorecard.Decimal.Layout
import Scorecard.Formula.Basic

/-!
The text of a formula in the expression language: the keyword, and the arguments in parentheses,
separated by a comma and a blank. Weights come in the order of their metrics. A comparison other
than the language's own is lost in the text.
-/
namespace Scorecard.Formula

def call (kind : Kind) (arguments : List String) : String :=
  let arguments := ", ".intercalate arguments
  s!"{kind.keyword}({arguments})"

def weightText (name : String) (weight : Float) : String :=
  let weight := Decimal.plain.write weight
  s!"{name}: {weight}"

def text : Formula → String
  | .average names => call .average names
  | .weightedSum weights => call .weightedSum (weights.entries.map fun (name, weight) => weightText name weight)
  | .least names => call .least names
  | .greatest names => call .greatest names
  | .threshold name bound _ => call .threshold [name, Decimal.plain.write bound]

end Scorecard.Formula
