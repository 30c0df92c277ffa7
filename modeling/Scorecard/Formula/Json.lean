import Scorecard.Formula.Basic
import Scorecard.Json.Fields

/-!
Formulas as JSON: an object whose `type` names the shape, with the fields of that shape, or an array
of the name of the shape and the fields behind it. Reading brings the names into normal form. The shape
decides which fields there are, so the document as a whole must be readable before any of it is looked
at.
-/
namespace Scorecard

namespace Comparison

def word : Comparison → String
  | .atLeast => "at_least"
  | .greaterThan => "greater_than"
  | .lessThan => "less_than"

def ofWord? : String → Option Comparison
  | "at_least" => some .atLeast
  | "greater_than" => some .greaterThan
  | "less_than" => some .lessThan
  | _ => none

theorem ofWord?_word (c : Comparison) : ofWord? c.word = some c := by
  cases c <;> rfl

/-- A comparison by itself, outside a formula. -/
def ofDocument? (d : Json.Document) : Option Comparison := d.word?.bind ofWord?

/-- A comparison inside a formula, where an empty object may take the place of null. -/
def ofFieldDocument? : Json.Document → Option Comparison
  | .object [(word, .object [])] => ofWord? word
  | d => ofDocument? d

end Comparison

namespace Formula

/-- The value of `type` for a shape. -/
def Kind.tag : Kind → String
  | .average => "average"
  | .weightedSum => "weighted_sum"
  | .least => "min"
  | .greatest => "max"
  | .threshold => "threshold"

def Kind.ofTag? : String → Option Kind
  | "average" => some .average
  | "weighted_sum" => some .weightedSum
  | "min" => some .least
  | "max" => some .greatest
  | "threshold" => some .threshold
  | _ => none

theorem Kind.ofTag?_tag (kind : Kind) : ofTag? kind.tag = some kind := by
  cases kind <;> rfl

/-- The fields of each shape, besides `type`. -/
def Kind.fieldNames : Kind → List String
  | .average | .least | .greatest => ["metrics"]
  | .weightedSum => ["weights"]
  | .threshold => ["metric", "threshold", "comparison"]

/-- How many items an array must have at least, where the first is the name of the shape. -/
def Kind.leastItems : Kind → Nat
  | .threshold => 3
  | _ => 2

def fields : Formula → List (String × Json)
  | .average names | .least names | .greatest names => [("metrics", .ofList .string names)]
  | .weightedSum weights => [("weights", .ofTable .ofFloat weights)]
  | .threshold name bound comparison =>
    [("metric", .string name), ("threshold", .ofFloat bound), ("comparison", .string comparison.word)]

def toJson (f : Formula) : Json := .object (("type", .string f.kind.tag) :: f.fields)

/-- The formula of a shape with the given fields. -/
def ofFields? (kind : Kind) (fields : Json.Fields) : Option Formula :=
  match kind with
  | .average => (fields.required "metrics" (·.list? (·.string?))).map averageOf
  | .least => (fields.required "metrics" (·.list? (·.string?))).map leastOf
  | .greatest => (fields.required "metrics" (·.list? (·.string?))).map greatestOf
  | .weightedSum => (fields.required "weights" (·.table? (·.float?))).map (weightedSumOf ·.entries)
  | .threshold => do
    let metric ← fields.required "metric" (·.string?)
    let bound ← fields.required "threshold" (·.float?)
    let comparison ← fields.withDefault "comparison" .atLeast Comparison.ofFieldDocument?
    return thresholdOf metric bound comparison

/-- What names the shape. -/
def tag? : Json.Document → Option Json.Document
  | .object members => members.lookup "type"
  | .array items => items.head?
  | _ => none

def ofDocument? (d : Json.Document) : Option Formula :=
  if d.value?.isSome then do
    let kind ← (tag? d).bind fun tag => tag.string?.bind Kind.ofTag?
    let fields ← d.fields? ("type" :: kind.fieldNames) kind.leastItems
    ofFields? kind fields
  else none

end Formula

end Scorecard
