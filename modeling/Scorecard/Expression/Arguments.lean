import Scorecard.Decimal.Reader
import Scorecard.Expression.Call

/-!
Reading the arguments of a call. Each keyword gives its arguments one shape, and what an argument
gives, its metric, its number or its fault, depends on that argument alone; only a repeated weight
is a matter between two arguments.
-/
namespace Scorecard.Expression

/-- A metric where it is written. -/
structure Reference where
  name : String
  position : Position
deriving DecidableEq

def invalid (e : ArgumentError) (p : Position) : Fault := ⟨.invalidArgument e, p⟩

namespace Argument

/-- The argument as one metric. -/
def metric (a : Argument) : Except Fault Reference :=
  match a.tokens with
  | [] => .error (invalid .empty a.position)
  | ⟨.identifier name, p⟩ :: [] => .ok ⟨name, p⟩
  | ⟨.identifier name, _⟩ :: ⟨.colon, _⟩ :: _ => .error (invalid (.misplacedWeight name) a.position)
  | ⟨.identifier _, _⟩ :: next :: _ => .error (invalid (.missingComma next.symbol) next.position)
  | first :: _ => .error (invalid (.noIdentifier first.symbol) a.position)

/-- The finite number that a text spells. -/
def finiteNumber (slot : NumberSlot) (text : String) (p : Position) : Except Fault Float :=
  match Decimal.read text with
  | .ok x => if x.isFinite then .ok x else .error ⟨.malformedNumber slot text, p⟩
  | .error _ => .error ⟨.malformedNumber slot text, p⟩

/-- The argument as one number. An identifier in its place is a misspelt number. -/
def number (slot : NumberSlot) (a : Argument) : Except Fault Float :=
  match a.tokens with
  | [] => .error (invalid (.missingNumber slot) a.position)
  | ⟨.number text, p⟩ :: [] => finiteNumber slot text p
  | ⟨.identifier text, p⟩ :: [] => finiteNumber slot text p
  | first :: _ => .error (invalid (.noNumber slot first.symbol) a.position)

end Argument

/-- What an argument of a weighted sum gives. -/
inductive WeightReading where
  /-- A metric, a colon, and what follows them read as a number. -/
  | pair (metric : Reference) (weight : Except Fault Float)
  /-- Something else, which may still start with a metric. -/
  | malformed (metric : Option Reference) (fault : Fault)

namespace WeightReading

def ofArgument (a : Argument) : WeightReading :=
  match a.tokens with
  | [] => .malformed none (invalid .empty a.position)
  | ⟨.identifier name, p⟩ :: ⟨.colon, q⟩ :: weight =>
    .pair ⟨name, p⟩ ((Argument.ofTokens weight q).number (.weight name))
  | ⟨.identifier name, p⟩ :: next :: _ =>
    .malformed (some ⟨name, p⟩) (invalid (.missingColon name next.symbol) next.position)
  | ⟨.identifier name, p⟩ :: [] => .malformed (some ⟨name, p⟩) (invalid (.noPair (.identifier name)) a.position)
  | first :: _ => .malformed none (invalid (.noPair first.symbol) a.position)

def reference? : WeightReading → Option Reference
  | .pair metric _ => some metric
  | .malformed metric _ => metric

def fault? : WeightReading → Option Fault
  | .pair _ (.ok _) => none
  | .pair _ (.error fault) => some fault
  | .malformed _ fault => some fault

def weight? : WeightReading → Option (String × Float)
  | .pair metric (.ok weight) => some (metric.name, weight)
  | _ => none

end WeightReading

/-- A fault for each pair whose metric has a well-formed weight in an earlier pair; `weighted` holds
the metrics weighted so far. -/
def repeatedWeights (weighted : List String) : List WeightReading → List Fault
  | [] => []
  | r :: rs =>
    let weighted' :=
      match r.weight? with
      | some (name, _) => name :: weighted
      | none => weighted
    match r with
    | .pair metric _ =>
      if metric.name ∈ weighted then
        invalid (.repeatedWeight metric.name) metric.position :: repeatedWeights weighted' rs
      else repeatedWeights weighted' rs
    | .malformed .. => repeatedWeights weighted' rs

/-- What the arguments of a call come to: the formula, if enough could be read to build it, the
metrics that were found on the way, and the faults. -/
structure Reading where
  formula? : Option Formula
  references : List Reference
  faults : List Fault

/-- The value, if it was read. -/
def read? {α : Type} : Except Fault α → Option α
  | .ok a => some a
  | .error _ => none

/-- The fault, if nothing was read. -/
def fault? {α : Type} : Except Fault α → Option Fault
  | .ok _ => none
  | .error e => some e

namespace Reading

/-- Reads a list of metrics; `build` makes the formula of their names. -/
def ofMetrics (kind : Formula.Kind) (build : List String → Formula) (opening : Position)
    (arguments : List Argument) : Reading :=
  if arguments.isEmpty then ⟨none, [], [invalid (.noMetrics kind) opening]⟩
  else
    let readings := arguments.map Argument.metric
    let references := readings.filterMap read?
    ⟨some (build (references.map (·.name))), references, readings.filterMap fault?⟩

def ofWeights (opening : Position) (arguments : List Argument) : Reading :=
  if arguments.isEmpty then ⟨none, [], [invalid .noWeights opening]⟩
  else
    let readings := arguments.map WeightReading.ofArgument
    ⟨some (.weightedSum (Table.ofList (readings.filterMap (·.weight?)))),
      readings.filterMap (·.reference?),
      readings.filterMap (·.fault?) ++ repeatedWeights [] readings⟩

/-- Reads a metric and a number. Further arguments are not looked at. -/
def ofThreshold (opening : Position) (arguments : List Argument) : Reading :=
  let count := arguments.length
  let countFaults := if count = 2 then [] else [invalid (.wrongCount count) opening]
  let metric? := arguments[0]?.map Argument.metric
  let number? := arguments[1]?.map (Argument.number .threshold)
  let formula? := do
    let metric ← metric?.bind read?
    let number ← number?.bind read?
    return Formula.threshold metric.name number .atLeast
  ⟨formula?, (metric?.bind read?).toList,
    countFaults ++ (metric?.bind fault?).toList ++ (number?.bind fault?).toList⟩

def ofCall (call : Call) : Reading :=
  match call.kind with
  | .average => ofMetrics .average .average call.opening call.arguments
  | .least => ofMetrics .least .least call.opening call.arguments
  | .greatest => ofMetrics .greatest .greatest call.opening call.arguments
  | .weightedSum => ofWeights call.opening call.arguments
  | .threshold => ofThreshold call.opening call.arguments

end Reading

end Scorecard.Expression
