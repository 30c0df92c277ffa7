import Scorecard.Expression.Arguments
import Scorecard.Expression.Lexer
import Scorecard.Metric.Registry

/-!
Compiling expressions. An expression gives a formula, or every fault that is found in it, in the
order of their places; nothing that is found to be wrong is dropped for something else. Metrics must
be known to the registry, and a name that is not is reported once, where it is first used.
-/
namespace Scorecard.Expression

/-- A formula as it comes from an expression, with the metrics that the expression names. -/
structure Compiled where
  formula : Formula
  references : NameSet

abbrev Outcome := Except (List Fault) Compiled

/-- A fault for each name that is neither known nor in `reported`. -/
def unknownMetrics (known : Metric.Registry) (reported : List String) : List Reference → List Fault
  | [] => []
  | r :: rs =>
    if known.names.contains r.name || decide (r.name ∈ reported) then unknownMetrics known reported rs
    else ⟨.unknownMetric r.name known.toList, r.position⟩ :: unknownMetrics known (r.name :: reported) rs

/-- Faults in the order of their places; those of one place stay in their order. -/
def inOrder (faults : List Fault) : List Fault :=
  faults.mergeSort fun a b => a.position.atMost b.position

def compileCall (known : Metric.Registry) (call : Call) : Outcome :=
  let reading := Reading.ofCall call
  let faults := reading.faults ++ unknownMetrics known [] reading.references
  match reading.formula?, faults with
  | some formula, [] => .ok ⟨formula, NameSet.ofList (reading.references.map (·.name))⟩
  | _, faults => .error (inOrder faults)

def compileTokens (known : Metric.Registry) : List Token → Outcome
  | [] => .error [mismatch .noInput .start]
  | head :: rest =>
    match Call.ofTokens head rest with
    | .ok call => compileCall known call
    | .error fault => .error [fault]

/-- Compiles a text. A text of blanks only is an empty expression. -/
def compile (known : Metric.Registry) (text : String) : Outcome :=
  if (Text.trim text).isEmpty then .error [⟨.emptyExpression, .start⟩] else compileTokens known (tokens text)

/-- Checks that the metrics of a compiled expression are among those available, in whichever
spelling. -/
def checkAvailable (available : List String) (outcome : Outcome) : Outcome := do
  let compiled ← outcome
  let available := NameSet.ofList (available.map Metric.normalize)
  let missing := compiled.references.keys.filter fun name => !available.contains name
  if missing.isEmpty then return compiled
  else .error [⟨.unavailable missing available.keys, .start⟩]

end Scorecard.Expression
