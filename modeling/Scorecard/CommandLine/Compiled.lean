import Scorecard.Expression.Diagnostic
import Scorecard.Formula.Json
import Scorecard.Formula.Printer
import Scorecard.Json.Printer

/-!
How the command line shows what an expression comes to, as text or as JSON.
-/
namespace Scorecard.CommandLine

/-- An expression with what it comes to. -/
structure Compilation where
  expression : String
  outcome : Expression.Outcome

namespace Compilation

def formula? (c : Compilation) : Option Formula :=
  match c.outcome with
  | .ok compiled => some compiled.formula
  | .error _ => none

def metricNames (c : Compilation) : List String :=
  match c.outcome with
  | .ok compiled => compiled.references.keys
  | .error _ => []

def errorTexts (c : Compilation) : List String := (Expression.diagnostics c.outcome).map (·.codedText)

/-- A member that is left out if there is nothing to show. -/
def optionalMember (name : String) : Option Json → List (String × Json)
  | some v => [(name, v)]
  | none => []

def toJson (c : Compilation) : Json :=
  .object ([("valid", .bool c.formula?.isSome), ("expression", .string c.expression)] ++
    optionalMember "formula" (c.formula?.map (·.toJson)) ++
    optionalMember "canonical" (c.formula?.map fun f => .string f.text) ++
    [("referenced_metrics", .ofList .string c.metricNames), ("errors", .ofList .string c.errorTexts)])

def text (c : Compilation) : String :=
  match c.formula? with
  | some f =>
    let canonical := f.text
    let metrics := ", ".intercalate c.metricNames
    s!"✓ Valid formula\n  Canonical: {canonical}\n  Metrics:   {metrics}\n"
  | none =>
    let count := toString c.errorTexts.length
    let errors := String.join (c.errorTexts.map fun error => s!"  - {error}\n")
    s!"✗ Invalid formula ({count} errors)\n{errors}"

end Compilation

end Scorecard.CommandLine
