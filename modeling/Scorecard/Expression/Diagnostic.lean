import Scorecard.Expression.Compile
import Scorecard.Json.Fields

/-!
Diagnostics, the form in which faults leave the compiler: a code, a message, a line, a column and a
severity. Faults of expressions are always errors; the other severities occur in diagnostics that
come from elsewhere.
-/
namespace Scorecard.Expression

namespace Code

def all : List Code :=
  [.emptyExpression, .unrecognizedPattern, .malformedNumber, .invalidArgument, .unknownMetric,
    .metricNotAvailable]

def ofWord? (word : String) : Option Code := all.find? (·.word == word)

theorem ofWord?_word (c : Code) : ofWord? c.word = some c := by
  cases c <;> rfl

def ofDocument? (d : Json.Document) : Option Code := d.word?.bind ofWord?

end Code

inductive Severity where
  | error
  | warning
  | info
deriving DecidableEq

namespace Severity

def word : Severity → String
  | .error => "ERROR"
  | .warning => "WARNING"
  | .info => "INFO"

def all : List Severity := [.error, .warning, .info]

def ofWord? (word : String) : Option Severity := all.find? (·.word == word)

theorem ofWord?_word (s : Severity) : ofWord? s.word = some s := by
  cases s <;> rfl

def ofDocument? (d : Json.Document) : Option Severity := d.word?.bind ofWord?

end Severity

structure Diagnostic where
  code : Code
  message : String
  line : UInt32
  column : UInt32
  severity : Severity
deriving DecidableEq

namespace Diagnostic

/-- The message behind its place. -/
def text (d : Diagnostic) : String :=
  let line := toString d.line.toNat
  let column := toString d.column.toNat
  s!"Line {line}, Column {column}: {d.message}"

/-- The message behind its code and its place. -/
def codedText (d : Diagnostic) : String :=
  let code := d.code.word
  let text := d.text
  s!"[{code}] {text}"

/-- Diagnostics as a block for people to read; no diagnostics are no text. -/
def block (ds : List Diagnostic) : String :=
  if ds.isEmpty then ""
  else
    let count := toString ds.length
    let lines := String.join (ds.map fun d => "  - " ++ d.text ++ "\n")
    s!"DSL Validation Errors ({count}):\n{lines}"

def toJson (d : Diagnostic) : Json :=
  .object [("code", .string d.code.word), ("message", .string d.message), ("line", .ofUInt32 d.line),
    ("column", .ofUInt32 d.column), ("severity", .string d.severity.word)]

def ofDocument? (d : Json.Document) : Option Diagnostic := do
  let fields ← d.fields? ["code", "message", "line", "column", "severity"] 5
  return {
    code := ← fields.required "code" Code.ofDocument?
    message := ← fields.required "message" (·.string?)
    line := ← fields.required "line" (·.uint32?)
    column := ← fields.required "column" (·.uint32?)
    severity := ← fields.required "severity" Severity.ofDocument? }

end Diagnostic

def Fault.diagnostic (f : Fault) : Diagnostic :=
  { code := f.problem.code
    message := f.problem.message
    line := f.position.line
    column := f.position.column
    severity := .error }

/-- The diagnostics of an outcome, none if there is a formula. -/
def diagnostics : Outcome → List Diagnostic
  | .ok _ => []
  | .error faults => faults.map (·.diagnostic)

/-- Why there is no formula to be had from an outcome. -/
structure NoFormula where
  faults : Nat
deriving DecidableEq

def NoFormula.message (e : NoFormula) : String :=
  let faults := toString e.faults
  s!"cannot get formula from failed parse result ({faults} error(s)); check errors first"

/-- The formula of an outcome that is expected to have one. -/
def formula : Outcome → Except NoFormula Formula
  | .ok compiled => .ok compiled.formula
  | .error faults => .error ⟨faults.length⟩

end Scorecard.Expression
