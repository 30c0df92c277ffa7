import Scorecard.Expression.Diagnostic
import Scorecard.Expression.Record
import Scorecard.Formula.Json

/-!
Specifications of indicators. A specification says how a score is computed by an expression, by a
formula, or merely by the name of a kind of formula; the first of these that is there decides. A
blank expression or name counts as none.
-/
namespace Scorecard.Kpi

structure Specification where
  formulaType : Option String
  configuration : Option String
  expression : Option String
  languageVersion : Option String
  formula : Option Formula

namespace Specification

/-- The version of the expression language that new specifications carry. -/
def currentVersion : String := "1.0"

def empty : Specification := ⟨none, none, none, none, none⟩

instance : EmptyCollection Specification := ⟨empty⟩

def ofExpression (text : String) (formulaType : Option String) : Specification :=
  { empty with formulaType, expression := some text, languageVersion := some currentVersion }

def ofFormula (f : Formula) : Specification :=
  { empty with formulaType := some f.kind.keyword, formula := some f }

def hasExpression (s : Specification) : Bool := s.expression.any fun text => !Text.isBlankText text

def hasFormula (s : Specification) : Bool := s.formula.isSome

/-- The keyword that a text starts with once it is trimmed, in whichever letter case, or `CUSTOM`. -/
def detectType (text : String) : String :=
  let text := (Text.upper (Text.trim text)).toList
  match Formula.Kind.all.find? fun kind => kind.keyword.toList.isPrefixOf text with
  | some kind => kind.keyword
  | none => "CUSTOM"

/-- The expression that the name of a kind stands for when there is nothing else. -/
def defaultExpression (formulaType : String) : String :=
  match Text.upper formulaType with
  | "WEIGHTED_SUM" => "WEIGHTED_SUM(ROUGE: 0.5, BLEU: 0.5)"
  | "THRESHOLD" => "THRESHOLD(ROUGE, 0.7)"
  | _ => "AVERAGE(ROUGE, BLEU)"

/-- What a specification goes by. -/
inductive Basis where
  | expression (text : String)
  | formula (f : Formula)
  | nothing

/-- The basis of a specification with a formula or a kind only. -/
def fallback (s : Specification) : Basis :=
  match s.formula, s.formulaType.map Text.trim with
  | some f, _ => .formula f
  | none, some formulaType => if formulaType = "" then .nothing else .expression (defaultExpression formulaType)
  | none, none => .nothing

def basis (s : Specification) : Basis :=
  match s.expression with
  | some text => if Text.isBlankText text then s.fallback else .expression text
  | none => s.fallback

end Specification

/-- Why a specification has no formula. -/
inductive SpecificationError where
  | faulty (faults : List Expression.Fault)
  | incomplete
deriving DecidableEq

def SpecificationError.message : SpecificationError → String
  | .faulty faults =>
    let faults := "; ".intercalate (faults.map (·.diagnostic.text))
    s!"DSL parse failed: {faults}"
  | .incomplete => "invalid KPI specification: specification has no DSL text, formula or formula type"

namespace Specification

/-- The formula of a text. -/
def formulaOf (known : Metric.Registry) (text : String) : Except SpecificationError Formula :=
  match Expression.compile known text with
  | .ok compiled => .ok compiled.formula
  | .error faults => .error (.faulty faults)

def build (known : Metric.Registry) (s : Specification) : Except SpecificationError Formula :=
  match s.basis with
  | .expression text => formulaOf known text
  | .formula f => .ok f
  | .nothing => .error .incomplete

/-- What building leaves in the journal: only an expression is compiled. -/
def buildJournal (known : Metric.Registry) (s : Specification) : Journal :=
  match s.basis with
  | .expression text => Expression.journal text (Expression.compile known text)
  | _ => []

/-- A specification of an expression that compiles. -/
def create (known : Metric.Registry) (text : String) (formulaType : Option String) :
    Except SpecificationError Specification :=
  match Expression.compile known text with
  | .ok _ => .ok (ofExpression text (some (formulaType.getD (detectType text))))
  | .error faults => .error (.faulty faults)

def toJson (s : Specification) : Json :=
  .object [("formula_type", .ofOption .string s.formulaType),
    ("formula_config", .ofOption .string s.configuration), ("dsl_text", .ofOption .string s.expression),
    ("dsl_version", .ofOption .string s.languageVersion), ("formula", .ofOption (·.toJson) s.formula)]

def ofDocument? (d : Json.Document) : Option Specification := do
  let fields ← d.fields? ["formula_type", "formula_config", "dsl_text", "dsl_version", "formula"] 0
  return {
    formulaType := ← fields.optional "formula_type" (·.string?)
    configuration := ← fields.optional "formula_config" (·.string?)
    expression := ← fields.optional "dsl_text" (·.string?)
    languageVersion := ← fields.optional "dsl_version" (·.string?)
    formula := ← fields.optional "formula" Formula.ofDocument? }

end Specification

end Scorecard.Kpi
