import Scorecard.Kpi.Specification
import Scorecard.Supply

/-!
Performance indicators: a name, a specification of how the score is computed, and the band and the
baseline that a score is held against.
-/
namespace Scorecard

structure Kpi where
  id : String
  name : String
  description : Option String
  includes : List String
  specification : Kpi.Specification
  minimum : Option Float
  maximum : Option Float
  baseline : Option Float

namespace Kpi

/-- An indicator without a band or a baseline. -/
def new (id : Uuid) (name : String) (specification : Specification) : Kpi :=
  { id := id.text, name, description := none, includes := [], specification, minimum := none, maximum := none,
    baseline := none }

def toJson (k : Kpi) : Json :=
  .object [("id", .string k.id), ("name", .string k.name), ("description", .ofOption .string k.description),
    ("includes", .ofList .string k.includes), ("specification", k.specification.toJson),
    ("threshold_min", .ofOption .ofFloat k.minimum), ("threshold_max", .ofOption .ofFloat k.maximum),
    ("baseline_value", .ofOption .ofFloat k.baseline)]

def ofDocument? (supply : Supply) (d : Json.Document) : Option Kpi := do
  let fields ← d.fields? ["id", "name", "description", "includes", "specification", "threshold_min",
    "threshold_max", "baseline_value"] 2
  return {
    id := ← fields.withDefault "id" (supply.id []).text (·.string?)
    name := ← fields.required "name" (·.string?)
    description := ← fields.optional "description" (·.string?)
    includes := ← fields.withDefault "includes" [] (·.list? (·.string?))
    specification := ← fields.withDefault "specification" ∅ Specification.ofDocument?
    minimum := ← fields.optional "threshold_min" (·.float?)
    maximum := ← fields.optional "threshold_max" (·.float?)
    baseline := ← fields.optional "baseline_value" (·.float?) }

end Kpi

end Scorecard
