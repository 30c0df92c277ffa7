import Scorecard.Metric.Name
import Scorecard.Table

/-!
The registry of known metrics: a set of normal names to which names are added and from which none is
taken. A name that is blank once trimmed is never added.
-/
namespace Scorecard.Metric

structure Registry where
  names : NameSet
deriving DecidableEq

namespace Registry

def empty : Registry := ⟨∅⟩

instance : EmptyCollection Registry := ⟨empty⟩

/-- Whether the registry knows the name, in whichever spelling. -/
def knows (r : Registry) (name : String) : Bool := r.names.contains (normalize name)

/-- Adds one name; the count is one if it is new. -/
def add (r : Registry) (name : String) : Registry × Nat :=
  let name := normalize name
  if name = "" ∨ r.names.contains name then (r, 0) else (⟨r.names.insert name⟩, 1)

/-- Adds names and counts the new ones. -/
def register (r : Registry) : List String → Registry × Nat
  | [] => (r, 0)
  | name :: names =>
    let (r, added) := r.add name
    let (r, more) := r.register names
    (r, added + more)

def withNames (r : Registry) (names : List String) : Registry := (r.register names).1

/-- The names in increasing order, as lists of known metrics show them. -/
def toList (r : Registry) : List String := r.names.keys

/-- The metrics that every registry starts with. -/
def standard : Registry := withNames ∅ ["ROUGE", "BLEU", "ACCURACY", "PRECISION", "RECALL", "F1_SCORE"]

end Registry

end Scorecard.Metric
