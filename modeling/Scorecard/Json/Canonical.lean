import Scorecard.Json.Document
import Scorecard.Json.Printer
import Scorecard.Table

/-!
The canonical form of a value: names in increasing order at every level, of repeated ones the last,
and every whole number below nine quadrillion in magnitude as an integer, whichever way it was
written. Values that differ only in spelling have one canonical text.
-/
namespace Scorecard.Json

/-- The bound below which whole doubles become integers. -/
def wholeLimit : Nat := 9000000000000000

/-- The whole number below `wholeLimit` that a double is, if it is one. -/
def wholeBelowLimit? (x : Float) : Option Int :=
  let units := Decimal.units (Decimal.rankOf x)
  if units % Decimal.unitsPerOne = 0 ∧ units < wholeLimit * Decimal.unitsPerOne then
    let n : Int := (units / Decimal.unitsPerOne : Nat)
    some (if Decimal.isNegative x then -n else n)
  else none

theorem fitsWord_of_wholeBelowLimit? {x : Float} {n : Int} (h : wholeBelowLimit? x = some n) : FitsWord n := by
  simp only [wholeBelowLimit?] at h
  split at h
  · rename_i hx
    have hlt : Decimal.units (Decimal.rankOf x) / Decimal.unitsPerOne < wholeLimit :=
      Nat.div_lt_of_lt_mul (Nat.mul_comm .. ▸ hx.2)
    have hlimit : wholeLimit = 9000000000000000 := rfl
    simp only [Option.some.injEq] at h
    generalize Decimal.units (Decimal.rankOf x) / Decimal.unitsPerOne = q at h hlt
    unfold FitsWord
    split at h <;> omega
  · contradiction

def Number.canonical : Number → Number
  | .integer n fits => .integer n fits
  | .float x finite =>
    match h : wholeBelowLimit? x with
    | some n => .integer n (fitsWord_of_wholeBelowLimit? h)
    | none => .float x finite

/-- Puts a member in its place unless a later one of its name is there. -/
def insertMember (k : String) (v : Json) (members : List (String × Json)) : List (String × Json) :=
  if (members.lookup k).isSome then members else insertEntry k v members

mutual

def canonical : Json → Json
  | .null => .null
  | .bool b => .bool b
  | .number n => .number n.canonical
  | .string s => .string s
  | .array items => .array (canonicalItems items)
  | .object members => .object (canonicalMembers members)

def canonicalItems : List Json → List Json
  | [] => []
  | v :: vs => canonical v :: canonicalItems vs

def canonicalMembers : List (String × Json) → List (String × Json)
  | [] => []
  | (k, v) :: ms => insertMember k (canonical v) (canonicalMembers ms)

end

/-- The compact text of the canonical form. -/
def canonicalText (v : Json) : String := v.canonical.compact

end Scorecard.Json
