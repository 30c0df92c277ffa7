/-!
JSON values. A number is either an integer of 64 bits or a finite double; the two are never
confused, so `1` and `1.0` are different values, and both are written as what they are. An object is
the list of its members in the order in which they are written.
-/
namespace Scorecard

/-- An integer that a signed or an unsigned word of 64 bits holds. -/
def FitsWord (n : Int) : Prop := -0x8000000000000000 ≤ n ∧ n < 0x10000000000000000

instance (n : Int) : Decidable (FitsWord n) := inferInstanceAs (Decidable (_ ∧ _))

namespace Json

inductive Number where
  | integer (n : Int) (fits : FitsWord n)
  | float (x : Float) (finite : x.isFinite = true)
deriving DecidableEq

def Number.toFloat : Number → Float
  | .integer n _ => if n < 0 then n.toInt64.toFloat else n.toNat.toUInt64.toFloat
  | .float x _ => x

end Json

inductive Json where
  | null
  | bool (b : Bool)
  | number (n : Json.Number)
  | string (s : String)
  | array (items : List Json)
  | object (members : List (String × Json))

namespace Json

/-- A double as a value; what is not finite has no number in JSON and becomes null. -/
def ofFloat (x : Float) : Json :=
  if h : x.isFinite = true then .number (.float x h) else .null

theorem fitsWord_ofUInt64 (n : UInt64) : FitsWord n.toNat := by
  have := n.toNat_lt
  constructor <;> omega

def ofUInt64 (n : UInt64) : Json := .number (.integer n.toNat (fitsWord_ofUInt64 n))

theorem fitsWord_ofUInt32 (n : UInt32) : FitsWord n.toNat := by
  have := n.toNat_lt
  constructor <;> omega

def ofUInt32 (n : UInt32) : Json := .number (.integer n.toNat (fitsWord_ofUInt32 n))

def ofOption {α : Type} (write : α → Json) : Option α → Json
  | none => .null
  | some a => write a

def ofList {α : Type} (write : α → Json) (l : List α) : Json := .array (l.map write)

end Json

end Scorecard
