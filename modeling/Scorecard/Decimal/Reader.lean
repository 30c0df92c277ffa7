import Scorecard.Decimal.Nearest

/-!
Reading numbers from text: an optional sign, then `inf`, `infinity` or `nan` in any letter case, or
digits with at most one point and at least one digit, and an optional exponent. The number is the
one nearest to the decimal that is written, and infinite beyond the range.
-/
namespace Scorecard.Decimal

/-- Why a text is no number. -/
inductive ReadError where
  | empty
  | malformed
deriving DecidableEq

namespace ReadError

def message : ReadError → String
  | .empty => "cannot parse float from empty string"
  | .malformed => "invalid float literal"

end ReadError

/-- Splits off a sign; `true` stands for minus. -/
def splitSign : List Char → Bool × List Char
  | '-' :: cs => (true, cs)
  | '+' :: cs => (false, cs)
  | cs => (false, cs)

/-- The digits in front and what follows them. -/
def splitDigits (cs : List Char) : List Char × List Char :=
  (cs.takeWhile Char.isDigit, cs.dropWhile Char.isDigit)

/-- The part behind the digits: nothing, or `e` and a whole number. -/
def readExponent? : List Char → Option Int
  | [] => some 0
  | c :: cs =>
    if c = 'e' ∨ c = 'E' then
      let (negative, cs) := splitSign cs
      let (digits, rest) := splitDigits cs
      if digits.isEmpty || !rest.isEmpty then none
      else
        let n := Nat.ofDigitChars 10 digits 0
        some (if negative then -(n : Int) else n)
    else none

/-- The digits behind a point, if there is one, and what follows them. -/
def splitFraction : List Char → List Char × List Char
  | '.' :: cs => splitDigits cs
  | cs => ([], cs)

def readDecimal? (cs : List Char) : Option Decimal :=
  let (whole, rest) := splitDigits cs
  let (fraction, rest) := splitFraction rest
  if whole.isEmpty && fraction.isEmpty then none
  else
    (readExponent? rest).map fun e =>
      ⟨Nat.ofDigitChars 10 (whole ++ fraction) 0, e - fraction.length⟩

/-- The quiet value that is no number. -/
def notANumber : Float := Float.ofBits 0x7FF8000000000000

def readMagnitude? (cs : List Char) (negative : Bool) : Option Float :=
  let word := String.ofList (cs.map Char.toLower)
  if word = "nan" then some notANumber
  else if word = "inf" ∨ word = "infinity" then some (ofRank negative infinityRank)
  else (readDecimal? cs).map fun d => ofRank negative d.nearest

def readChars (cs : List Char) : Except ReadError Float :=
  if cs.isEmpty then .error .empty
  else
    let (negative, rest) := splitSign cs
    match readMagnitude? rest negative with
    | some x => .ok x
    | none => .error .malformed

def read (s : String) : Except ReadError Float := readChars s.toList

end Scorecard.Decimal
