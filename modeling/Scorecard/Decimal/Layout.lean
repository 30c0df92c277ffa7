import Scorecard.Decimal.Shortest

/-!
Writing numbers. The digits are those of the shortest decimal that reads back; a `Layout` says how
they are set out, and is the place where one text format differs from another. `fixed` writes a
given count of decimal places instead.
-/
namespace Scorecard.Decimal

/-- How the digits of a number are set out. -/
structure Layout where
  /-- The places of the leading digit for which the number is written positionally; `none` for all. -/
  positional : Option (Int × Int)
  /-- What follows a whole number written positionally. -/
  wholeSuffix : List Char
  /-- Which of two shortest decimals is written if both are equally near. -/
  tie : Tie

def zeros (n : Nat) : List Char := List.replicate n '0'

/-- The digits with the point after place zero, where the first digit has place `lead`. -/
def positionalChars (wholeSuffix digits : List Char) (lead : Int) : List Char :=
  if lead < 0 then '0' :: '.' :: (zeros (-lead - 1).toNat ++ digits)
  else
    let whole := lead.toNat + 1
    if digits.length ≤ whole then digits ++ zeros (whole - digits.length) ++ wholeSuffix
    else digits.take whole ++ '.' :: digits.drop whole

/-- The digits with the point after the first one and the exponent with its sign. -/
def scientificChars (digits : List Char) (lead : Int) : List Char :=
  let fraction := if digits.length ≤ 1 then [] else '.' :: digits.drop 1
  let sign := if lead < 0 then '-' else '+'
  digits.take 1 ++ fraction ++ 'e' :: sign :: Nat.toDigits 10 lead.natAbs

/-- A finite number that is not negative, by rank. -/
def Layout.magnitudeChars (layout : Layout) (rank : Nat) : List Char :=
  if rank = 0 then positionalChars layout.wholeSuffix ['0'] 0
  else
    let d := shortest layout.tie rank
    let digits := Nat.toDigits 10 d.coefficient
    let lead := d.magnitude - 1
    match layout.positional with
    | none => positionalChars layout.wholeSuffix digits lead
    | some (least, greatest) =>
      if least ≤ lead ∧ lead ≤ greatest then positionalChars layout.wholeSuffix digits lead
      else scientificChars digits lead

def signChars (x : Float) : List Char := if isNegative x then ['-'] else []

/-- Writes numbers through `magnitude` and the others by name. -/
def writeChars (magnitude : Nat → List Char) (x : Float) : List Char :=
  if x.isNaN then "NaN".toList
  else if x.isFinite then signChars x ++ magnitude (rankOf x)
  else signChars x ++ "inf".toList

def Layout.chars (layout : Layout) (x : Float) : List Char := writeChars layout.magnitudeChars x

def Layout.write (layout : Layout) (x : Float) : String := String.ofList (layout.chars x)

/-- Plain decimals: always positional, no point in a whole number. -/
def plain : Layout := ⟨none, [], .up⟩

/-- A number with `places` decimal places, rounded from its exact value, ties to even. -/
def fixedChars (places rank : Nat) : List Char :=
  let n := roundQuotient .even (units rank * Nat.pow 10 places) unitsPerOne
  let digits := Nat.toDigits 10 n
  let padded := zeros (places + 1 - digits.length) ++ digits
  padded.take (padded.length - places) ++ '.' :: padded.drop (padded.length - places)

def fixed (places : Nat) (x : Float) : String := String.ofList (writeChars (fixedChars places) x)

end Scorecard.Decimal
