import Scorecard.Json.Basic
import Scorecard.Decimal.Nearest

/-!
Number literals and their values. A literal without point and exponent that fits a word of 64 bits
is that integer; `-0` is the negative zero. Any other literal is scaled in double precision: as many
leading digits as fit an unsigned word form a whole number, and this is multiplied or divided by a
power of ten. The result can be off the nearest double by a unit in the last place, but agrees with
it on every literal of at most fifteen digits and small exponent. A literal beyond the range of the
doubles has no value.
-/
namespace Scorecard.Json

/-- A number as it is written: digits, digits behind the point, and the exponent with its sign. -/
structure Literal where
  negative : Bool
  whole : List Char
  fraction : List Char
  exponent : Option (Bool × List Char)
deriving DecidableEq

namespace Literal

/-- Takes digits while the number they form fits an unsigned word of 64 bits. -/
def gather (n : Nat) : List Char → Nat × List Char
  | [] => (n, [])
  | c :: cs =>
    let next := 10 * n + (c.toNat - '0'.toNat)
    if next < UInt64.size then gather next cs else (n, c :: cs)

/-- Multiplies by a power of ten, in steps of `1e308` where the power is no double. -/
def scaleTen (x : Float) (exponent : Int) : Option Float :=
  if exponent.natAbs ≤ 308 then
    if 0 ≤ exponent then
      let y := x * Decimal.powerOfTen exponent.toNat
      if y.isInf then none else some y
    else some (x / Decimal.powerOfTen exponent.natAbs)
  else if x == 0 then some x
  else if 0 ≤ exponent then none
  else scaleTen (x / Decimal.powerOfTen 308) (exponent + 308)
termination_by exponent.natAbs
decreasing_by omega

def signed (negative : Bool) (x : Float) : Float := if negative then -x else x

def float? (x : Float) : Option Number :=
  if h : x.isFinite = true then some (.float x h) else none

def scaled? (negative : Bool) (n : Nat) (exponent : Int) : Option Number :=
  (scaleTen n.toUInt64.toFloat exponent).bind fun x => float? (signed negative x)

def integer? (negative : Bool) (n : Nat) : Option Number :=
  let value : Int := if negative then -(n : Int) else n
  if negative = true ∧ n = 0 then float? (-0.0)
  else if h : FitsWord value then some (.integer value h)
  else float? (signed negative n.toUInt64.toFloat)

/-- An exponent as written, or `none` if it is too long for a word of 32 bits. -/
def exponentValue? (negative : Bool) (digits : List Char) : Option Int :=
  let e := Nat.ofDigitChars 10 digits 0
  if e < UInt32.size / 2 then some (if negative then -(e : Int) else e) else none

/-- The value of a literal, or `none` if it lies beyond the doubles. -/
def number? (l : Literal) : Option Number :=
  let (n, left) := gather 0 l.whole
  if l.fraction.isEmpty && l.exponent.isNone && left.isEmpty then integer? l.negative n
  else
    let (m, unused) := gather n l.fraction
    let place : Int := left.length - (l.fraction.length - unused.length)
    match l.exponent with
    | none => scaled? l.negative m place
    | some (negative, digits) =>
      match exponentValue? negative digits with
      | some e => scaled? l.negative m (place + e)
      | none => if m ≠ 0 ∧ negative = false then none else float? (signed l.negative 0.0)

end Literal

end Scorecard.Json
