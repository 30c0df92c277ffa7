import Scorecard.Decimal.Nearest

/-!
The shortest decimal that reads back. The search goes from one digit to seventeen; on the grid of
each digit count it tries the two neighbours of the number and keeps those that read back, of two
the nearer. The first grid with a hit wins. Should no grid have one, the number is written in full,
so whatever the search returns reads back.
-/
namespace Scorecard.Decimal

/-- The place of the leading digit of `num / den`, zero for the units. -/
def leadingPlace (num den : Nat) : Int :=
  if den ≤ num then (Nat.toDigits 10 (num / den)).length - 1
  else
    let places := (Nat.toDigits 10 (den / num)).length
    if num * Nat.pow 10 (places - 1) = den then -(places - 1 : Int) else -(places : Int)

/-- The neighbours of `num / den` among the multiples of `10 ^ place` that read back as `rank`, of
two the nearer one. -/
def onGrid (tie : Tie) (rank num den : Nat) (place : Int) : Option Decimal :=
  let n := num * Nat.pow 10 (-place).toNat
  let d := den * Nat.pow 10 place.toNat
  let below : Decimal := ⟨n / d, place⟩
  let above : Decimal := ⟨n / d + 1, place⟩
  match below.nearest == rank, above.nearest == rank with
  | true, true => some ⟨roundQuotient tie n d, place⟩
  | true, false => some below
  | false, true => some above
  | false, false => none

/-- Moves the trailing zeros of the coefficient into the exponent. -/
def strip (d : Decimal) : Decimal :=
  if d.coefficient ≠ 0 ∧ d.coefficient % 10 = 0 then strip ⟨d.coefficient / 10, d.exponent + 1⟩ else d
termination_by d.coefficient
decreasing_by omega

/-- The shortest decimal that reads back as the positive number of the rank. -/
def shortest (tie : Tie) (rank : Nat) : Decimal :=
  let num := units rank
  let lead := leadingPlace num unitsPerOne
  let grids := (List.range 17).map fun (digits : Nat) => onGrid tie rank num unitsPerOne (lead - digits)
  match grids.findSome? (·.filter (·.nearest == rank)) with
  | some d => d.strip
  | none => strip ⟨num * Nat.pow 5 1074, -1074⟩

end Scorecard.Decimal
