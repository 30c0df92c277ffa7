/-!
The grid of double-precision numbers. The numbers from zero upwards are counted by *rank*, which is
the bit pattern without its sign: rank 0 is zero, neighbours have neighbouring ranks, and
`infinityRank` is the first rank that is no number. The number of a rank is
`significand * 2 ^ scale / 2 ^ 1074`, so all questions of rounding are questions about naturals.
-/
namespace Scorecard.Decimal

/-- The number of ranks in a binade, which is also the least significand of a normal number. -/
def binade : Nat := 0x10000000000000

/-- The sign's place in a bit pattern. -/
def signBit : Nat := 0x8000000000000000

def infinityRank : Nat := 2047 * binade

def significand (rank : Nat) : Nat := if rank < binade then rank else binade + rank % binade

def scale (rank : Nat) : Nat := rank / binade - 1

/-- The number of a rank in units of `2 ^ -1074`, the smallest positive number. -/
def units (rank : Nat) : Nat := significand rank <<< scale rank

/-- How many of the `units` make one. -/
def unitsPerOne : Nat := 1 <<< 1074

def rankOf (x : Float) : Nat := x.toBits.toNat % signBit

/-- The sign bit, which zero has too. -/
def isNegative (x : Float) : Bool := x.toBits.toNat / signBit == 1

def ofRank (negative : Bool) (rank : Nat) : Float :=
  Float.ofBits (UInt64.ofNat (if negative then signBit + rank else rank))

/-- Which way a quotient halfway between two naturals is rounded. -/
inductive Tie where
  | even
  | up
deriving DecidableEq

/-- The natural nearest to `num / den`. -/
def roundQuotient (tie : Tie) (num den : Nat) : Nat :=
  let q := num / den
  let r := num % den
  if 2 * r < den then q
  else if den < 2 * r then q + 1
  else
    match tie with
    | .even => if q % 2 = 0 then q else q + 1
    | .up => q + 1

/-- The rank of the number nearest to `num / den`, ties to the even significand. The quotient is
rounded on the grid of its binade; a round-up to the next power of two lands on the right rank,
since ranks go on across binades. -/
def nearestRank (num den : Nat) : Nat :=
  let s := num * unitsPerOne
  let e := (s / den).log2 - 52
  min infinityRank (e * binade + roundQuotient .even s (den <<< e))

end Scorecard.Decimal
