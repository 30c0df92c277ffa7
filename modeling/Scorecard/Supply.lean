import Scorecard.Digest.Sha256
import Scorecard.Json.Document
import Scorecard.Timestamp
import Scorecard.Uuid

/-!
Supplies of ids and times. A document may leave out the id of a thing or the time at which it was
made; the reader then takes a fresh id and the present time, which it is given as a supply.
-/
namespace Scorecard

/-- The present time, and an id for each place in a tree of lists. -/
structure Supply where
  now : Timestamp
  id : List Nat → Uuid

namespace Supply

/-- The id that 32 hexadecimal digits give once the digits for version 4 are put in place. -/
def idOfDigits (digits : List Char) : Uuid :=
  let versioned := digits.take 12 ++ '4' :: ((digits.drop 13).take 3 ++ '8' :: (digits.drop 17).take 15)
  (Uuid.ofDigits? versioned).getD ⟨0⟩

/-- The supply whose ids are hashes of a seed and the place. -/
def ofSeed (now : Timestamp) (seed : String) : Supply :=
  { now
    id := fun path =>
      let place := " ".intercalate (seed :: path.map toString)
      idOfDigits (Sha256.hex place).toList }

/-- The supply of the item at an index. -/
def item (s : Supply) (index : Nat) : Supply := { s with id := fun path => s.id (index :: path) }

/-- A list, each item read with its own supply. -/
def readItems {α : Type} (s : Supply) (read : Supply → Json.Document → Option α) (index : Nat) :
    List Json.Document → Option (List α)
  | [] => some []
  | d :: ds => do
    let a ← read (s.item index) d
    let as ← readItems s read (index + 1) ds
    return a :: as

def list? {α : Type} (s : Supply) (read : Supply → Json.Document → Option α) : Json.Document → Option (List α)
  | .array items => s.readItems read 0 items
  | _ => none

end Supply

end Scorecard
