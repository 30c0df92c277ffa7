import Scorecard.Json.Document
import Scorecard.Table
import Scorecard.Timestamp
import Scorecard.Uuid

/-!
Reading typed values out of documents. A record is an object that names its fields; a field given
twice is an error, and what is not a field of it is passed over unread. An optional field may be
missing or null, a field with a default may be missing, any other must be there. A record may also be
an array of its fields in their order, without names; then only fields at the end that have defaults
may be missing, and nothing else may follow.
-/
namespace Scorecard.Json

namespace Document

def string? : Document → Option String
  | .string s => some s
  | _ => none

def bool? : Document → Option Bool
  | .bool b => some b
  | _ => none

/-- Any number, integers included. -/
def float? : Document → Option Float
  | .number n => some n.toFloat
  | _ => none

/-- An integer from zero up to below `limit`. -/
def natBelow? (limit : Nat) : Document → Option Nat
  | .number (.integer n _) => if 0 ≤ n ∧ n < limit then some n.toNat else none
  | _ => none

def uint32? (d : Document) : Option UInt32 := (d.natBelow? UInt32.size).map UInt32.ofNat

def uint64? (d : Document) : Option UInt64 := (d.natBelow? UInt64.size).map UInt64.ofNat

def list? {α : Type} (read : Document → Option α) : Document → Option (List α)
  | .array items => items.mapM read
  | _ => none

/-- An object as a table; of repeated names the last counts. -/
def table? {α : Type} (read : Document → Option α) : Document → Option (Table α)
  | .object members => (members.mapM fun (m : String × Document) => (read m.2).map (m.1, ·)).map Table.ofList
  | _ => none

def option? {α : Type} (read : Document → Option α) : Document → Option (Option α)
  | .null => some none
  | d => (read d).map some

/-- The word of an enumeration: a string, or an object with the word as its only name and null. -/
def word? : Document → Option String
  | .string s => some s
  | .object [(s, .null)] => some s
  | _ => none

def uuid? (d : Document) : Option Uuid := d.string?.bind Uuid.ofString?

def timestamp? (d : Document) : Option Timestamp := d.string?.bind Timestamp.ofString?

end Document

/-- The fields of a record as far as they are given, each once. -/
abbrev Fields := List (String × Document)

def occursOnce (members : Fields) (name : String) : Bool := (members.filter (·.1 == name)).length ≤ 1

/-- The members of an object that gives none of the named fields twice, or the items of an array under
the names of their places, if there are at least so many. -/
def Document.fields? (names : List String) (least : Nat) : Document → Option Fields
  | .object members => if names.all (occursOnce members) then some members else none
  | .array items => if least ≤ items.length ∧ items.length ≤ names.length then some (names.zip items) else none
  | _ => none

namespace Fields

def required {α : Type} (fields : Fields) (name : String) (read : Document → Option α) : Option α :=
  (fields.lookup name).bind read

def optional {α : Type} (fields : Fields) (name : String) (read : Document → Option α) : Option (Option α) :=
  match fields.lookup name with
  | none => some none
  | some d => d.option? read

def withDefault {α : Type} (fields : Fields) (name : String) (default : α) (read : Document → Option α) :
    Option α :=
  match fields.lookup name with
  | none => some default
  | some d => read d

end Fields

/-! ### Writing -/

def ofTable {α : Type} (write : α → Json) (t : Table α) : Json :=
  .object (t.entries.map fun (k, v) => (k, write v))

def ofUuid (u : Uuid) : Json := .string u.text

def ofTimestamp (t : Timestamp) : Json := .string t.text

end Scorecard.Json
