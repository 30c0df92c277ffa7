import Scorecard.Json.Basic

/-!
What a JSON text says, before anyone asks for a part of it. A document keeps the members of its
objects as they are written, repeated names included, and marks as `unreadable` what is well formed
but has no value: a number beyond the doubles, a text with an unpaired surrogate, a nesting deeper
than `maxDepth`. A reader that passes over such a part does not mind; a reader that needs it fails.
-/
namespace Scorecard.Json

/-- How deep arrays and objects may be nested in what is read. -/
def maxDepth : Nat := 127

inductive Document where
  | null
  | bool (b : Bool)
  | number (n : Number)
  | string (s : String)
  | array (items : List Document)
  | object (members : List (String × Document))
  | unreadable

mutual

/-- The document that says just the value. -/
def toDocument : Json → Document
  | .null => .null
  | .bool b => .bool b
  | .number n => .number n
  | .string s => .string s
  | .array items => .array (itemDocuments items)
  | .object members => .object (memberDocuments members)

def itemDocuments : List Json → List Document
  | [] => []
  | v :: vs => toDocument v :: itemDocuments vs

def memberDocuments : List (String × Json) → List (String × Document)
  | [] => []
  | (k, v) :: ms => (k, toDocument v) :: memberDocuments ms

end

namespace Document

mutual

/-- The value of a document that is readable throughout. -/
def value? : Document → Option Json
  | .null => some .null
  | .bool b => some (.bool b)
  | .number n => some (.number n)
  | .string s => some (.string s)
  | .array items => (itemValues? items).map .array
  | .object members => (memberValues? members).map .object
  | .unreadable => none

def itemValues? : List Document → Option (List Json)
  | [] => some []
  | d :: ds => do
    let v ← d.value?
    let vs ← itemValues? ds
    return v :: vs

def memberValues? : List (String × Document) → Option (List (String × Json))
  | [] => some []
  | (k, d) :: ms => do
    let v ← d.value?
    let vs ← memberValues? ms
    return (k, v) :: vs

end

end Document

mutual

theorem value?_toDocument : (v : Json) → v.toDocument.value? = some v
  | .null | .bool _ | .number _ | .string _ => rfl
  | .array items => by simp [toDocument, Document.value?, itemValues?_itemDocuments items]
  | .object members => by simp [toDocument, Document.value?, memberValues?_memberDocuments members]

theorem itemValues?_itemDocuments : (vs : List Json) → Document.itemValues? (itemDocuments vs) = some vs
  | [] => rfl
  | v :: vs => by
    simp [itemDocuments, Document.itemValues?, value?_toDocument v, itemValues?_itemDocuments vs]

theorem memberValues?_memberDocuments :
    (ms : List (String × Json)) → Document.memberValues? (memberDocuments ms) = some ms
  | [] => rfl
  | (k, v) :: ms => by
    simp [memberDocuments, Document.memberValues?, value?_toDocument v, memberValues?_memberDocuments ms]

end

end Scorecard.Json
