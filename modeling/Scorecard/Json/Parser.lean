import Scorecard.Json.Document
import Scorecard.Json.Number
import Scorecard.Text.Hex

/-!
Reading JSON text. A text that departs from the grammar is no document; what is in the grammar but
has no value becomes an unreadable part. Every step of the recursion takes a character or turns from
an item to its value, so twice the length of the text bounds the steps.
-/
namespace Scorecard.Json

def isSpace (c : Char) : Bool := c = ' ' || c = '\n' || c = '\t' || c = '\r'

def skipSpace (cs : List Char) : List Char := cs.dropWhile isSpace

/-- The text behind `word`, if the text starts with it. -/
def expect? : List Char → List Char → Option (List Char)
  | [], cs => some cs
  | w :: word, c :: cs => if w = c then expect? word cs else none
  | _ :: _, [] => none

def hexUnit? : List Char → Option (Nat × List Char)
  | a :: b :: c :: d :: cs => do
    let a ← Text.hexValue? a
    let b ← Text.hexValue? b
    let c ← Text.hexValue? c
    let d ← Text.hexValue? d
    return (((a * 16 + b) * 16 + c) * 16 + d, cs)
  | _ => none

/-- What one escape or character of a string stands for. -/
inductive StringUnit where
  | char (c : Char)
  | surrogate (unit : Nat)
deriving DecidableEq

def escapeUnit? : List Char → Option (StringUnit × List Char)
  | '"' :: cs => some (.char '"', cs)
  | '\\' :: cs => some (.char '\\', cs)
  | '/' :: cs => some (.char '/', cs)
  | 'b' :: cs => some (.char '\x08', cs)
  | 'f' :: cs => some (.char '\x0C', cs)
  | 'n' :: cs => some (.char '\n', cs)
  | 'r' :: cs => some (.char '\r', cs)
  | 't' :: cs => some (.char '\t', cs)
  | 'u' :: cs => do
    let (unit, cs) ← hexUnit? cs
    return (if 0xD800 ≤ unit ∧ unit < 0xE000 then .surrogate unit else .char (Char.ofNat unit), cs)
  | _ => none

/-- The units of a string whose opening quote is read, and the text behind its closing quote. -/
def stringUnits? : (fuel : Nat) → List Char → Option (List StringUnit × List Char)
  | 0, _ => none
  | _ + 1, [] => none
  | _ + 1, '"' :: cs => some ([], cs)
  | fuel + 1, '\\' :: cs => do
    let (unit, cs) ← escapeUnit? cs
    let (units, cs) ← stringUnits? fuel cs
    return (unit :: units, cs)
  | fuel + 1, c :: cs =>
    if c.toNat < 0x20 then none
    else do
      let (units, cs) ← stringUnits? fuel cs
      return (.char c :: units, cs)

/-- The characters of a string, or `none` if a surrogate in it has no partner. -/
def joinUnits? : List StringUnit → Option (List Char)
  | [] => some []
  | .char c :: units => (joinUnits? units).map (c :: ·)
  | .surrogate hi :: .surrogate lo :: units =>
    if hi < 0xDC00 ∧ 0xDC00 ≤ lo then
      (joinUnits? units).map (Char.ofNat (0x10000 + (hi - 0xD800) * 0x400 + (lo - 0xDC00)) :: ·)
    else none
  | .surrogate _ :: _ => none

def parseString? (cs : List Char) : Option (Option String × List Char) := do
  let (units, cs) ← stringUnits? (cs.length + 1) cs
  return ((joinUnits? units).map String.ofList, cs)

/-- The digits in front, at least one. -/
def parseDigits? (cs : List Char) : Option (List Char × List Char) :=
  match cs.takeWhile Char.isDigit with
  | [] => none
  | digits => some (digits, cs.dropWhile Char.isDigit)

/-- The digits in front of the point: a zero stands alone. -/
def parseWhole? : List Char → Option (List Char × List Char)
  | '0' :: c :: cs => if c.isDigit then none else some (['0'], c :: cs)
  | cs => parseDigits? cs

def parseFraction? : List Char → Option (List Char × List Char)
  | '.' :: cs => parseDigits? cs
  | cs => some ([], cs)

def parseExponent? : List Char → Option (Option (Bool × List Char) × List Char)
  | c :: cs =>
    if c = 'e' ∨ c = 'E' then do
      let (negative, cs) :=
        match cs with
        | '-' :: cs => (true, cs)
        | '+' :: cs => (false, cs)
        | cs => (false, cs)
      let (digits, cs) ← parseDigits? cs
      return (some (negative, digits), cs)
    else some (none, c :: cs)
  | [] => some (none, [])

def parseLiteral? (cs : List Char) : Option (Literal × List Char) := do
  let (negative, cs) :=
    match cs with
    | '-' :: cs => (true, cs)
    | cs => (false, cs)
  let (whole, cs) ← parseWhole? cs
  let (fraction, cs) ← parseFraction? cs
  let (exponent, cs) ← parseExponent? cs
  return ({ negative, whole, fraction, exponent }, cs)

def numberDocument (l : Literal) : Document :=
  match l.number? with
  | some n => .number n
  | none => .unreadable

def stringDocument : Option String → Document
  | some s => .string s
  | none => .unreadable

/-- An array or object inside `depth` others. -/
def nestedDocument (depth : Nat) (d : Document) : Document := if depth < maxDepth then d else .unreadable

/-- An object, unreadable if one of its names is. -/
def objectDocument (members : List (Option String × Document)) : Document :=
  match members.mapM fun (k, d) => k.map (·, d) with
  | some members => .object members
  | none => .unreadable

mutual

def parseValue? : (fuel depth : Nat) → List Char → Option (Document × List Char)
  | 0, _, _ => none
  | fuel + 1, depth, cs =>
    match skipSpace cs with
    | '"' :: cs => (parseString? cs).map fun (s, cs) => (stringDocument s, cs)
    | '[' :: cs =>
      match skipSpace cs with
      | ']' :: cs => some (nestedDocument depth (.array []), cs)
      | cs => do
        let (items, cs) ← parseItems? fuel (depth + 1) cs
        return (nestedDocument depth (.array items), cs)
    | '{' :: cs =>
      match skipSpace cs with
      | '}' :: cs => some (nestedDocument depth (.object []), cs)
      | cs => do
        let (members, cs) ← parseMembers? fuel (depth + 1) cs
        return (nestedDocument depth (objectDocument members), cs)
    | 'n' :: cs => (expect? ['u', 'l', 'l'] cs).map (.null, ·)
    | 't' :: cs => (expect? ['r', 'u', 'e'] cs).map (.bool true, ·)
    | 'f' :: cs => (expect? ['a', 'l', 's', 'e'] cs).map (.bool false, ·)
    | cs => (parseLiteral? cs).map fun (l, cs) => (numberDocument l, cs)

/-- Items up to the closing bracket, at least one. -/
def parseItems? : (fuel depth : Nat) → List Char → Option (List Document × List Char)
  | 0, _, _ => none
  | fuel + 1, depth, cs => do
    let (item, cs) ← parseValue? fuel depth cs
    match skipSpace cs with
    | ',' :: cs =>
      let (items, cs) ← parseItems? fuel depth cs
      return (item :: items, cs)
    | ']' :: cs => return ([item], cs)
    | _ => none

/-- Members up to the closing brace, at least one. -/
def parseMembers? : (fuel depth : Nat) → List Char → Option (List (Option String × Document) × List Char)
  | 0, _, _ => none
  | fuel + 1, depth, cs => do
    let '"' :: cs := skipSpace cs | none
    let (k, cs) ← parseString? cs
    let ':' :: cs := skipSpace cs | none
    let (d, cs) ← parseValue? fuel depth cs
    match skipSpace cs with
    | ',' :: cs =>
      let (members, cs) ← parseMembers? fuel depth cs
      return ((k, d) :: members, cs)
    | '}' :: cs => return ([(k, d)], cs)
    | _ => none

end

def parseChars? (cs : List Char) : Option Document := do
  let (d, cs) ← parseValue? (2 * cs.length + 2) 0 cs
  if (skipSpace cs).isEmpty then some d else none

/-- The document of a text, with nothing but blanks behind it. -/
def parse? (s : String) : Option Document := parseChars? s.toList

end Scorecard.Json
