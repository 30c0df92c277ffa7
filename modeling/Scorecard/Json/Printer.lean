import Scorecard.Json.Basic
import Scorecard.Decimal.Layout
import Scorecard.Text.Hex

/-!
Writing JSON. Strings escape the quote, the backslash and the control characters and nothing else.
Doubles are written with the fewest digits that read back: positionally with a point when the
leading digit is at most fifteen places above or five below the units, with a signed exponent
otherwise. The compact form has no blanks; the indented form puts each item on a line of its own.
-/
namespace Scorecard.Json

def escapeChar (c : Char) : List Char :=
  if c = '"' then ['\\', '"']
  else if c = '\\' then ['\\', '\\']
  else if c.toNat < 0x20 then
    if c = '\n' then ['\\', 'n']
    else if c = '\t' then ['\\', 't']
    else if c = '\r' then ['\\', 'r']
    else if c.toNat = 0x08 then ['\\', 'b']
    else if c.toNat = 0x0C then ['\\', 'f']
    else ['\\', 'u', '0', '0', Text.hexDigit (c.toNat / 16), Text.hexDigit (c.toNat % 16)]
  else [c]

def stringChars (s : String) : List Char := '"' :: (s.toList.flatMap escapeChar ++ ['"'])

/-- How doubles are set out in JSON. -/
def floatLayout : Decimal.Layout := ⟨some (-5, 15), ['.', '0'], .even⟩

def integerChars (n : Int) : List Char :=
  if n < 0 then '-' :: Nat.toDigits 10 n.natAbs else Nat.toDigits 10 n.natAbs

def Number.chars : Number → List Char
  | .integer n _ => integerChars n
  | .float x _ => floatLayout.chars x

def boolChars (b : Bool) : List Char := if b then "true".toList else "false".toList

mutual

def chars : Json → List Char
  | .null => "null".toList
  | .bool b => boolChars b
  | .number n => n.chars
  | .string s => stringChars s
  | .array items => '[' :: (itemChars items ++ [']'])
  | .object members => '{' :: (memberChars members ++ ['}'])

def itemChars : List Json → List Char
  | [] => []
  | [v] => chars v
  | v :: w :: vs => chars v ++ ',' :: itemChars (w :: vs)

def memberChars : List (String × Json) → List Char
  | [] => []
  | [(k, v)] => stringChars k ++ ':' :: chars v
  | (k, v) :: m :: ms => stringChars k ++ ':' :: (chars v ++ ',' :: memberChars (m :: ms))

end

/-- The compact form. -/
def compact (v : Json) : String := String.ofList v.chars

/-- A line break and two blanks for each level. -/
def lineBreak (level : Nat) : List Char := '\n' :: List.replicate (2 * level) ' '

mutual

def indentedChars (level : Nat) : Json → List Char
  | .array (v :: vs) =>
    '[' :: (lineBreak (level + 1) ++ indentedItems (level + 1) (v :: vs) ++ lineBreak level ++ [']'])
  | .object (m :: ms) =>
    '{' :: (lineBreak (level + 1) ++ indentedMembers (level + 1) (m :: ms) ++ lineBreak level ++ ['}'])
  | .array [] => ['[', ']']
  | .object [] => ['{', '}']
  | .null => "null".toList
  | .bool b => boolChars b
  | .number n => n.chars
  | .string s => stringChars s

def indentedItems (level : Nat) : List Json → List Char
  | [] => []
  | [v] => indentedChars level v
  | v :: w :: vs => indentedChars level v ++ ',' :: (lineBreak level ++ indentedItems level (w :: vs))

def indentedMembers (level : Nat) : List (String × Json) → List Char
  | [] => []
  | [(k, v)] => stringChars k ++ ':' :: ' ' :: indentedChars level v
  | (k, v) :: m :: ms =>
    stringChars k ++ ':' :: ' ' ::
      (indentedChars level v ++ ',' :: (lineBreak level ++ indentedMembers level (m :: ms)))

end

/-- The indented form. -/
def indented (v : Json) : String := String.ofList (v.indentedChars 0)

end Scorecard.Json
