import Scorecard.Text.HiddenData

/-!
Quoted text for messages. Quotes of both kinds, backslashes and whatever would not show on a line are
escaped, so that a message gives away blanks and breaks in a name.
-/
namespace Scorecard.Text

/-- Whether the character would leave no mark of its own. -/
def isHidden (c : Char) : Bool :=
  let n := c.toNat
  n < 0x20 || n == 0x7F || hiddenRanges.any fun (first, last) => first ≤ n && n ≤ last

/-- A code point in braces, in hexadecimal. -/
def codePointEscape (c : Char) : List Char := ['\\', 'u', '\x7b'] ++ Nat.toDigits 16 c.toNat ++ ['\x7d']

def quoteChar (c : Char) : List Char :=
  if c = '"' || c = '\'' || c = '\\' then ['\\', c]
  else if c = '\n' then ['\\', 'n']
  else if c = '\r' then ['\\', 'r']
  else if c = '\t' then ['\\', 't']
  else if c.toNat = 0 then ['\\', '0']
  else if isHidden c then codePointEscape c
  else [c]

def quoted (s : String) : String := String.ofList ('"' :: (s.toList.flatMap quoteChar ++ ['"']))

end Scorecard.Text
