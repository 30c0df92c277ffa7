import Scorecard.Text.Hex

/-!
Universally unique identifiers: 128 bits, written as 32 lower-case hexadecimal digits in groups of
8, 4, 4, 4 and 12. They are read in that form, without the hyphens, in braces, or behind
`urn:uuid:`, with digits of either case.
-/
namespace Scorecard

structure Uuid where
  bits : BitVec 128
deriving DecidableEq

namespace Uuid

/-- The 32 digits, most significant first. -/
def digits (u : Uuid) : List Char := Text.hexDigits 32 u.bits.toNat

def chars (u : Uuid) : List Char :=
  let ds := u.digits
  ds.take 8 ++ '-' :: ((ds.drop 8).take 4 ++ '-' :: ((ds.drop 12).take 4 ++ '-' ::
    ((ds.drop 16).take 4 ++ '-' :: ds.drop 20)))

def text (u : Uuid) : String := String.ofList u.chars

def ofDigits? (ds : List Char) : Option Uuid := do
  let values ← ds.mapM Text.hexValue?
  if values.length = 32 then some ⟨BitVec.ofNat 128 (values.foldl (fun n v => 16 * n + v) 0)⟩ else none

/-- Reads the form with hyphens, which stand behind digits 8, 12, 16 and 20. -/
def ofHyphenated? (cs : List Char) : Option Uuid :=
  match cs.drop 8, cs.drop 13, cs.drop 18, cs.drop 23 with
  | '-' :: b, '-' :: c, '-' :: d, '-' :: e => ofDigits? (cs.take 8 ++ b.take 4 ++ c.take 4 ++ d.take 4 ++ e)
  | _, _, _, _ => none

def ofChars? (cs : List Char) : Option Uuid :=
  match cs.length with
  | 32 => ofDigits? cs
  | 36 => ofHyphenated? cs
  | 38 => if cs.head? = some '{' ∧ cs.getLast? = some '}' then ofHyphenated? (cs.drop 1).dropLast else none
  | 45 => if cs.take 9 = "urn:uuid:".toList then ofHyphenated? (cs.drop 9) else none
  | _ => none

def ofString? (s : String) : Option Uuid := ofChars? s.toList

end Uuid

end Scorecard
