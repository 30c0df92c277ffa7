import Scorecard.Expression.Token
import Scorecard.Text.Case

/-!
Splitting a text into tokens. Blanks separate and are otherwise passed over; every other character
belongs to exactly one piece of the text, and each piece is one token. Nothing fails here: a
character without a meaning is a token of its own, and a number takes every letter, digit, point and
underscore that follows, and a sign behind the exponent's letter, so that a misspelt number is one
token.
-/
namespace Scorecard.Expression

def isIdentifierStart (c : Char) : Bool := c.isAlpha || c = '_'

def isIdentifierPart (c : Char) : Bool := c.isAlphanum || c = '_'

def isNumberStart (c : Char) : Bool := c.isDigit || c = '.' || c = '-' || c = '+'

/-- Whether `c` goes on with a number whose last character so far is `last`. -/
def continuesNumber (last c : Char) : Bool :=
  c.isAlphanum || c = '.' || c = '_' || ((c = '-' || c = '+') && (last = 'e' || last = 'E'))

/-- Splits off what goes on with a number. -/
def splitNumber (last : Char) : List Char → List Char × List Char
  | [] => ([], [])
  | c :: cs =>
    if continuesNumber last c then
      let (piece, rest) := splitNumber c cs
      (c :: piece, rest)
    else ([], c :: cs)

theorem splitNumber_append (last : Char) (cs : List Char) :
    (splitNumber last cs).1 ++ (splitNumber last cs).2 = cs := by
  induction cs generalizing last with
  | nil => rfl
  | cons c cs ih =>
    rw [splitNumber]
    split
    · simp [ih c]
    · rfl

/-- The first piece of a text that starts with `c`, less `c` itself, and what follows the piece. -/
def splitPiece (c : Char) (cs : List Char) : List Char × List Char :=
  if isIdentifierStart c then (cs.takeWhile isIdentifierPart, cs.dropWhile isIdentifierPart)
  else if isNumberStart c then splitNumber c cs
  else ([], cs)

theorem splitPiece_append (c : Char) (cs : List Char) : (splitPiece c cs).1 ++ (splitPiece c cs).2 = cs := by
  unfold splitPiece
  split
  · exact List.takeWhile_append_dropWhile
  · split
    · exact splitNumber_append c cs
    · rfl

theorem length_splitPiece_le (c : Char) (cs : List Char) : (splitPiece c cs).2.length ≤ cs.length := by
  have h := congrArg List.length (splitPiece_append c cs)
  rw [List.length_append] at h
  omega

/-- What a piece stands for, given its first character and the others. Identifiers are in upper
case, numbers as they are written. -/
def symbolOf (c : Char) (cs : List Char) : Symbol :=
  if isIdentifierStart c then .identifier (Text.upper (String.ofList (c :: cs)))
  else if isNumberStart c then .number (String.ofList (c :: cs))
  else if c = '(' then .openParen
  else if c = ')' then .closeParen
  else if c = ',' then .comma
  else if c = ':' then .colon
  else .stray c

/-- The tokens of a text that starts at `p`. -/
def tokensFrom (p : Position) : List Char → List Token
  | [] => []
  | c :: cs =>
    if Text.isBlank c then tokensFrom (p.after c) cs
    else
      ⟨symbolOf c (splitPiece c cs).1, p⟩ ::
        tokensFrom (p.afterAll (c :: (splitPiece c cs).1)) (splitPiece c cs).2
termination_by cs => cs.length
decreasing_by
  · simp
  · exact Nat.lt_succ_of_le (length_splitPiece_le c cs)

def tokens (text : String) : List Token := tokensFrom .start text.toList

end Scorecard.Expression
