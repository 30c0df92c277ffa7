import Scorecard.Text.Blank

/-!
Tokens of the expression language and their places in the text. Lines and columns are counted from
one, and a column is a character. The counts are machine words, so after their greatest number they
start again from zero.
-/
namespace Scorecard.Expression

structure Position where
  line : UInt32
  column : UInt32
deriving DecidableEq

namespace Position

/-- The place of the first character. -/
def start : Position := ⟨1, 1⟩

/-- The place behind the character `c` at `p`. -/
def after (p : Position) (c : Char) : Position :=
  if c = '\n' then ⟨p.line + 1, 1⟩ else ⟨p.line, p.column + 1⟩

/-- The place behind the characters that start at `p`. -/
def afterAll (p : Position) (cs : List Char) : Position := cs.foldl after p

/-- Whether `p` is not behind `q` in the text. -/
def atMost (p q : Position) : Bool := p.line < q.line || (p.line == q.line && p.column ≤ q.column)

end Position

inductive Symbol where
  | identifier (name : String)
  | number (text : String)
  | openParen
  | closeParen
  | comma
  | colon
  /-- A character that belongs to no other symbol. -/
  | stray (c : Char)
deriving DecidableEq

/-- How messages name the symbol. -/
def Symbol.describe : Symbol → String
  | .identifier name => s!"identifier '{name}'"
  | .number text => s!"number '{text}'"
  | .openParen => "'('"
  | .closeParen => "')'"
  | .comma => "','"
  | .colon => "':'"
  | .stray c =>
    let c := String.singleton c
    s!"unexpected character '{c}'"

structure Token where
  symbol : Symbol
  position : Position
deriving DecidableEq

end Scorecard.Expression
