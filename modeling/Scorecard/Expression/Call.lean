import Scorecard.Expression.Fault

/-!
Calls: a keyword and, in one pair of parentheses that ends the text, arguments separated by commas.
What the arguments hold is not looked at here, save that a parenthesis or a stray character inside
is no argument of any keyword.
-/
namespace Scorecard.Expression

/-- The tokens between two delimiters. An empty argument has the place of the delimiter that ends
it. -/
structure Argument where
  tokens : List Token
  position : Position
deriving DecidableEq

def Argument.ofTokens (tokens : List Token) (ending : Position) : Argument :=
  match tokens with
  | [] => ⟨[], ending⟩
  | t :: ts => ⟨t :: ts, t.position⟩

structure Call where
  kind : Formula.Kind
  /-- The place of the opening parenthesis. -/
  opening : Position
  arguments : List Argument
deriving DecidableEq

/-- Splits at commas. `pending` is the argument read so far, last token first. -/
def splitArguments (pending : List Token) (closing : Position) : List Token → List Argument
  | [] => [.ofTokens pending.reverse closing]
  | t :: ts =>
    if t.symbol = .comma then .ofTokens pending.reverse t.position :: splitArguments [] closing ts
    else splitArguments (t :: pending) closing ts

/-- The arguments between the parentheses; where nothing is, there are none. -/
def argumentsOf (inner : List Token) (closing : Position) : List Argument :=
  if inner.isEmpty then [] else splitArguments [] closing inner

def mismatch (m : Mismatch) (p : Position) : Fault := ⟨.unrecognized m, p⟩

/-- The tokens up to the closing parenthesis, its place, and what follows it. `last` is the place of
the token before. -/
def splitBody (last : Position) : List Token → Except Fault (List Token × Position × List Token)
  | [] => .error (mismatch .unclosed last)
  | t :: ts =>
    match t.symbol with
    | .closeParen => .ok ([], t.position, ts)
    | .openParen => .error (mismatch .nested t.position)
    | .stray c => .error (mismatch (.strayCharacter c) t.position)
    | _ => (splitBody t.position ts).map fun (inner, closing, rest) => (t :: inner, closing, rest)

/-- The kind that the first token of an expression names. -/
def kindOf (head : Token) : Except Fault Formula.Kind :=
  match head.symbol with
  | .identifier word =>
    match Formula.Kind.ofKeyword? word with
    | some kind => .ok kind
    | none => .error (mismatch (.unknownFunction word) head.position)
  | found => .error (mismatch (.noFunction found) head.position)

/-- The call that tokens form. -/
def Call.ofTokens (head : Token) (rest : List Token) : Except Fault Call := do
  let kind ← kindOf head
  match rest with
  | [] => .error (mismatch (.noParenthesis kind none) head.position)
  | paren :: body =>
    if paren.symbol = .openParen then
      let (inner, closing, trailing) ← splitBody paren.position body
      match trailing with
      | [] => .ok ⟨kind, paren.position, argumentsOf inner closing⟩
      | t :: _ => .error (mismatch (.trailing t.symbol) t.position)
    else .error (mismatch (.noParenthesis kind (some paren.symbol)) paren.position)

end Scorecard.Expression
