/-!
Reports of errors on a command line: what could not be done, and behind it what caused it.
-/
namespace Scorecard.CommandLine

structure ErrorReport where
  message : String
  cause : Option String
deriving DecidableEq

namespace ErrorReport

def plain (message : String) : ErrorReport := ⟨message, none⟩

/-- Starts every line with four blanks. -/
def indentChars : List Char → List Char
  | [] => []
  | c :: cs => if c = '\n' then c :: ' ' :: ' ' :: ' ' :: ' ' :: indentChars cs else c :: indentChars cs

def indent (text : String) : String := String.ofList (' ' :: ' ' :: ' ' :: ' ' :: indentChars text.toList)

def text (r : ErrorReport) : String :=
  match r.cause with
  | none => s!"Error: {r.message}\n"
  | some cause =>
    let cause := indent cause
    s!"Error: {r.message}\n\nCaused by:\n{cause}\n"

end ErrorReport

end Scorecard.CommandLine
