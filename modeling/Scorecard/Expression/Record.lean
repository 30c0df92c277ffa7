import Scorecard.Expression.Compile
import Scorecard.Journal.Basic

/-!
What compiling an expression leaves in the journal: a count of what was compiled or refused, and for
a refusal an event, which tells the text and the number of its faults.
-/
namespace Scorecard.Expression

def journal (text : String) : Outcome → Journal
  | .ok _ => [.count .formulasParsed]
  | .error faults =>
    [.count .parseFailures, Journal.tell (.parseFailed text (.ofNat faults.length))]

end Scorecard.Expression
