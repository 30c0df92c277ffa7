import Scorecard.Text.Blank
import Scorecard.Text.Case

/-!
Metric names. Names are compared in one normal form, trimmed and in upper case, so that a name means
the same metric however it is padded or capitalized.
-/
namespace Scorecard.Metric

def normalize (name : String) : String := Text.upper (Text.trim name)

end Scorecard.Metric
