import Scorecard.Digest.Sha256
import Scorecard.Formula.Json
import Scorecard.Json.Canonical

/-!
The fingerprint of a formula: the hash of its canonical JSON text. Formulas built from names in
other orders or spellings come to one canonical text and so have one fingerprint.
-/
namespace Scorecard.Formula

def canonicalText (f : Formula) : String := f.toJson.canonicalText

def fingerprint (f : Formula) : String := Sha256.hex f.canonicalText

end Scorecard.Formula
