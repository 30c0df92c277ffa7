import Scorecard.Text.CaseData

/-!
Upper and lower case by the full Unicode mappings, under which one character may become two or
three (`ß` is `SS` in upper case). Upper case depends on no context. Lower case depends on context
for one letter: a capital sigma that ends a word becomes `ς`, any other becomes `σ`.
-/
namespace Scorecard.Text

/-- The image of a character beyond ASCII: a sequence if the tables have one, else the span's. -/
def caseImage (sequences : List (Nat × List Nat)) (spans : List CaseSpan) (c : Char) : List Char :=
  match sequences.lookup c.toNat with
  | some image => image.map Char.ofNat
  | none =>
    match spans.find? (·.covers c.toNat) with
    | some span => [Char.ofNat (span.move c.toNat)]
    | none => [c]

def upperChar (c : Char) : List Char :=
  if c.toNat < 0x80 then [c.toUpper] else caseImage upperSequences upperSpans c

def upper (s : String) : String := String.ofList (s.toList.flatMap upperChar)

def lowerChar (c : Char) : List Char :=
  if c.toNat < 0x80 then [c.toLower] else caseImage lowerSequences lowerSpans c

def inRanges (ranges : List (Nat × Nat)) (c : Char) : Bool :=
  ranges.any fun (first, last) => first ≤ c.toNat && c.toNat ≤ last

/-- Whether the first character that matters for case context is a cased one. -/
def startsCased (cs : List Char) : Bool :=
  match cs.dropWhile (inRanges caseIgnorableRanges) with
  | [] => false
  | c :: _ => inRanges casedRanges c

/-- Lower case of `cs`, where `before` is the text in front of it, last character first. -/
def lowerChars (before : List Char) : List Char → List Char
  | [] => []
  | c :: cs =>
    let image :=
      if c = 'Σ' then (if startsCased before && !startsCased cs then ['ς'] else ['σ'])
      else lowerChar c
    image ++ lowerChars (c :: before) cs

def lower (s : String) : String := String.ofList (lowerChars [] s.toList)

end Scorecard.Text
