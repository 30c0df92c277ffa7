import Scorecard.CommandLine.LogFilter
import Scorecard.Decimal.Layout
import Scorecard.Json.Printer
import Scorecard.Timestamp

/-!
Log lines as text, either one JSON object a line or words for people to read.
-/
namespace Scorecard.CommandLine.LogLine

def valueJson : Event.Value → Json
  | .text s => .string s
  | .count n => .ofUInt64 n
  | .number x => .ofFloat x
  | .flag b => .bool b

def toJson (now : Timestamp) (l : LogLine) : Json :=
  let fields := Json.object (l.fields.map fun (name, value) => (name, valueJson value))
  let span :=
    match l.span with
    | some name => [("span", Json.object [("name", .string name)])]
    | none => []
  .object ([("timestamp", .string now.text), ("level", .string l.level.word), ("fields", fields)] ++ span)

def valueText : Event.Value → String
  | .text s => s
  | .count n => toString n.toNat
  | .number x => Decimal.plain.write x
  | .flag b => if b then "true" else "false"

def fieldText (field : String × Event.Value) : String := field.1 ++ "=" ++ valueText field.2

def plainText (now : Timestamp) (l : LogLine) : String :=
  " ".intercalate (now.text :: l.level.word :: l.span.toList ++ l.fields.map fieldText)

/-- The line with its break. -/
def text (json : Bool) (now : Timestamp) (l : LogLine) : String :=
  (if json then (l.toJson now).compact else l.plainText now) ++ "\n"

end Scorecard.CommandLine.LogLine
