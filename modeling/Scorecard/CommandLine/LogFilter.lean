import Scorecard.Journal.Basic
import Scorecard.Text.Blank

/-!
Log filters. A filter is a list of directives with commas between them. A directive gives a level to
a target, to whatever carries certain fields, or to what lies within a span; of the directives that
fit an event the most specific one decides. `info`, `kpibench_core::metrics=off` and
`[kpibench.run]=debug` are directives.
-/
namespace Scorecard.CommandLine

/-- What an event or a span is to a filter. -/
structure Source where
  target : String
  level : Level
  fieldNames : List String

def eventTarget : Event → String
  | .countersFlushed _ => "kpibench_core::metrics"
  | _ => "kpibench_core::obs"

def Source.ofEvent (e : Event) : Source := ⟨eventTarget e, e.level, "event" :: e.fields.map (·.1)⟩

/-- The name of the span that encloses a run. -/
def runSpan : String := "kpibench.run"

def runSpanSource : Source := ⟨"kpibench_core::obs", .info, ["run_id"]⟩

/-- What a directive lets through: nothing, or what matters at least as much as a level. -/
inductive Threshold where
  | off
  | atLeast (level : Level)
deriving DecidableEq

namespace Threshold

/-- How much a threshold lets through. -/
def reach : Threshold → Nat
  | .off => 0
  | .atLeast level => 5 - level.rank

def lets (t : Threshold) (level : Level) : Bool :=
  match t with
  | .off => false
  | .atLeast least => least.rank ≤ level.rank

/-- Thresholds are named in any letter case, or numbered by their reach. -/
def ofWord? (word : String) : Option Threshold :=
  match word.map Char.toLower with
  | "error" | "1" => some (.atLeast .error)
  | "warn" | "2" => some (.atLeast .warn)
  | "info" | "3" => some (.atLeast .info)
  | "debug" | "4" => some (.atLeast .debug)
  | "trace" | "5" => some (.atLeast .trace)
  | "off" | "0" => some .off
  | _ => none

end Threshold

/-- A field that a directive asks for: by name, or by name and value. -/
structure FieldPattern where
  name : String
  hasValue : Bool

structure Directive where
  target : Option String
  span : Option String
  fields : List FieldPattern
  threshold : Threshold

namespace Directive

def everything : Threshold := .atLeast .trace

/-- A word without an equals sign is a threshold, or a target that is let through whole. -/
def ofWord (word : String) : Directive :=
  match Threshold.ofWord? word with
  | some threshold => ⟨none, none, [], threshold⟩
  | none => ⟨some word, none, [], everything⟩

/-- The threshold behind an equals sign; none stands for everything. -/
def thresholdOf? (word : String) : Option Threshold :=
  if word = "" then some everything else Threshold.ofWord? word

/-- The characters before the first that satisfies `stop`, and the rest from there on. -/
def splitAt (stop : Char → Bool) (cs : List Char) : List Char × List Char :=
  (cs.takeWhile fun c => !stop c, cs.dropWhile fun c => !stop c)

/-- What stands behind the closing bracket: nothing, or an equals sign and a threshold. -/
def readEnd? (target span : Option String) (fields : List FieldPattern) : List Char → Option Directive
  | [] => some ⟨target, span, fields, everything⟩
  | '=' :: cs => (thresholdOf? (String.ofList cs)).map fun threshold => ⟨target, span, fields, threshold⟩
  | _ => none

/-- One pattern between braces. -/
def fieldPattern? (cs : List Char) : Option FieldPattern :=
  if cs.isEmpty then none
  else
    let (name, value) := splitAt (· = '=') cs
    some ⟨String.ofList name, !value.isEmpty⟩

/-- The part in brackets, whose opening one is read: a span, patterns in braces, or both. -/
def readSpan? (target : Option String) (cs : List Char) : Option Directive :=
  let (span, rest) := splitAt (fun c => c = ']' || c = '\x7b') cs
  match rest with
  | ']' :: rest => readEnd? target (some (String.ofList span)) [] rest
  | '\x7b' :: rest =>
    let span := if span.isEmpty then none else some (String.ofList span)
    match splitAt (· = '\x7d') rest with
    | (field, '\x7d' :: ']' :: rest) => do
      let pattern ← fieldPattern? field
      readEnd? target span [pattern] rest
    | _ => none
  | _ => none

def mayStart (c : Char) : Bool := c.isAlphanum || c = '-' || c = ':' || c = '_' || 0x7F < c.toNat

def ofChars? : List Char → Option Directive
  | '[' :: cs => readSpan? none cs
  | [] => none
  | c :: cs =>
    if mayStart c then
      match splitAt (fun c => c = '=' || c = '[') (c :: cs) with
      | (target, '=' :: level) =>
        (thresholdOf? (String.ofList level)).map fun threshold =>
          ⟨some (String.ofList target), none, [], threshold⟩
      | (target, '[' :: rest) => readSpan? (some (String.ofList target)) rest
      | (word, _) => some (ofWord (String.ofList word))
    else none

def reaches (d : Directive) (s : Source) : Bool :=
  d.target.all fun target => target.toList.isPrefixOf s.target.toList

def asksOnlyNames (d : Directive) : Bool := d.fields.all fun f => !f.hasValue

/-- Whether the directive speaks of events themselves and not of what encloses them. -/
def isStatic (d : Directive) : Bool := d.span.isNone && d.asksOnlyNames

/-- Whether the directive speaks of what lies within a span. -/
def isDynamic (d : Directive) : Bool := d.span.isSome || !d.fields.isEmpty

def matchesEvent (d : Directive) (s : Source) : Bool :=
  d.isStatic && d.reaches s && d.fields.all fun f => s.fieldNames.contains f.name

/-- Whether the run span is one that the directive opens. -/
def matchesRunSpan (d : Directive) : Bool :=
  d.isDynamic && d.reaches runSpanSource && d.span.all (· == runSpan) && d.asksOnlyNames &&
    d.fields.all fun f => runSpanSource.fieldNames.contains f.name

/-- The more specific directive has the longer target, then more fields; of equals the later wins. -/
def atLeastAsSpecific (d e : Directive) : Bool :=
  let length (d : Directive) : Nat :=
    match d.target with
    | some target => target.utf8ByteSize + 1
    | none => 0
  length e < length d || (length d == length e && e.fields.length ≤ d.fields.length)

end Directive

abbrev LogFilter := List Directive

namespace LogFilter

def splitDirectives (pending : List Char) : List Char → List (List Char)
  | [] => [pending.reverse]
  | c :: cs => if c = ',' then pending.reverse :: splitDirectives [] cs else splitDirectives (c :: pending) cs

/-- Reads a filter; an empty one lets errors through. -/
def ofString? (text : String) : Option LogFilter :=
  if text = "" then some [⟨none, none, [], .atLeast .error⟩]
  else (splitDirectives [] text.toList).mapM fun cs => Directive.ofChars? (Text.trimChars cs)

def ofLevel (level : Level) : LogFilter := [⟨none, none, [], .atLeast level⟩]

/-- The directive that decides on a source, given one that does so far. -/
def decisive (s : Source) (best : Option Directive) : LogFilter → Option Directive
  | [] => best
  | d :: ds =>
    if d.matchesEvent s && best.all d.atLeastAsSpecific then decisive s (some d) ds else decisive s best ds

/-- Whether a source is let through by itself. -/
def letsPlain (f : LogFilter) (s : Source) : Bool := (decisive s none f).any fun d => d.threshold.lets s.level

/-- Whether the run span is there at all under the filter. -/
def opensRunSpan (f : LogFilter) : Bool := f.any (·.matchesRunSpan) || f.letsPlain runSpanSource

/-- Whether an event is let through for the run span that it lies in. -/
def letsWithinRun (f : LogFilter) (level : Level) : Bool :=
  f.any fun d => d.matchesRunSpan && d.threshold.lets level

def lets (f : LogFilter) (e : Event) (inRun : Bool) : Bool :=
  (inRun && f.letsWithinRun e.level) || f.letsPlain (.ofEvent e)

/-- The filter of an environment: the first variable that holds one, or else a level. -/
def ofVariables (values : String → Option String) (level : Level) : LogFilter :=
  (((values "KPIBENCH_LOG").bind ofString?).or ((values "RUST_LOG").bind ofString?)).getD (ofLevel level)

end LogFilter

/-- One line of a log. -/
structure LogLine where
  level : Level
  fields : List (String × Event.Value)
  span : Option String

/-- The lines that a journal gives under a filter. -/
def logLines (f : LogFilter) (j : Journal) : List LogLine :=
  (j.events.filter fun (e, inRun) => f.lets e inRun).map fun (e, inRun) =>
    ⟨e.level, ("event", .text e.name) :: e.fields, if inRun && f.opensRunSpan then some runSpan else none⟩

end Scorecard.CommandLine
