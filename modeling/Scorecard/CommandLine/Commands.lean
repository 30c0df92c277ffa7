import Scorecard.CommandLine.Arguments
import Scorecard.CommandLine.Compiled
import Scorecard.CommandLine.ErrorReport
import Scorecard.CommandLine.LogFilter
import Scorecard.CommandLine.Script
import Scorecard.Execution.Basic
import Scorecard.Expression.Help
import Scorecard.Expression.Record
import Scorecard.Formula.Evaluate
import Scorecard.Json.Parser
import Scorecard.Report.Markdown
import Scorecard.Text.Quoted

/-!
The commands. A command is a script that gives what is to be printed, an error if there is one, and
what is to be logged. Whatever the command does, the counters are told at its end, unless it breaks off.
-/
namespace Scorecard.CommandLine

/-- What a command is run in. -/
structure Environment where
  values : String → Option String
  supply : Supply

/-- How a command ends. -/
inductive Completion where
  | finished
  | failed (error : ErrorReport)
  | brokenOff

/-- What a command has done. -/
structure Performed where
  output : String
  completion : Completion
  journal : Journal

namespace Performed

def printed (output : String) (journal : Journal) : Performed := ⟨output, .finished, journal⟩

def refused (error : ErrorReport) (journal : Journal) : Performed := ⟨"", .failed error, journal⟩

end Performed

/-- A script that may stop with an error. -/
abbrev Attempt (α : Type) := ExceptT ErrorReport Script α

def attemptRead (what path : String) : Attempt String := do
  match ← (Script.readFile path : Script _) with
  | .ok text => return text
  | .error e =>
    let path := Text.quoted path
    throw ⟨s!"{what}: {path}", some e.message⟩

/-- Reads a file that holds a document of a known form. -/
def readDocument {α : Type} (path : String) (read : Json.Document → Option α) : Attempt α := do
  let text ← attemptRead "Failed to read JSON file" path
  match (Json.parse? text).bind read with
  | some a => return a
  | none =>
    let path := Text.quoted path
    throw (.plain s!"Invalid JSON in {path}")

/-- The settings of a configuration file, or else of the environment, with the metrics that are
registered on the command line. -/
def loadSettings (env : Environment) (options : Options) : Attempt Settings := do
  let settings ←
    match options.config with
    | some path => do
      let text ← attemptRead "Failed to read config file" path
      match (Json.parse? text).bind Settings.ofDocument? with
      | some settings => pure settings
      | none =>
        let path := Text.quoted path
        throw (.plain s!"Invalid config in {path}")
    | none =>
      match Settings.ofVariables env.values with
      | .ok settings => pure settings
      | .error e => throw ⟨"Invalid KPIBENCH_* environment", some e.message⟩
  let registered := (options.register.map Settings.splitList).getD []
  return { settings with customMetrics := settings.customMetrics ++ registered }

/-! ### Expressions -/

def showCompilation (format : Format) (c : Compilation) : String :=
  match format with
  | .text => c.text
  | .json => c.toJson.indented

def performParse (format : Format) (c : Compilation) (journal : Journal) : Performed :=
  ⟨showCompilation format c, if c.formula?.isSome then .finished else .failed (.plain "formula is invalid"), journal⟩

/-- Reads one metric value, a name and a number with an equals sign between them. -/
def readPair (pair : String) : Except ErrorReport (String × Float) :=
  match splitEquals pair.toList with
  | (_, none) => .error (.plain s!"expected NAME=VALUE, got '{pair}'")
  | (name, some raw) =>
    match Decimal.readChars (Text.trimChars raw) with
    | .ok x => .ok (String.ofList (Text.trimChars name), x)
    | .error e =>
      let name := String.ofList name
      let raw := String.ofList raw
      .error ⟨s!"invalid value for metric '{name}': '{raw}'", some e.message⟩

def showScore (format : Format) (f : Formula) (score : Float) : String :=
  match format with
  | .text =>
    let formula := f.text
    let score := Decimal.plain.write score
    s!"{formula} = {score}\n"
  | .json => (Json.object [("formula", .string f.text), ("score", .ofFloat score)]).indented ++ "\n"

/-- Evaluates a formula on metric values given as pairs, of which the last of a name counts. -/
def scorePairs (f : Formula) (pairs : List String) : Except ErrorReport Float := do
  let values ← pairs.mapM readPair
  match f.evaluate (Table.ofList values) with
  | .ok score => return score
  | .error e =>
    let formula := f.text
    throw ⟨s!"Failed to evaluate {formula}", some e.message⟩

def performEval (known : Metric.Registry) (format : Format) (expression : String) (pairs : List String) :
    Performed :=
  let outcome := Expression.compile known expression
  let journal := Expression.journal expression outcome
  match outcome with
  | .error faults => .refused (.plain (Kpi.SpecificationError.faulty faults).message) journal
  | .ok compiled =>
    match scorePairs compiled.formula pairs with
    | .ok score => .printed (showScore format compiled.formula score) journal
    | .error e => .refused e journal

def performMetrics (known : Metric.Registry) (format : Format) : Performed :=
  match format with
  | .text => .printed (String.join (known.toList.map (· ++ "\n"))) []
  | .json => .printed ((Json.ofList .string known.toList).indented ++ "\n") []

/-! ### Runs -/

/-- The ids and times of one execution, all taken from the supply. -/
def stampsOf (supply : Supply) : Execution.Stamps :=
  { startedAt := supply.now
    entryId := fun index => supply.id [4, index]
    recordedAt := fun _ => supply.now
    alertsAt := supply.now
    finishedAt := supply.now }

def readAlerts (supply : Supply) : Option String → Attempt (List Alert)
  | none => pure []
  | some path => readDocument path (supply.list? Alert.ofDocument?)

/-- Executes a manual run of the benchmark in a file on the traces in a file. -/
def executeFiles (env : Environment) (executor : Execution.Executor) (files : RunFiles) :
    Attempt (EStateM.Result Execution.Interruption Execution.Workspace Report) := do
  let benchmark ← readDocument files.benchmark (Benchmark.ofDocument? (env.supply.item 1))
  let traces ← readDocument files.results ((env.supply.item 2).list? Trace.ofDocument?)
  let alerts ← readAlerts (env.supply.item 3) files.alerts
  let run := (Run.new (env.supply.id [0]) benchmark.id files.agent .manual).withUser "cli"
  return (executor.execute (stampsOf env.supply) (.ok traces) benchmark).run ⟨run, alerts, []⟩

def showSummary (format : Format) (s : Report.Summary) : String :=
  match format with
  | .text => s.markdown
  | .json => s.fileText ++ "\n"

/-- A failed run leaves an error. -/
def runCompletion (s : Report.Summary) : Completion :=
  if s.status = .failed then
    let run := s.runId.text
    let error := s.error.getD "unknown error"
    .failed (.plain s!"run {run} failed: {error}")
  else .finished

def writeSummary (path : Option String) (s : Report.Summary) : Script (Option ErrorReport) :=
  match path with
  | none => return none
  | some path => do
    match ← Script.writeFile path s.fileText with
    | .ok () => return none
    | .error e =>
      let path := Text.quoted path
      return some ⟨s!"write {path}", some e.message⟩

def performRun (env : Environment) (executor : Execution.Executor) (format : Format) (files : RunFiles) :
    Script Performed := do
  match ← (executeFiles env executor files).run with
  | .error e => return .refused e []
  | .ok (.error .brokenOff w) => return ⟨"", .brokenOff, w.journal⟩
  | .ok (.error (.refused refusal) w) =>
    return .refused ⟨"Failed to execute benchmark run", some (Execution.Failure.lifecycle refusal).message⟩ w.journal
  | .ok (.ok report w) =>
    let summary := Report.Summary.ofReport env.supply.now report
    match ← writeSummary files.summary summary with
    | some e => return .refused e w.journal
    | none => return ⟨showSummary format summary, runCompletion summary, w.journal⟩

/-! ### All commands -/

def perform (env : Environment) (settings : Settings) (format : Format) : Command → Script Performed
  | .parse expression =>
    let outcome := Expression.compile settings.registry expression
    return performParse format ⟨expression, outcome⟩ (Expression.journal expression outcome)
  | .validate expression available =>
    let outcome := Expression.compile settings.registry expression
    let checked :=
      match available with
      | some names => Expression.checkAvailable (Settings.splitList names) outcome
      | none => outcome
    return performParse format ⟨expression, checked⟩ (Expression.journal expression outcome)
  | .eval expression pairs => return performEval settings.registry format expression pairs
  | .metrics => return performMetrics settings.registry format
  | .syntaxHelp => return .printed (Expression.help settings.registry ++ "\n") []
  | .run files => performRun env ⟨settings, settings.registry⟩ format files

/-- The journal with the counters told at the end, which a command that breaks off does not come to. -/
def Performed.withCounters (p : Performed) : Performed :=
  match p.completion with
  | .finished | .failed _ =>
    { p with journal := p.journal ++ [Journal.tell (.countersFlushed (p.journal.record .zero))] }
  | .brokenOff => p

/-- Everything that a program leaves behind when it ends. -/
structure Ending where
  exitCode : Nat
  output : String
  errorText : String
  /-- Whether log lines are written as JSON. -/
  jsonLogs : Bool
  logs : List LogLine

/-- How the program ends when there is no command to run. -/
def Stop.ending : Stop → Ending
  | .version => ⟨0, "kpibench 0.3.1\n", "", false, []⟩
  | .help => ⟨0, usage, "", false, []⟩
  | .misuse => ⟨2, "", usage, false, []⟩
where
  usage := "Usage: kpibench [OPTIONS] parse|validate|eval|metrics|syntax|run\n"

def Completion.exitCode : Completion → Nat
  | .finished => 0
  | .failed _ => 1
  | .brokenOff => 101

def Completion.errorText : Completion → String
  | .finished => ""
  | .failed error => error.text
  | .brokenOff => "`DateTime + TimeDelta` overflowed\n"

def Performed.ending (p : Performed) (filter : LogFilter) (jsonLogs : Bool) : Ending :=
  { exitCode := p.completion.exitCode
    output := p.output
    errorText := p.completion.errorText
    jsonLogs
    logs := logLines filter p.journal }

def runCommand (env : Environment) (options : Options) (command : Command) : Script Ending := do
  let filter := LogFilter.ofVariables env.values (if options.verbose then .debug else .info)
  match ← (loadSettings env options).run with
  | .error e => return (Performed.refused e []).ending filter options.jsonLogs
  | .ok settings =>
    let performed ← perform env settings options.format command
    return performed.withCounters.ending filter options.jsonLogs

/-- The whole program. -/
def program (env : Environment) (arguments : List String) : Script Ending :=
  match readArguments (env.values "KPIBENCH_CONFIG") arguments with
  | .error stop => return stop.ending
  | .ok (options, command) => runCommand env options command

end Scorecard.CommandLine
