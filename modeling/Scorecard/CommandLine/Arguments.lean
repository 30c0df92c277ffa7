/-!
Reading the words of a command line. Options may stand before and behind the name of the command,
and those behind it prevail. The words are taken from left to right, so what comes first decides: a
call for the version or for help is answered at once unless something before it is wrong.
-/
namespace Scorecard.CommandLine

inductive Format where
  | text
  | json
deriving DecidableEq

def Format.ofWord? : String → Option Format
  | "text" => some .text
  | "json" => some .json
  | _ => none

inductive Verb where
  | parse
  | validate
  | eval
  | metrics
  | help
  | syntaxHelp
  | run
deriving DecidableEq

def Verb.ofWord? : String → Option Verb
  | "parse" => some .parse
  | "validate" => some .validate
  | "eval" => some .eval
  | "metrics" => some .metrics
  | "syntax" => some .syntaxHelp
  | "run" => some .run
  | "help" => some .help
  | _ => none

/-- The options of all commands. -/
inductive Flag where
  | verbose
  | json
  | format
  | config
  | register
  | available
  | metric
  | benchmark
  | results
  | alerts
  | agent
  | summary
  | help
  | version
deriving DecidableEq

namespace Flag

def long : Flag → String
  | .verbose => "verbose"
  | .json => "json"
  | .format => "format"
  | .config => "config"
  | .register => "register"
  | .available => "available"
  | .metric => "metric"
  | .benchmark => "benchmark"
  | .results => "results"
  | .alerts => "alerts"
  | .agent => "agent"
  | .summary => "summary"
  | .help => "help"
  | .version => "version"

def short? : Flag → Option Char
  | .verbose => some 'v'
  | .metric => some 'm'
  | .help => some 'h'
  | .version => some 'V'
  | _ => none

def takesValue : Flag → Bool
  | .verbose | .json | .help | .version => false
  | _ => true

/-- Whether the flag may be given several times. -/
def repeats (f : Flag) : Bool := f = .metric

/-- Whether a text can be the value of the flag: formats are named, and paths are not empty. -/
def accepts (f : Flag) (value : String) : Bool :=
  match f with
  | .format => (Format.ofWord? value).isSome
  | .config | .benchmark | .results | .alerts | .summary => value ≠ ""
  | _ => true

end Flag

/-- Why the reading stops without a command. -/
inductive Stop where
  | version
  | help
  | misuse
deriving DecidableEq

/-- Flags that may stand anywhere. -/
def sharedFlags : List Flag := [.verbose, .json, .format, .config, .register, .help]

/-- The flags that may stand behind a command, or in front of all commands. -/
def flagsOf : Option Verb → List Flag
  | none => .version :: sharedFlags
  | some .validate => .available :: sharedFlags
  | some .eval => .metric :: sharedFlags
  | some .run => [.benchmark, .results, .alerts, .agent, .summary] ++ sharedFlags
  | some _ => sharedFlags

/-- The flags that were given at one level, each with its value, in reverse order. A flag without a
value has the empty one. -/
abbrev Given := List (Flag × String)

/-- Notes a flag. -/
def note (given : Given) (f : Flag) (value : String) : Except Stop Given :=
  match f with
  | .version => .error .version
  | .help => .error .help
  | f =>
    if !f.accepts value || (!f.repeats && given.any (·.1 == f)) then .error .misuse
    else .ok ((f, value) :: given)

/-- What a word of the command line amounts to: flags, of which the last may want the next word. -/
structure Noted where
  given : Given
  pending : Option Flag

/-- The name and the value of a flag written in full. -/
def splitEquals : List Char → List Char × Option (List Char)
  | [] => ([], none)
  | c :: cs =>
    if c = '=' then ([], some cs)
    else
      let (name, value) := splitEquals cs
      (c :: name, value)

/-- Reads a flag written in full, behind its two dashes. -/
def noteLong (flags : List Flag) (given : Given) (word : List Char) : Except Stop Noted :=
  let (name, value) := splitEquals word
  match flags.find? fun f => f.long.toList == name, value with
  | none, _ => .error .misuse
  | some f, some value =>
    if f.takesValue then (note given f (String.ofList value)).map (⟨·, none⟩) else .error .misuse
  | some f, none => if f.takesValue then .ok ⟨given, some f⟩ else (note given f "").map (⟨·, none⟩)

/-- Reads flags of one letter each, behind one dash; the value of a flag is what follows it. -/
def noteShort (flags : List Flag) (given : Given) : List Char → Except Stop Noted
  | [] => .ok ⟨given, none⟩
  | c :: cs =>
    match flags.find? fun f => f.short? == some c with
    | none => .error .misuse
    | some f =>
      if f.takesValue then
        match cs with
        | [] => .ok ⟨given, some f⟩
        | '=' :: value => (note given f (String.ofList value)).map (⟨·, none⟩)
        | value => (note given f (String.ofList value)).map (⟨·, none⟩)
      else do
        let given ← note given f ""
        noteShort flags given cs

/-- Whether a word cannot be the value of the flag before it. -/
def isDashed (word : String) : Bool :=
  match word.toList with
  | '-' :: _ :: _ => true
  | _ => false

/-- The flags and the plain words that stand behind a command. -/
structure SplitWords where
  given : Given
  words : List String

/-- Reads the words behind a command. Behind a word of two dashes all words are plain. -/
def splitWords (flags : List Flag) (given : Given) (pending : Option Flag) :
    List String → Except Stop SplitWords
  | [] => if pending.isSome then .error .misuse else .ok ⟨given, []⟩
  | word :: rest =>
    match pending with
    | some f =>
      if isDashed word then .error .misuse
      else do
        let given ← note given f word
        splitWords flags given none rest
    | none =>
      match word.toList with
      | ['-', '-'] => .ok ⟨given, rest⟩
      | '-' :: '-' :: body => do
        let noted ← noteLong flags given body
        splitWords flags noted.given noted.pending rest
      | '-' :: c :: body => do
        let noted ← noteShort flags given (c :: body)
        splitWords flags noted.given noted.pending rest
      | _ => do
        let split ← splitWords flags given none rest
        return { split with words := word :: split.words }

/-- Reads the words in front of a command, and gives the command and the words behind it. -/
def readFront (given : Given) (pending : Option Flag) : List String → Except Stop (Given × Verb × List String)
  | [] => .error .misuse
  | word :: rest =>
    match pending with
    | some f =>
      if isDashed word then .error .misuse
      else do
        let given ← note given f word
        readFront given none rest
    | none =>
      match word.toList with
      | ['-', '-'] => .error .misuse
      | '-' :: '-' :: body => do
        let noted ← noteLong (flagsOf none) given body
        readFront noted.given noted.pending rest
      | '-' :: c :: body => do
        let noted ← noteShort (flagsOf none) given (c :: body)
        readFront noted.given noted.pending rest
      | _ =>
        match Verb.ofWord? word with
        | some verb => .ok (given, verb, rest)
        | none => .error .misuse

/-- What is asked for apart from the command itself. -/
structure Options where
  verbose : Bool
  jsonLogs : Bool
  format : Format
  config : Option String
  register : Option String
deriving DecidableEq

structure RunFiles where
  benchmark : String
  results : String
  alerts : Option String
  agent : String
  summary : Option String
deriving DecidableEq

inductive Command where
  | parse (expression : String)
  | validate (expression : String) (available : Option String)
  | eval (expression : String) (pairs : List String)
  | metrics
  | syntaxHelp
  | run (files : RunFiles)
deriving DecidableEq

namespace Given

def value? (given : Given) (f : Flag) : Option String := List.lookup f given

def has (given : Given) (f : Flag) : Bool := (value? given f).isSome

/-- The values of a flag in the order in which they were given. -/
def values (given : Given) (f : Flag) : List String :=
  (given.reverse.filter (·.1 == f)).map (·.2)

end Given

/-- The options of the two levels. A configuration that is not given comes from the environment,
where it must not be empty unless both levels give one. -/
def readOptions (configVariable : Option String) (front behind : Given) : Except Stop Options :=
  let shared (f : Flag) : Option String := (behind.value? f).or (front.value? f)
  if configVariable = some "" ∧ ¬(front.has .config ∧ behind.has .config) then .error .misuse
  else
    .ok {
      verbose := (shared .verbose).isSome
      jsonLogs := (shared .json).isSome
      format := ((shared .format).bind Format.ofWord?).getD .text
      config := (shared .config).or configVariable
      register := shared .register }

def readCommand (verb : Verb) (split : SplitWords) : Except Stop Command :=
  match verb, split.words with
  | .parse, [expression] => .ok (.parse expression)
  | .validate, [expression] => .ok (.validate expression (split.given.value? .available))
  | .eval, [expression] => .ok (.eval expression (split.given.values .metric))
  | .metrics, [] => .ok .metrics
  | .syntaxHelp, [] => .ok .syntaxHelp
  | .run, [] =>
    match split.given.value? .benchmark, split.given.value? .results with
    | some benchmark, some results =>
      .ok (.run {
        benchmark, results
        alerts := split.given.value? .alerts
        agent := (split.given.value? .agent).getD "default"
        summary := split.given.value? .summary })
    | _, _ => .error .misuse
  | _, _ => .error .misuse

/-- Answers a call for help, which may name a command. -/
def readHelp : List String → Stop
  | [] => .help
  | [word] => if (Verb.ofWord? word).isSome then .help else .misuse
  | _ => .misuse

/-- Reads a command line. -/
def readArguments (configVariable : Option String) (arguments : List String) :
    Except Stop (Options × Command) := do
  let (front, verb, rest) ← readFront [] none arguments
  if verb = .help then .error (readHelp rest)
  else
    let split ← splitWords (flagsOf (some verb)) [] none rest
    let command ← readCommand verb split
    let options ← readOptions configVariable front split.given
    return (options, command)

end Scorecard.CommandLine
