import Scorecard.CommandLine.Commands
import Scorecard.CommandLine.LogText
import Std.Time.DateTime.Timestamp

/-!
The program `kpibench`: the command line run on the files, the variables, the clock and the
randomness of the machine. Everything that is decided is decided by the script; here it is carried
out.
-/
namespace Scorecard.CommandLine

def fileError : IO.Error → FileError
  | .noFileOrDirectory .. => .notFound
  | .permissionDenied .. => .permissionDenied
  | .inappropriateType _ 20 _ => .notDirectory
  | .inappropriateType _ 21 _ => .isDirectory
  | e => .other (toString e)

/-- Carries out a script on the files of the machine. -/
def Script.carryOut {α : Type} : Script α → IO α
  | .done a => return a
  | .read path next => do
    let answer ← (IO.FS.readFile path).toBaseIO
    (next (answer.mapError fileError)).carryOut
  | .write path text next => do
    let answer ← (IO.FS.writeFile path text).toBaseIO
    (next (answer.mapError fileError)).carryOut

/-- The variables that the program looks at. -/
def variableNames : List String :=
  ["KPIBENCH_CONFIG", "KPIBENCH_MAX_RETRIES", "KPIBENCH_MAX_CONSECUTIVE_FAILURES", "KPIBENCH_AUTO_DISABLE",
    "KPIBENCH_CUSTOM_METRICS", "KPIBENCH_FAIL_ON_KPI_ERROR", "KPIBENCH_LOG", "RUST_LOG"]

def readVariables : List String → IO (List (String × String))
  | [] => return []
  | name :: names => do
    let value ← IO.getEnv name
    let others ← readVariables names
    return (value.map fun text => (name, text)).toList ++ others

/-- The present time. -/
def readClock : IO Timestamp := do
  let now ← Std.Time.Timestamp.now
  let nanos := now.toNanosecondsSinceUnixEpoch.val
  match Timestamp.ofParts? (nanos / 1000000000) (nanos % 1000000000).toNat with
  | some t => return t
  | none => throw (IO.userError "the clock is out of range")

/-- Random digits from which the ids of a command are made. -/
def readSeed : IO String := do
  let bytes ← IO.getRandomBytes 16
  return " ".intercalate (bytes.toList.map fun b => toString b.toNat)

end Scorecard.CommandLine

open Scorecard.CommandLine in
def main (arguments : List String) : IO UInt32 := do
  let values ← readVariables variableNames
  let now ← readClock
  let seed ← readSeed
  let env : Environment := ⟨fun name => values.lookup name, .ofSeed now seed⟩
  let ending ← (program env arguments).carryOut
  let out ← IO.getStdout
  let err ← IO.getStderr
  out.putStr ending.output
  out.flush
  for line in ending.logs do
    err.putStr (line.text ending.jsonLogs now)
  err.putStr ending.errorText
  return .ofNat ending.exitCode
