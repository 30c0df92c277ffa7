/-!
Scripts, programs that use files. A script is a tree of the files that it asks for and writes, each
step depending on the answers to those before, with a result at the end. What runs a script decides
where files come from; a script itself is data.
-/
namespace Scorecard.CommandLine

/-- Why a file cannot be read or written. -/
inductive FileError where
  | notFound
  | isDirectory
  | notDirectory
  | permissionDenied
  | other (message : String)
deriving DecidableEq

def FileError.message : FileError → String
  | .notFound => "No such file or directory (os error 2)"
  | .isDirectory => "Is a directory (os error 21)"
  | .notDirectory => "Not a directory (os error 20)"
  | .permissionDenied => "Permission denied (os error 13)"
  | .other message => message

inductive Script (α : Type) where
  | done (a : α)
  | read (path : String) (next : Except FileError String → Script α)
  | write (path text : String) (next : Except FileError Unit → Script α)

namespace Script

variable {α β : Type}

def bind (s : Script α) (f : α → Script β) : Script β :=
  match s with
  | .done a => f a
  | .read path next => .read path fun answer => (next answer).bind f
  | .write path text next => .write path text fun answer => (next answer).bind f

instance : Monad Script where
  pure := .done
  bind := bind

def readFile (path : String) : Script (Except FileError String) := .read path .done

def writeFile (path text : String) : Script (Except FileError Unit) := .write path text .done

end Script

end Scorecard.CommandLine
