import SchemaSnippets.CommandLine.Run

/-!
# The program

The command line on the files of the machine. All that it decides is in `CommandLine.run`.
-/

namespace SchemaSnippets
open Files

/-- Whether an action ends without an error. -/
def succeeds {α : Type} (action : IO α) : IO Bool := do
  match ← action.toBaseIO with
  | .ok _ => return true
  | .error _ => return false

/-- Writes a file whose directories are made as needed. -/
def writeFile (path content : String) : IO (Except SaveError Unit) := do
  let directory := (parent? path).getD ""
  if directory != "" && !(← succeeds (IO.FS.createDirAll directory)) then
    return .error (.directory directory)
  else if ← succeeds (IO.FS.writeFile path content) then return .ok ()
  else return .error (.file path)

/-- Only a file can be read to its end, and a directory can be opened too. -/
instance : FileAccess IO where
  readText? path := do
    match ← (IO.FS.readFile path).toBaseIO with
    | .ok s => return some s
    | .error _ => return none
  isFile path := succeeds (IO.FS.readBinFile path)
  save keep path content := do
    if keep && (← succeeds (IO.FS.Handle.mk path .read)) then return .ok false
    match ← writeFile path content with
    | .ok () => return .ok true
    | .error e => return .error e

/-- The rest of a stream behind what was read of it. -/
partial def readRest (s : IO.FS.Stream) (before : String) : IO String := do
  let line ← s.getLine
  if line.isEmpty then return before else readRest s (before ++ line)

/-- The text on standard input, if it is one. -/
def readStdin : IO (Option String) := do
  match ← (do readRest (← IO.getStdin) "" : IO String).toBaseIO with
  | .ok s => return some s
  | .error _ => return none

end SchemaSnippets

def main (args : List String) : IO UInt32 := do
  let outcome ← SchemaSnippets.CommandLine.run SchemaSnippets.readStdin args
  IO.print outcome.stdout
  IO.eprint outcome.stderr
  return outcome.exitCode.toUInt32
