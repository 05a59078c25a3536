import RecordExport.CommandLine.Run
/-!
# The command line

Renders records, checks templates and lists placeholders. The files a command names are read first;
what is made of them is `runCommandLine`.
-/

namespace RecordExport

/-- The system's number of an error, which some calls give negated. -/
def errorNumber (code : UInt32) : UInt32 := if code.toNat < Nat.pow 2 31 then code else -code

/-- Why the system could not read a file, told by the number where one kind of error has several. -/
def FileFault.ofError : IO.Error → FileFault
  | .noFileOrDirectory .. => .missing
  | e@(.inappropriateType _ code _) =>
    if errorNumber code = 20 then .notDirectory
    else if errorNumber code = 21 then .isDirectory
    else .other (toString e)
  | e@(.invalidArgument _ code _) =>
    if errorNumber code = 36 then .nameTooLong else .other (toString e)
  | e => .other (toString e)

/-- Read a file. -/
def readPath (path : String) : IO (Except FileFault Text) := do
  try
    let bytes ← IO.FS.readBinFile path
    match String.fromUTF8? bytes with
    | some s => pure (.ok s.toList)
    | none => pure (.error .notText)
  catch e => pure (.error (.ofError e))

/-- Read files, each with its path. -/
def readPaths (paths : List String) : IO (List (String × Except FileFault Text)) :=
  paths.mapM fun p => do pure (p, ← readPath p)

end RecordExport

open RecordExport in
/-- Run the command line. -/
def main (words : List String) : IO UInt32 := do
  let files ← readPaths (mentionedPaths words)
  let outcome := runCommandLine words fun path => (files.lookup path).getD (.error .missing)
  (← IO.getStdout).putStr (String.ofList outcome.stdout)
  (← IO.getStderr).putStr (String.ofList outcome.stderr)
  pure (UInt32.ofNat outcome.exit)
