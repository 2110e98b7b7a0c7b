import VectorStream.CommandLine.Run

/-!
# The program

The outer layer of the command line: it looks at the files that the arguments name, runs the program
on what it found, and writes what the run leaves behind.
-/
namespace VectorStream.CommandLine

/-- The faults of the file system that a run can tell apart by their number. -/
def FileFault.ofNumber (number : UInt32) (text : String) : FileFault :=
  let number := number.toInt32.toInt.natAbs
  match [notFound, notADirectory, isADirectory, nameTooLong].find? (·.number = number) with
  | some fault => fault
  | none => ⟨number, if number = 13 then "PermissionDenied" else "Other", text⟩

def FileFault.ofError : IO.Error → FileFault
  | .noFileOrDirectory _ number text | .permissionDenied _ number text
  | .inappropriateType _ number text | .illegalOperation number text
  | .invalidArgument _ number text | .resourceBusy number text
  | .unsupportedOperation number text | .otherError number text => ofNumber number text
  | e => ⟨0, "Other", toString e⟩

/-- Looks at a file. The result is `none` if its name leads nowhere. -/
def probe (name : String) : IO (Option Entry) := do
  try
    let bytes ← IO.FS.readBinFile name
    return some (.file bytes.toList)
  catch e =>
    let fault := FileFault.ofError e
    return if [.notFound, .notADirectory, .nameTooLong].contains fault then none
      else some (if fault = .isADirectory then .directory else .unreadable fault)

/-- Creates the file for the output. -/
def createOutput (name : String) : IO (Option FileFault) := do
  try
    IO.FS.writeFile name ""
    return none
  catch e => return some (.ofError e)

/-- The directory as a run with the given options sees it. -/
def observe (o : Options) : IO Directory := do
  let fault ← match o.output with
    | some name => createOutput name
    | none => pure none
  let found ← (o.files ++ o.output.toList).filterMapM fun name => do
    return (← probe name).map fun entry => (name, entry)
  let refused := o.output.bind fun name => fault.map fun fault => (name, fault)
  return { Directory.ofEntries found with refused := .ofList refused.toList }

end VectorStream.CommandLine

open VectorStream.CommandLine

def main (arguments : List String) : IO UInt32 := do
  let options ← match Request.ofArguments arguments with
    | .ok (.dump o) => pure (some o)
    | _ => pure none
  let directory ← match options with
    | some o => observe o
    | none => pure { }
  let outcome := run directory arguments
  (← IO.getStdout).putStr outcome.output
  (← IO.getStderr).putStr outcome.errorText
  if let some (_, text) := outcome.written then
    if let some name := options.bind (·.output) then
      IO.FS.writeFile name text
  return outcome.code
