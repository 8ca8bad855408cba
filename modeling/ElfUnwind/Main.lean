import ElfUnwind.CommandLine.Run

/-!
# The command

Reads the arguments and the file, and writes what the run leaves. What is told on the way goes to
the standard error stream, as much of it as the verbosity asks for.
-/

namespace ElfUnwind

/-- The cause of a failure to open a file. -/
def ioCause : IO.Error → IoError
  | .noFileOrDirectory _ _ _ => .notFound
  | .inappropriateType _ _ _ => .notADirectory
  | .invalidArgument _ 36 _ => .nameTooLong
  | error => .other (toString error)

/-- The bytes of a file, or why it cannot be opened. What cannot be read shows no bytes. -/
def readImage (path : String) : IO (Except IoError (List UInt8)) := do
  match ← (IO.FS.Handle.mk path .read).toBaseIO with
  | .error error => return .error (ioCause error)
  | .ok handle =>
    match ← handle.readBinToEnd.toBaseIO with
    | .ok bytes => return .ok bytes.toList
    | .error _ => return .ok []

/-- Writes what a run leaves. -/
def writeOutcome (outcome : CommandLine.Outcome) : IO UInt32 := do
  (← IO.getStderr).putStr outcome.complaint
  (← IO.getStdout).putStr outcome.output
  return UInt32.ofNat outcome.exitCode

/-- Runs the command with its arguments. -/
def runCommand (arguments : List String) : IO UInt32 := do
  match CommandLine.Invocation.ofArguments arguments with
  | .error fault => writeOutcome (CommandLine.misuse fault)
  | .ok invocation =>
    let file ← readImage invocation.path
    let source : Task Unit (Medium Unit) :=
      match file with
      | .ok bytes => return Medium.ofBytes bytes
      | .error cause => throw (.openFailed invocation.path cause)
    let told := (invocation.run source).run ()
    for event in Event.heard invocation.level told.events do
      IO.eprintln ("[" ++ event.level.name ++ "] " ++ event.text)
    writeOutcome told.value.1

end ElfUnwind

/-- The command. -/
def main (arguments : List String) : IO UInt32 := ElfUnwind.runCommand arguments
