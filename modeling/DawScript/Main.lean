import DawScript.Cli.Run

/-!
# The command

Reads the files that the arguments ask for, and prints what the run prints.
-/

namespace DawScript.Cli

/-- Why a file could not be read, as the system puts it. -/
def reasonText (e : IO.Error) : String :=
  match e with
  | .noFileOrDirectory _ code details
  | .permissionDenied (some _) code details
  | .inappropriateType (some _) code details
  | .invalidArgument (some _) code details
  | .resourceExhausted (some _) code details => details ++ " (os error " ++ toString code ++ ")"
  | .permissionDenied none code details
  | .inappropriateType none code details
  | .invalidArgument none code details
  | .resourceExhausted none code details
  | .resourceVanished code details
  | .otherError code details => details ++ " (os error " ++ toString code ++ ")"
  | other => toString other

/-- The text that bytes encode. -/
def decode (bytes : ByteArray) : Except String String :=
  match String.fromUTF8? bytes with
  | some text => .ok text
  | none => .error "stream did not contain valid UTF-8"

/-- The text that an action reads, or why it could not be read. -/
def readText (bytes : IO ByteArray) : IO (Except String String) := do
  try return decode (← bytes)
  catch e => return .error (reasonText e)

/-- The text of a file, or why it could not be read. -/
def readFile (path : String) : IO (Except String String) := readText (IO.FS.readBinFile path)

/-- The text of standard input, or why it could not be read. -/
def readInput : IO (Except String String) := readText do (← IO.getStdin).readBinToEnd

/-- The user's home directory, if it is known. -/
def homeDirectory : IO (Option String) := do
  return (← IO.getEnv "HOME").filter (!·.isEmpty)

/-- The files of the system. -/
def systemFiles : Files IO where
  input := readInput
  file := readFile
  home := homeDirectory

end DawScript.Cli

/-- Runs the command. -/
def main (arguments : List String) : IO UInt32 := do
  let outcome ← DawScript.Cli.invoke DawScript.Cli.systemFiles.sources arguments
  IO.print outcome.output
  IO.eprint outcome.errors
  return outcome.exit.toUInt32
