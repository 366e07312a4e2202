import Pseudocode.CommandLine

/-!
# The program

Reads the arguments and the file, runs the program in it and writes the two
streams.
-/

set_option autoImplicit false

namespace Pseudocode.CommandLine

/-- The content of the file with the given name. -/
def readContent (name : String) : IO (Except FileError ByteArray) := do
  try
    return .ok (← IO.FS.readBinFile name)
  catch error =>
    match error with
    | .noFileOrDirectory .. => return .error .missing
    | .permissionDenied .. => return .error .denied
    | .inappropriateType _ code _ =>
      return .error (if code == 21 || code == 0 - 21 then .isDirectory else .notDirectory)
    | error => return .error (.other (toString error))

/-- Runs the file that the options name. -/
def runFile (options : Options) : IO Transcript := do
  match textOf (← readContent options.file) with
  | .error error => return unreadable options error
  | .ok source =>
    let start ← IO.monoMsNow
    let finished ← IO.lazyPure fun _ => execute options source
    let stop ← IO.monoMsNow
    return finished.transcript options (toString (stop - start))

end Pseudocode.CommandLine

open Pseudocode CommandLine in
/-- Runs a program from the command line. -/
def main (arguments : List String) : IO UInt32 := do
  match Options.ofArguments? arguments with
  | none =>
    IO.eprintln "Usage: algo [-s] [-t] [-v] [FILE]"
    return 2
  | some options =>
    let transcript ← runFile options
    let stream ← IO.getStdout
    stream.write transcript.output
    stream.flush
    IO.eprint transcript.messages
    return transcript.status.toUInt32
