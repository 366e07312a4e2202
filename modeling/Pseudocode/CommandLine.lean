import Pseudocode.Directory
import Pseudocode.Session

/-!
# The command line

A program is run from a file. Flags ask for the listing of the symbols, for the
time taken and for a journal. Everything but the program's own output goes to
the second stream, in this order: the journal of the run, the listing, the time,
and the error that ended the run.
-/

set_option autoImplicit false

namespace Pseudocode

namespace CommandLine

/-! ## Arguments -/

/-- What the arguments ask for. -/
structure Options where
  file : String := "script.algo"
  verbosity : Nat := 0
  symbols : Bool := false
  time : Bool := false
deriving DecidableEq, Inhabited

/-- The options with one more flag, given by its letter. A flag other than that
of the verbosity stands at most once. -/
def Options.flag? (options : Options) : Char → Option Options
  | 'v' => some { options with verbosity := options.verbosity + 1 }
  | 's' => if options.symbols then none else some { options with symbols := true }
  | 't' => if options.time then none else some { options with time := true }
  | _ => none

/-- The letter of a flag that is written as a word. -/
def letterOf? : String → Option Char
  | "--verbose" => some 'v'
  | "--symbols" => some 's'
  | "--time" => some 't'
  | _ => none

/-- Reads arguments in order. `plain` says that no more flags are expected, and
`named` that a file has been named. -/
def Options.read? (options : Options) (plain named : Bool) : List String → Option Options
  | [] => some options
  | argument :: rest =>
    if !plain && argument == "--" then options.read? true named rest
    else if !plain && argument.startsWith "--" then do
      let options ← options.flag? (← letterOf? argument)
      options.read? plain named rest
    else if !plain && argument.startsWith "-" && argument != "-" then do
      let options ← (argument.toList.drop 1).foldlM Options.flag? options
      options.read? plain named rest
    else if named then none
    else Options.read? { options with file := argument } plain true rest

/-- The options that the arguments ask for, if they are in order. -/
def Options.ofArguments? (arguments : List String) : Option Options :=
  Options.read? {} false false arguments

/-- The journal for a verbosity. -/
def journalFor : Nat → Journal
  | 0 => .off
  | 1 => .upTo .info
  | 2 => .upTo .debug
  | _ => .upTo .trace

/-! ## Running -/

/-- What a run leaves behind: its exit status and its two streams. -/
structure Transcript where
  status : UInt8
  output : ByteArray
  messages : String

/-- A run that is over. -/
structure Finished where
  ending : Ending
  journal : Journal
  output : ByteArray
  /-- The listing of the symbols, if the run began at all. -/
  listing : Option String

/-- Runs the text of a program. -/
def execute (options : Options) (source : String) : Finished :=
  let journal := (journalFor options.verbosity).add .info .command fun _ =>
    s!"running '{options.file}' ({source.utf8ByteSize} bytes)"
  match Session.ofSource source .unbounded journal with
  | .error error => ⟨.failure (.lexical error), journal, .empty, none⟩
  | .ok session =>
    let (ending, session) := session.interpret Session.ample
    ⟨ending, session.state.journal, session.state.output.written, some session.state.table.render⟩

/-- Text as a line. -/
def asLine (text : String) : String := text ++ "\n"

/-- What a run leaves behind, given the time that it took in milliseconds. -/
def Finished.transcript (options : Options) (run : Finished) (elapsed : String) : Transcript :=
  let records := run.journal.lines.map asLine
  let listing := if options.symbols then run.listing.toList else []
  let time := if options.time then [asLine s!"Execution time: {elapsed}ms"] else []
  let closing : List String :=
    match run.ending with
    | .success => []
    | .failure error =>
      let record := ({ run.journal with records := #[] } : Journal).add .debug .command fun _ =>
        s!"run failed with code {error.code}"
      record.lines.map asLine ++ [asLine error.message]
    | .unfinished => [asLine "The run was given up."]
  { status := if run.ending = .success then 0 else 1
    output := run.output
    messages := String.join (records ++ listing ++ time ++ closing) }

/-- What is left behind when the file could not be read. -/
def unreadable (options : Options) (error : FileError) : Transcript :=
  { status := 1
    output := .empty
    messages := asLine s!"Failed to read the input file '{options.file}': {error.reason}" }

/-- Runs the file that the options name, given its content and the time that the
run took. -/
def transcript (options : Options) (content : Except FileError ByteArray) (elapsed : String) :
    Transcript :=
  match textOf content with
  | .error error => unreadable options error
  | .ok source => (execute options source).transcript options elapsed

end CommandLine

end Pseudocode
