import MemoryTrace.CommandLine.FileTree
import MemoryTrace.CommandLine.Log
import MemoryTrace.CommandLine.Report
import MemoryTrace.Demo
import MemoryTrace.Viewer.Frame

namespace MemoryTrace.CommandLine

/-- What a command line asks to be run. -/
inductive Input
  | file (path : String)
  | demo (number : Nat)
  | list
  deriving DecidableEq, Repr

/-- What the arguments ask for. Without an input nothing can be run. -/
structure Options where
  input : Option Input := none
  batch : Bool := false
  verbose : Bool := false
  deriving DecidableEq, Repr

/-- Why a command line is refused. Asking for help counts, because it too ends with the usage. -/
inductive UsageError
  | help
  | demoNumber
  | unknownOption (option : String)
  | noInput
  deriving DecidableEq, Repr

/-- Reads the arguments from left to right. The last input given wins. -/
def readArguments (options : Options) : List String → Except UsageError Options
  | [] => .ok options
  | "--batch" :: rest => readArguments { options with batch := true } rest
  | "--verbose" :: rest => readArguments { options with verbose := true } rest
  | "-v" :: rest => readArguments { options with verbose := true } rest
  | "--list" :: rest => readArguments { options with input := some .list } rest
  | ["--demo"] => .error .demoNumber
  | "--demo" :: number :: rest =>
    match Text.word? number.toList with
    | some n => readArguments { options with input := some (.demo n) } rest
    | none => .error .demoNumber
  | "-h" :: _ => .error .help
  | "--help" :: _ => .error .help
  | argument :: rest =>
    if argument.toList.head? = some '-' then .error (.unknownOption argument)
    else readArguments { options with input := some (.file argument) } rest

/-- How the program is called. -/
def usage (program : String) : List String :=
  [s!"Usage: {program} [--batch] [--verbose] <script.cpp>",
   s!"       {program} [--batch] [--verbose] --demo <n>",
   s!"       {program} --list",
   "",
   "Examples:",
   s!"  {program} --list             # Show the built-in demos",
   s!"  {program} --demo 4           # Step through shared_ptr reference counting",
   s!"  {program} --batch leak.cpp   # Print a text report instead of the viewer"]

/-- The lines in front of the usage. -/
def UsageError.lines : UsageError → List String
  | help => []
  | demoNumber => [s!"Error: --demo needs a number between 1 and {Demo.all.length}"]
  | unknownOption option => [s!"Error: unknown option '{option}'"]
  | noInput => ["Error: No input script provided", ""]

/-- What a run prints, and the status it exits with. -/
structure Output where
  status : Nat := 0
  standard : String := ""
  error : String := ""
  deriving DecidableEq, Repr

/-- Lines as they are printed, each with its end. -/
def printed (lines : List String) : String := String.join (lines.map (· ++ "\n"))

/-- What a run prints that is given up. -/
def Output.failure (lines : List String) : Output := { status := 1, error := printed lines }

/-- The titles of the demos with their numbers. -/
def demoList : List String :=
  "Built-in demos:" :: (Demo.all.zipIdx 1).map fun demo => s!"  {demo.2}. {demo.1.title}"

/-- The log as it goes to the error output: the warnings in it, or all of it. -/
def logText (verbose : Bool) (source : Text) : String :=
  String.join (((LogRecord.ofScript source).filter fun r => verbose || r.isWarning).map (·.text))

/-- Runs a script and reports on the memory it leaves, also after an error. The log goes to the error output
in front of that. A crash ends the program before any report. -/
def runBatch (verbose : Bool) (source : Text) : Output :=
  let log := logText verbose source
  match Action.execute source {} with
  | .ok _ s => { standard := printed s.memory.report, error := log }
  | .error (.script e) s =>
    { status := 1, standard := printed s.memory.report, error := log ++ printed ["", s!"Error: {e.message}"] }
  | .error (.crash _) _ => { status := 101, error := log }

/-- What a command line comes to: some output, or a recorded run to be stepped through. -/
inductive Outcome
  | output (output : Output)
  | view (viewer : Viewer)

/-- What a recording for the viewer may take. -/
def snapshotLimit : Nat := 256 * 1024 * 1024

/-- What the viewer says on the last step. -/
def outcomeMessage (recording : Recording) : String :=
  match recording.error, recording.session.memory.stats.leakedBlocks with
  | some e, _ => e.message
  | none, leaked =>
    if recording.truncated then "Recording truncated at snapshot limit"
    else if leaked = 0 then "Program finished: no leaks"
    else s!"Program finished: {leaked} block(s) leaked"

/-- Records a run for the viewer. A crash gives nothing to show, and neither does a recording without a snapshot. -/
def runViewer (source : Text) : Outcome :=
  match Session.record {} source snapshotLimit with
  | .error _ => .output { status := 101 }
  | .ok recording =>
    let message := outcomeMessage recording
    if recording.history.snapshots.isEmpty then .output { error := printed [s!"Nothing to show: {message}"] }
    else .view (Viewer.ofRecording recording source message)

/-- Runs a script in the way that was asked for. -/
def runSource (options : Options) (source : String) : Outcome :=
  if options.batch then .output (runBatch options.verbose source.toList) else runViewer source.toList

/-- What the system says when a directory is read as a file. -/
def directoryError : String := "Os \x7b code: 21, kind: IsADirectory, message: \"Is a directory\" \x7d"

/-- Runs a command line. `find?` tells what a path leads to. -/
def run (program : String) (arguments : List String) (find? : String → Option Found) : Outcome :=
  let refuse (e : UsageError) : Outcome := .output (.failure (e.lines ++ usage program))
  match readArguments {} arguments with
  | .error e => refuse e
  | .ok options =>
    match options.input with
    | none => refuse .noInput
    | some .list => .output { standard := printed demoList }
    | some (.demo number) =>
      match Demo.numbered? number with
      | some demo => runSource options demo.source
      | none => .output (.failure [s!"Error: no demo {number} (there are {Demo.all.length})"])
    | some (.file path) =>
      match find? path with
      | some (.file source) => runSource options source
      | some .directory => .output (.failure ["Error: " ++ directoryError])
      | none => .output (.failure [s!"Error: File '{path}' not found"])

end MemoryTrace.CommandLine
