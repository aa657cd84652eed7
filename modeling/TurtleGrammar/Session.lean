import TurtleGrammar.CommandLine.Invocation
import TurtleGrammar.Disk

/-!
# `TurtleGrammar.Session` — a run of the program on a disk

A run parses its arguments, reads the configuration file, performs the command and writes the file
that it delivers, if any. Faults of a drawing and refusals of the disk are reported with status 2; a
fault of arithmetic, of the file's encoding or of an absent path or level ends the run without a
status.

## Contents
- `Failure`, `Failure.report?`: what stops a command, and how it is reported.
- `Ending`, `Report`: how a run ends and what it leaves.
- `noteLine`: a note as a line.
- `Command.execute`, `Invocation.execute`, `session`: a run on a disk.
-/

namespace TurtleGrammar

/-- What stops a command. -/
inductive Failure where
  | fault (cause : Fault)
  | disk (cause : DiskFault)
  deriving DecidableEq

def Failure.message : Failure → String
  | fault cause => cause.message
  | disk cause => cause.message

/-- The words before a reported fault; `none` for a fault that is not reported. -/
def Fault.heading? : Fault → Option String
  | .setting _ => some "Config error"
  | .argument _ => some "L-system error"
  | .noNumeral _ => some "L-system error"
  | .noOpenBranch _ => some "L-system error"
  | .nothingDrawn => some "L-system error"
  | .noGeometry => some "L-system error"
  | .headingUnbounded => none
  | .integerTooLarge => none
  | .paletteEnd _ => none
  | .noColumns => none
  | .placesOutside _ => none
  | .beforeWord _ => none
  | .emptyNumeral => none
  | .noPath => none
  | .noLevel => none
  | .notText _ => none

/-- The words before a reported failure; `none` for a failure that is not reported. -/
def Failure.heading? : Failure → Option String
  | fault cause => cause.heading?
  | disk (.refused _ _) => some "File error"
  | disk .nullCharacter => none

/-- The line that reports a failure, if it is reported. -/
def Failure.report? (f : Failure) : Option String :=
  f.heading?.map fun heading => heading ++ ": " ++ f.message ++ "\n"

/-- How a run ends: with a status, or with a failure that nothing reports. -/
inductive Ending where
  | status (code : Nat)
  | escaped (failure : Failure)
  deriving DecidableEq

/-- How a run ends, and what it leaves on its two outputs. -/
structure Report where
  ending : Ending
  output : String
  errors : String
  deriving DecidableEq

/-- The name under which notes are written. -/
def noteSource : String := "lsystem_segments"

/-- A note as a line that starts with the time. -/
def noteLine (time : String) (n : Note) : String :=
  time ++ " - " ++ noteSource ++ " - " ++ n.level.name ++ " - " ++ n.text ++ "\n"

/-- The lines of the notes that are important enough. -/
def noteLines (time : String) (least : Level) (notes : List Note) : String :=
  String.join ((notes.filter fun n => least.rank ≤ n.level.rank).map (noteLine time))

/-- What events print. -/
def printedText (events : List Event) : String :=
  String.join (events.filterMap fun
    | .printed text => some text
    | .noted _ => none)

/-- The notes among events. -/
def notesOf (events : List Event) : List Note :=
  events.filterMap fun
    | .printed _ => none
    | .noted n => some n

/-- The report of a run that a failure stops. -/
def Failure.close (f : Failure) (output errors : String) : Report :=
  match f.report? with
  | some line => ⟨.status 2, output, errors ++ line⟩
  | none => ⟨.escaped f, output, errors⟩

/-- Perform a command on a disk, with the lines of its notes from a level on. -/
def Command.execute (command : Command) (level : Level) (time : String) (disk : Disk) :
    Report × Disk :=
  match disk.read command.source with
  | .error cause => ((Failure.disk cause).close "" "", disk)
  | .ok content =>
    let run := command.perform content
    let output := printedText run.notes
    let errors := noteLines time level (notesOf run.notes)
    match run.outcome with
    | .error cause => ((Failure.fault cause).close output errors, disk)
    | .ok none => (⟨.status 0, output, errors⟩, disk)
    | .ok (some d) =>
      match disk.deliver d.path d.text.toUTF8.toList with
      | (after, .error cause) => ((Failure.disk cause).close output errors, after)
      | (after, .ok ()) =>
        match d.fault with
        | some cause => ((Failure.fault cause).close output errors, after)
        | none => (⟨.status 0, output, errors ++ noteLines time level d.notes⟩, after)

/-- Execute an invocation on a disk. Nothing is done before the level of notes is known. -/
def CommandLine.Invocation.execute (i : Invocation) (time : String) (disk : Disk) : Report × Disk :=
  match i.level with
  | none => ((Failure.fault .noLevel).close "" "", disk)
  | some level => i.command.execute level time disk

/-- The report of arguments that end the run. -/
def CommandLine.Stop.report : CommandLine.Stop → Report
  | .help text => ⟨.status 0, text, ""⟩
  | .misuse text => ⟨.status 2, "", text⟩

/-- A run of the program with arguments on a disk; `time` is what notes start with. -/
def session (time : String) (arguments : List String) (disk : Disk) : Report × Disk :=
  match CommandLine.Invocation.parse arguments with
  | .error stop => (stop.report, disk)
  | .ok invocation => invocation.execute time disk

end TurtleGrammar
