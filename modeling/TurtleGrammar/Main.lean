import Std.Time
import TurtleGrammar.Session

/-!
# `TurtleGrammar.Main` — the program

The program does what a session does, on the files of the machine: it looks at the paths that the
arguments name, runs the session on what it saw, and makes the folders and files that are new.

## Contents
- `observe`: the disk as far as a command can meet it; `carryOut`: the changes of a session.
- `main`.
-/

namespace TurtleGrammar

namespace Main

/-- The time at which the notes of this run are dated. -/
def timeText : IO String := do
  return (← Std.Time.PlainDateTime.now).format "uuuu-MM-dd HH:mm:ss,SSS"

/-- The absolute paths that are met on the way along components. -/
def trail (p : Path) : List String → List Path
  | [] => [p]
  | name :: rest => p :: trail (p.enter name) rest

/-- Every path that is met on the way along a path text, with the folders above it. -/
def met (home : Path) (path : String) : List Path :=
  (trail (if path.startsWith "/" then [] else home) (Path.components path)).flatMap fun p =>
    (List.range (p.length + 1)).map p.take

/-- The disk with what the machine has at a path. Only the file at `source` is read. -/
def look (source : Path) (disk : Disk) (p : Path) : IO Disk := do
  let place := (← IO.currentDir) / p.text
  if ← place.isDir then return { disk with folders := disk.folders ++ [p] }
  else if ← place.pathExists then
    let content ← if p = source then IO.FS.readBinFile place else pure .empty
    return disk.put p content.toList
  else return disk

/-- The disk as far as a command can meet it. -/
def observe (c : Command) : IO Disk := do
  let home := Path.components (← IO.currentDir).toString
  let paths := ([c.source] ++ c.target?.toList).flatMap (met home)
  paths.eraseDups.foldlM (look (Path.normal home c.source)) ⟨home, [], []⟩

/-- Make the folders and write the files in which a disk differs from an earlier one. -/
def carryOut (before after : Disk) : IO Unit := do
  for p in after.folders do
    unless before.isFolder p do IO.FS.createDirAll p.text
  for (p, content) in after.files do
    unless before.content? p = some content do IO.FS.writeBinFile p.text ⟨content.toArray⟩

/-- Print what a run leaves and give its status. A failure that nothing reports has status 1. -/
def finish (report : Report) : IO UInt32 := do
  (← IO.getStdout).putStr report.output
  (← IO.getStderr).putStr report.errors
  match report.ending with
  | .status code => return code.toUInt32
  | .escaped failure =>
    (← IO.getStderr).putStr (failure.message ++ "\n")
    return 1

/-- Execute a command on the files of the machine. -/
def execute (i : CommandLine.Invocation) : IO UInt32 := do
  let before ← observe i.command
  let (report, after) := i.execute (← timeText) before
  carryOut before after
  finish report

end Main

end TurtleGrammar

/-- Run the program with its arguments. A refusal of the machine that the session could not foresee
    is reported like those of the disk. -/
def main (arguments : List String) : IO UInt32 := do
  match TurtleGrammar.CommandLine.Invocation.parse arguments with
  | .error stop => TurtleGrammar.Main.finish stop.report
  | .ok invocation =>
    match ← (TurtleGrammar.Main.execute invocation).toBaseIO with
    | .ok status => return status
    | .error e =>
      (← IO.getStderr).putStr ("File error: " ++ toString e ++ "\n")
      return 2
