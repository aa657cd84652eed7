import TurtleGrammar.Command
import TurtleGrammar.CommandLine.Arguments
import TurtleGrammar.CommandLine.Help

/-!
# `TurtleGrammar.CommandLine.Invocation` — from arguments to a command

The program has one switch beside help, for the level of its notes, and one operand: a command with
the arguments of its own interface.

## Contents
- `programInterface` and the interfaces of the commands.
- `Invocation`, `Invocation.parse`.
-/

namespace TurtleGrammar

namespace CommandLine

/-- The switch that asks for help. -/
def helpSwitch : Switch := ⟨["-h", "--help"], .help⟩

/-- The switch for the least level of the notes that are shown. -/
def levelSwitch : Switch := ⟨["--log-level"], .value (Level.all.map Level.name)⟩

/-- The switch for an expansion in which aliases stand. -/
def rawSwitch : Switch := ⟨["--raw"], .flag⟩

/-- The operand for the path of the configuration. -/
def sourceOperand : Operand := ⟨"config", .one⟩

/-- The name under which the program is called. -/
def programName : String := "lsystem_segments.py"

/-- The interface of a command. -/
def commandInterface (name usage help : String) (switches : List Switch) (operands : List Operand) :
    Interface :=
  ⟨programName ++ " " ++ name, usage, help, helpSwitch :: switches, sourceOperand :: operands⟩

/-- The commands by name. -/
def commandInterfaces : List (String × Interface) :=
  [("render", commandInterface "render" renderUsage renderHelp [] [⟨"output", .one⟩]),
    ("validate", commandInterface "validate" validateUsage validateHelp [] []),
    ("expand", commandInterface "expand" expandUsage expandHelp [rawSwitch] []),
    ("segments", commandInterface "segments" segmentsUsage segmentsHelp [] [⟨"output", .optional⟩])]

/-- The interface of the program. -/
def programInterface : Interface where
  program := programName
  usage := programUsage
  help := programHelp
  switches := [helpSwitch, levelSwitch]
  operands := [⟨"cmd", .word (commandInterfaces.map Prod.fst)⟩]

/-- A command and the least level of the notes that are shown, absent if its switch has no value.
    -/
structure Invocation where
  level : Option Level
  command : Command
  deriving DecidableEq

namespace Invocation

/-- The level with the name that its switch was given last. Without the switch it is the level of
    warnings. -/
def levelOf : Option (Option String) → Option Level
  | none => some .warning
  | some name => Level.all.find? fun l => some l.name = name

/-- The command with a name and what was found among its arguments. -/
def commandOf (name : String) (found : Progress) : Command :=
  let source := (found.operand "config").head?.getD ""
  let target := (found.operand "output").head?
  if name = "render" then .render source target
  else if name = "validate" then .validate source
  else if name = "expand" then .expand source (found.isSet rawSwitch.label)
  else .segments source target

/-- The invocation that arguments describe. Arguments that neither the program nor the command
    knows are refused together, the program's first. -/
def parse (arguments : List String) : Except Stop Invocation := do
  let outer ← programInterface.parse arguments
  match outer.operand "cmd" with
  | [] => programInterface.misuse "the following arguments are required: cmd"
  | name :: rest =>
    match commandInterfaces.lookup name with
    | none => programInterface.misuse "the following arguments are required: cmd"
    | some interface =>
      let inner ← interface.parse rest
      match outer.unknown ++ inner.unknown with
      | [] =>
        return ⟨levelOf (outer.lastGiven? levelSwitch.label), commandOf name inner⟩
      | unknown =>
        programInterface.misuse ("unrecognized arguments: " ++ String.intercalate " " unknown)

end Invocation

end CommandLine

end TurtleGrammar
