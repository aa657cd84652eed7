/-!
# `TurtleGrammar.CommandLine.Help` — what is shown to who asks for help

## Contents
- `programUsage` and the usages of the commands, which also stand before a refusal.
- `programHelp` and the helps of the commands: the usage, what the arguments mean, and for the whole
  program the symbols of the turtle and the settings of a configuration.
-/

namespace TurtleGrammar

namespace CommandLine

/-- Lines, each with a line feed after it. -/
def linesOf (lines : List String) : String := String.join (lines.map (· ++ "\n"))

/-- The usage of the program. -/
def programUsage : String :=
  linesOf
    ["usage: lsystem_segments.py [-h] [--log-level \x7bDEBUG,INFO,WARNING,ERROR\x7d]",
     "                           \x7brender,validate,expand,segments\x7d ..."]

/-- The help of the program. -/
def programHelp : String :=
  programUsage ++ linesOf
    ["",
     "Expand L-systems and turn them into line segments or SVG.",
     "",
     "positional arguments:",
     "  \x7brender,validate,expand,segments\x7d",
     "    render              Render an L-system JSON config to SVG.",
     "    validate            Validate a JSON config and print a brief summary.",
     "    expand              Print the expanded instruction string.",
     "    segments            Write the line segments as CSV.",
     "",
     "options:",
     "  -h, --help            show this help message and exit",
     "  --log-level \x7bDEBUG,INFO,WARNING,ERROR\x7d",
     "                        Logging verbosity (default: WARNING).",
     "",
     "INSTRUCTIONS",
     "",
     "  F      draw a line of the current step length in the current direction",
     "  + -    turn by +angle / -angle",
     "  [ ]    save / restore position, angle, heading and step length",
     "  @<n>   multiply the step length by the number n, e.g. \"@.7\" or \"@2\"",
     "  !      flip the turn direction (the sign of angle)",
     "",
     "  Every other symbol is ignored by the turtle and only takes part in rewriting.",
     "",
     "INPUT JSON SYNTAX",
     "",
     "  name: string (optional)",
     "      Written into the SVG <title>.",
     "",
     "  axiom: string (required)",
     "      The initial word.",
     "",
     "  iterations: integer >= 1 (default 1)",
     "      Number of rewriting steps.",
     "",
     "  rules: object mapping single-character string -> string (optional)",
     "      Production rules, applied to all symbols of a generation at once.",
     "      Symbols without a rule rewrite to themselves.",
     "",
     "  turtle: object",
     "    turtle.angle: number degrees (required)",
     "        Turn increment for \"+\" and \"-\".",
     "    turtle.heading: number degrees (default 90)",
     "        Initial heading; 0 = +X, 90 = +Y.",
     "    turtle.step: number > 0 (default 1)",
     "        Initial step length.",
     "    turtle.draw_aliases: string or list of characters (optional)",
     "        Symbols that are replaced with \"F\" after expansion, e.g. \"G\".",
     "",
     "  output: object (optional)",
     "    output.extra_info: boolean (default false)",
     "        Record length, heading and stack depth for every segment.",
     "    output.remove_duplicates: boolean (default true)",
     "        Drop exact duplicate segments. A line from A to B is not a duplicate",
     "        of a line from B to A.",
     "",
     "  svg: object (optional)",
     "    svg.margin: number (default 1)",
     "    svg.precision: integer 0..10 (default 3)",
     "    svg.flip_y: boolean (default true)",
     "    svg.width / svg.height: number (optional)",
     "    svg.background: string color (optional)",
     "    svg.style.stroke: string (default \"#000\")",
     "    svg.style.stroke_width: number (default 1)",
     "    svg.style.stroke_linecap: string (default \"round\")",
     "    svg.style.palette: list of colors (optional)",
     "        Colors spread evenly over the segments in drawing order.",
     "",
     "Example (dragon curve):",
     "",
     "    \x7b",
     "      \"axiom\": \"FX\",",
     "      \"iterations\": 12,",
     "      \"rules\": \x7b\"X\": \"X+YF+\", \"Y\": \"-FX-Y\"\x7d,",
     "      \"turtle\": \x7b\"angle\": 90, \"heading\": 0\x7d",
     "    \x7d"]

/-- The usage of the command that draws. -/
def renderUsage : String :=
  linesOf
    ["usage: lsystem_segments.py render [-h] config output"]

/-- The help of the command that draws. -/
def renderHelp : String :=
  renderUsage ++ linesOf
    ["",
     "positional arguments:",
     "  config      Path to the input JSON config.",
     "  output      Path to write the SVG output.",
     "",
     "options:",
     "  -h, --help  show this help message and exit"]

/-- The usage of the command that checks. -/
def validateUsage : String :=
  linesOf
    ["usage: lsystem_segments.py validate [-h] config"]

/-- The help of the command that checks. -/
def validateHelp : String :=
  validateUsage ++ linesOf
    ["",
     "positional arguments:",
     "  config      Path to the input JSON config.",
     "",
     "options:",
     "  -h, --help  show this help message and exit"]

/-- The usage of the command that expands. -/
def expandUsage : String :=
  linesOf
    ["usage: lsystem_segments.py expand [-h] [--raw] config"]

/-- The help of the command that expands. -/
def expandHelp : String :=
  expandUsage ++ linesOf
    ["",
     "positional arguments:",
     "  config      Path to the input JSON config.",
     "",
     "options:",
     "  -h, --help  show this help message and exit",
     "  --raw       Do not replace draw aliases with 'F'."]

/-- The usage of the command that lists segments. -/
def segmentsUsage : String :=
  linesOf
    ["usage: lsystem_segments.py segments [-h] config [output]"]

/-- The help of the command that lists segments. -/
def segmentsHelp : String :=
  segmentsUsage ++ linesOf
    ["",
     "positional arguments:",
     "  config      Path to the input JSON config.",
     "  output      CSV path (default: stdout).",
     "",
     "options:",
     "  -h, --help  show this help message and exit"]

end CommandLine

end TurtleGrammar
