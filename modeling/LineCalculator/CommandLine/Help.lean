import LineCalculator.Text.Bytes

/-!
# Help texts

There are three of them: about the program, about its only command, which
shows help, and about what can stand behind the program's name. The last
one answers those who ask for help on nothing in particular.
-/

namespace LineCalculator.Help

/-- Lines of text, each ended. -/
def ofLines (ls : List String) : Bytes := ls.flatMap fun line => utf8 line ++ utf8 "\n"

/-- The flags of the program, a line each. -/
def flagLines : List String :=
  ["   --trace value      Trace level [Debug|Info|Error] (default: \"Error\")",
   "   --strict           report variables read before being assigned (default: false)",
   "   --check-overflow   report integer overflow instead of wrapping around (default: false)",
   "   --interactive, -i  start an interactive session (file argument is loaded first) (default: false)",
   "   --help, -h         show help (default: false)"]

/-- What the program says about itself. -/
def program : Bytes :=
  ofLines (
    ["NAME:",
     "   lcalc - line oriented integer calculator",
     "",
     "USAGE:",
     "   lcalc [global options] command [command options] [file]",
     "",
     "COMMANDS:",
     "   help, h  Shows a list of commands or help for one command",
     "",
     "GLOBAL OPTIONS:"] ++ flagLines)

/-- What the program says about its commands. -/
def commands : Bytes :=
  ofLines (
    ["NAME:",
     "   lcalc - line oriented integer calculator",
     "",
     "USAGE:",
     "   lcalc command [command options] [file]",
     "",
     "COMMANDS:",
     "   help, h  Shows a list of commands or help for one command",
     "",
     "OPTIONS:"] ++ flagLines ++ ["   "])

/-- What the program says about the command that shows help. -/
def command : Bytes :=
  ofLines
    ["NAME:",
     "    - Shows a list of commands or help for one command",
     "",
     "USAGE:",
     "    [command options] [command]",
     "",
     "OPTIONS:",
     "   --help, -h  show help (default: false)",
     "   "]

/-- Is this the name of the command that shows help? -/
def isCommand (t : Bytes) : Bool := t = utf8 "help" ∨ t = utf8 "h"

/-- The help on a topic, if there is any. -/
def onTopic? (topic : Bytes) : Option Bytes :=
  if topic = [] then some commands
  else if isCommand topic then some command
  else none

end LineCalculator.Help
