import LineCalculator.CommandLine.Flags
import LineCalculator.Eval.Run
import LineCalculator.Text.Colouring

/-!
# Settings from the environment and from flags

The two options of evaluation can be set by environment variables and by
flags. A variable counts as true if it reads `true`, whatever the case of
its letters, and as false otherwise. A flag wins over the variable.

Whether colours can be shown is told by the environment alone: by the kind
of terminal it names, or by signs that a terminal understands colour codes.
-/

namespace LineCalculator

/-- Environment variables with their values. -/
abbrev Environment := List (Bytes × Bytes)

namespace Environment

/-- The variable for strict reading of variables. -/
def strictName : Bytes := utf8 "LCALC_STRICT"

/-- The variable for checked arithmetic. -/
def checkedName : Bytes := utf8 "LCALC_CHECK_OVERFLOW"

/-- Is the environment variable there? -/
def isSet (env : Environment) (name : Bytes) : Bool := (env.lookup name).isSome

/-- Does the environment variable say yes? -/
def isTrue (env : Environment) (name : Bytes) : Bool :=
  match env.lookup name with
  | some value => value.equalIgnoringCase (utf8 "true")
  | none => false

/-- The value of an environment variable, empty if it is not there. -/
def value (env : Environment) (name : Bytes) : Bytes := (env.lookup name).getD []

/-- The variables that tell whether colours can be shown. -/
def colourNames : List String := ["TERM", "COLORTERM", "ConEmuANSI", "ANSICON"]

/-- Does the environment name a kind of terminal that has colours? -/
def namesColourTerminal (env : Environment) : Bool :=
  let terminal := env.value (utf8 "TERM")
  terminal.includes (utf8 "xterm") || terminal.includes (utf8 "256color") ||
    terminal == utf8 "alacritty" || (env.value (utf8 "COLORTERM")).includes (utf8 "truecolor")

/-- Is there a sign that colour codes are understood? -/
def understandsCodes (env : Environment) : Bool :=
  env.value (utf8 "ConEmuANSI") == utf8 "ON" || !(env.value (utf8 "ANSICON")).isEmpty

/-- Can colours be shown? -/
def colouring (env : Environment) : Colouring :=
  if env.namesColourTerminal || env.understandsCodes then .on else .off

end Environment

namespace Options

/-- The options that the environment and the flags ask for. -/
def configured (env : Environment) (a : Arguments) : Options where
  strict := (a.switch? [.strict]).getD (env.isTrue Environment.strictName)
  checked := (a.switch? [.checkOverflow]).getD (env.isTrue Environment.checkedName)

/-- How the options are told. -/
def text (o : Options) : Bytes :=
  let truth (b : Bool) : Bytes := utf8 (if b then "true" else "false")
  utf8 "strict=" ++ truth o.strict ++ utf8 ", check-overflow=" ++ truth o.checked

end Options

end LineCalculator
