import LineCalculator.Text.Quoted

/-!
# Flags

Arguments that start with a dash are flags, one dash or two, up to the
first argument that is none, or up to a double dash. A dash alone is not a
flag. A flag either is a switch, which may carry a truth value behind an
equals sign, or takes a text, behind an equals sign or as the next argument.

Two of the flags have a short and a long form. Using both forms of a flag
is an error.

The flags stand before the first argument of the program. Its only command,
which shows help, has flags of its own behind its name.
-/

namespace LineCalculator

/-- The flags. -/
inductive Flag where
  | trace
  | strict
  | checkOverflow
  | interactive
  | interactiveShort
  | help
  | helpShort
  deriving DecidableEq

/-- The flag with this name. -/
def Flag.named? (name : Bytes) : Option Flag :=
  if name = utf8 "trace" then some .trace
  else if name = utf8 "strict" then some .strict
  else if name = utf8 "check-overflow" then some .checkOverflow
  else if name = utf8 "interactive" then some .interactive
  else if name = utf8 "i" then some .interactiveShort
  else if name = utf8 "help" then some .help
  else if name = utf8 "h" then some .helpShort
  else none

/-- The flag of the help command with this name. -/
def Flag.ofHelp? (name : Bytes) : Option Flag :=
  (Flag.named? name).filter fun flag => flag = .help ∨ flag = .helpShort

/-- The value given to a flag. -/
inductive FlagValue where
  | switch (on : Bool)
  | text (t : Bytes)
  deriving DecidableEq

/-- What is wrong with the flags. -/
inductive FlagError where
  /-- The argument is no flag in form. -/
  | malformed (argument : Bytes)
  /-- There is no such flag. -/
  | undefined (name : Bytes)
  /-- The flag needs a text. -/
  | missingText (name : Bytes)
  /-- The value is no truth value. -/
  | noTruthValue (value name : Bytes)
  deriving DecidableEq

/-- The wording of an error. -/
def FlagError.message : FlagError → Bytes
  | .malformed argument => utf8 "bad flag syntax: " ++ argument
  | .undefined name => utf8 "flag provided but not defined: -" ++ name
  | .missingText name => utf8 "flag needs an argument: -" ++ name
  | .noTruthValue value name =>
    utf8 "invalid boolean value " ++ quoted value ++ utf8 " for -" ++ name ++ utf8 ": parse error"

/-- The spellings of truth values. -/
def truthValue? (t : Bytes) : Option Bool :=
  if t ∈ [utf8 "1", utf8 "t", utf8 "T", utf8 "true", utf8 "TRUE", utf8 "True"] then some true
  else if t ∈ [utf8 "0", utf8 "f", utf8 "F", utf8 "false", utf8 "FALSE", utf8 "False"] then
    some false
  else none

/-- An argument by its form. -/
inductive ArgumentForm where
  /-- Not a flag. -/
  | plain
  /-- The double dash that ends the flags. -/
  | ending
  /-- Dashes without a name behind them. -/
  | malformed
  /-- A flag, and the value behind its equals sign, if there is one. -/
  | flag (name : Bytes) (value? : Option Bytes)
  deriving DecidableEq

/-- Splits what follows the dashes at its first equals sign. -/
def ArgumentForm.ofBody (body : Bytes) : ArgumentForm :=
  match body with
  | [] => malformed
  | 45 :: _ => malformed
  | 61 :: _ => malformed
  | _ =>
    match body.dropWhile (· ≠ 61) with
    | [] => flag body none
    | _ :: value => flag (body.takeWhile (· ≠ 61)) (some value)

/-- The form of an argument. -/
def ArgumentForm.ofArgument : Bytes → ArgumentForm
  | 45 :: 45 :: [] => ending
  | 45 :: 45 :: body => ofBody body
  | 45 :: b :: body => ofBody (b :: body)
  | _ => plain

/-- The arguments of the program, understood. -/
structure Arguments where
  /-- The flags that were given, in order. -/
  flags : List (Flag × FlagValue) := []
  /-- What was wrong, if anything; flags behind it are not read. -/
  error? : Option FlagError := none
  /-- What is left when the flags have been read. -/
  rest : List Bytes := []
  deriving DecidableEq

namespace Arguments

/-- One more flag in front. -/
def cons (flag : Flag) (value : FlagValue) (a : Arguments) : Arguments :=
  { a with flags := (flag, value) :: a.flags }

/-- Understands arguments among which these flags may stand. -/
def parseWith (named? : Bytes → Option Flag) : List Bytes → Arguments
  | [] => {}
  | argument :: rest =>
    match ArgumentForm.ofArgument argument with
    | .plain => { rest := argument :: rest }
    | .ending => { rest := rest }
    | .malformed => { error? := some (.malformed argument) }
    | .flag name value? =>
      match named? name, value? with
      | none, _ => { error? := some (.undefined name) }
      | some .trace, some value => cons .trace (.text value) (parseWith named? rest)
      | some .trace, none =>
        match rest with
        | value :: rest => cons .trace (.text value) (parseWith named? rest)
        | [] => { error? := some (.missingText name) }
      | some flag, some value =>
        match truthValue? value with
        | some on => cons flag (.switch on) (parseWith named? rest)
        | none => { error? := some (.noTruthValue value name) }
      | some flag, none => cons flag (.switch true) (parseWith named? rest)

/-- Understands the arguments of the program. -/
def parse (arguments : List Bytes) : Arguments := parseWith Flag.named? arguments

/-- Was the flag given? -/
def has (a : Arguments) (flag : Flag) : Bool := a.flags.any fun f => f.1 = flag

/-- The last value given to one of these flags, if it is a switch. -/
def switch? (a : Arguments) (forms : List Flag) : Option Bool :=
  (a.flags.reverse.find? fun f => f.1 ∈ forms).bind fun f =>
    match f.2 with
    | .switch on => some on
    | .text _ => none

/-- The name of the trace level; errors only, unless said otherwise. -/
def traceName (a : Arguments) : Bytes :=
  match a.flags.reverse.find? fun f => f.1 = .trace with
  | some (_, .text t) => t
  | _ => utf8 "Error"

/-- Is the session to be interactive? -/
def interactive (a : Arguments) : Bool :=
  (a.switch? [.interactive, .interactiveShort]).getD false

/-- Is help asked for? -/
def help (a : Arguments) : Bool := (a.switch? [.help, .helpShort]).getD false

/-- The complaint about a flag given in both of its forms. -/
def doubled? (a : Arguments) : Option Bytes :=
  if a.has .interactive && a.has .interactiveShort then
    some (utf8 "Cannot use two forms of the same flag: i interactive")
  else if a.has .help && a.has .helpShort then
    some (utf8 "Cannot use two forms of the same flag: h help")
  else none

end Arguments

end LineCalculator
