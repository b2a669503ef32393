namespace Formulary.CommandLine

/-- The values that a switch accepts. -/
inductive Parameter where
  | nothing
  | path
  | natural (limit : Nat)
  | level
deriving DecidableEq

structure Switch where
  long : String
  short : Option Char
  parameter : Parameter
deriving DecidableEq

/-- Why reading ended early. -/
inductive Stop where
  | help
  | version
  | misuse
deriving DecidableEq

/-- Decimal digits, at least one of them. -/
def digits? (text : String) : Option Nat :=
  if text.isEmpty then none
  else text.toList.foldl (fun value c =>
    value.bind fun n => if c.isDigit then some (10 * n + (c.toNat - '0'.toNat)) else none) (some 0)

/-- A number that may have a plus sign. -/
def natural? (text : String) : Option Nat :=
  if text.startsWith "+" then digits? (text.drop 1).toString else digits? text

/-- A level of optimization; a minus sign is fine before zero. -/
def level? (text : String) : Option Nat :=
  if text.startsWith "-" then
    (digits? (text.drop 1).toString).bind fun n => if n = 0 then some 0 else none
  else (natural? text).bind fun n => if n < 256 then some n else none

def Parameter.accepts (parameter : Parameter) (value : String) : Bool :=
  match parameter with
  | nothing => false
  | path => !value.isEmpty
  | natural limit => (natural? value).any (· < limit)
  | level => (level? value).isSome

/-- What was read: switches by their long names, and positional values in order. -/
structure Arguments where
  switches : List (String × String)
  values : List String
deriving DecidableEq

namespace Arguments

def empty : Arguments := ⟨[], []⟩

def has (arguments : Arguments) (name : String) : Bool :=
  arguments.switches.any fun entry => entry.1 = name

def value? (arguments : Arguments) (name : String) : Option String :=
  arguments.switches.lookup name

/-- A switch is given at most once, and its value must be acceptable. -/
def give (arguments : Arguments) (switch : Switch) (value : String) : Except Stop Arguments :=
  if arguments.has switch.long then .error .misuse
  else if switch.parameter = .nothing || switch.parameter.accepts value then
    .ok { arguments with switches := arguments.switches ++ [(switch.long, value)] }
  else .error .misuse

/-- Positional values are paths. -/
def add (limit : Nat) (arguments : Arguments) (value : String) : Except Stop Arguments :=
  if arguments.values.length < limit && !value.isEmpty then
    .ok { arguments with values := arguments.values ++ [value] }
  else .error .misuse

end Arguments

/-- The switches of a command, and how many positional values it takes. -/
structure Grammar where
  switches : List Switch
  values : Nat
  hasVersion : Bool

/-- What one argument says. -/
inductive Said where
  | done (arguments : Arguments)
  | awaiting (switch : Switch) (arguments : Arguments)

namespace Grammar

/-- A single dash is a value. -/
def looksLikeSwitch (argument : String) : Bool := argument.startsWith "-" && argument ≠ "-"

/-- Text before and after the first equals sign. -/
def splitValue (text : String) : String × Option String :=
  match text.splitOn "=" with
  | name :: first :: rest => (name, some (String.intercalate "=" (first :: rest)))
  | _ => (text, none)

/-- An argument after two dashes. -/
def long (grammar : Grammar) (arguments : Arguments) (text : String) : Except Stop Said :=
  let (name, attached) := splitValue text
  match grammar.switches.find? fun switch => switch.long = name with
  | some switch =>
    match attached, switch.parameter with
    | some _, .nothing => .error .misuse
    | none, .nothing => (arguments.give switch "").map .done
    | some value, _ => (arguments.give switch value).map .done
    | none, _ => .ok (.awaiting switch arguments)
  | none =>
    if attached.isSome then .error .misuse
    else if name = "help" then .error .help
    else if name = "version" && grammar.hasVersion then .error .version
    else .error .misuse

/-- Letters after one dash; the first that takes a value takes the rest of them. -/
def short (grammar : Grammar) (arguments : Arguments) : List Char → Except Stop Said
  | [] => .ok (.done arguments)
  | letter :: rest =>
    match grammar.switches.find? fun switch => switch.short = some letter with
    | some switch =>
      match switch.parameter, rest with
      | .nothing, _ =>
        match arguments.give switch "" with
        | .ok given => grammar.short given rest
        | .error stop => .error stop
      | _, [] => .ok (.awaiting switch arguments)
      | _, '=' :: value => (arguments.give switch (String.ofList value)).map .done
      | _, value => (arguments.give switch (String.ofList value)).map .done
    | none =>
      if letter = 'h' then .error .help
      else if letter = 'V' && grammar.hasVersion then .error .version
      else .error .misuse

def switch (grammar : Grammar) (arguments : Arguments) (argument : String) : Except Stop Said :=
  if argument.startsWith "--" then grammar.long arguments (argument.drop 2).toString
  else grammar.short arguments (argument.toList.drop 1)

/-- Reads all arguments of a command. After two bare dashes only values follow. -/
def read (grammar : Grammar) (arguments : Arguments) : List String → Except Stop Arguments
  | [] => .ok arguments
  | argument :: rest =>
    if argument = "--" then rest.foldlM (Arguments.add grammar.values) arguments
    else if looksLikeSwitch argument then
      match grammar.switch arguments argument with
      | .error stop => .error stop
      | .ok (.done given) => grammar.read given rest
      | .ok (.awaiting switch given) =>
        match rest with
        | [] => .error .misuse
        | value :: more =>
          if looksLikeSwitch value then .error .misuse
          else match given.give switch value with
            | .ok given => grammar.read given more
            | .error stop => .error stop
    else
      match arguments.add grammar.values argument with
      | .ok given => grammar.read given rest
      | .error stop => .error stop

end Grammar

end Formulary.CommandLine
