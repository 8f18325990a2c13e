/-!
# Command-line arguments

Arguments are read one by one. `--name value`, `--name=value`, `-n value`, `-nvalue` and
`-n=value` give an option a value; a value that is an argument of its own does not begin with a
minus sign. Behind `--` everything is positional. The first argument that does not fit ends the
reading.
-/

namespace DataFilter.CommandLine

/-- What an option is given. -/
inductive ValueRule where
  /-- Nothing. -/
  | flag
  /-- Any text. -/
  | text
  /-- A text that is not empty. -/
  | path
  deriving DecidableEq, Repr

/-- An option that a command knows. -/
structure OptionRule where
  /-- The name behind two minus signs. -/
  name : String
  /-- The letter behind one minus sign. -/
  letter : Option Char
  value : ValueRule
  /-- Whether it may be given more than once. -/
  repeatable : Bool
  deriving DecidableEq

/-- Whether the option is given a value. -/
def OptionRule.takesValue (rule : OptionRule) : Bool := rule.value ≠ .flag

/-- Why the reading ends before the end. -/
inductive Stop where
  | misuse
  | help
  | version
  deriving DecidableEq, Repr

/-- What has been read. -/
structure Collected where
  /-- Options with their values, in order; a flag has the empty value. -/
  options : List (String × String)
  positional : List String
  deriving DecidableEq

namespace Collected

def empty : Collected := ⟨[], []⟩

/-- The values of an option, in order. -/
def values (c : Collected) (name : String) : List String :=
  (c.options.filter (·.1 = name)).map (·.2)

/-- The value of an option that is given at most once. -/
def value? (c : Collected) (name : String) : Option String := (c.values name).head?

/-- Whether an option is given. -/
def has (c : Collected) (name : String) : Bool := !(c.values name).isEmpty

/-- Records an option, unless it is there already and may not be repeated, or its value is none. -/
def record (c : Collected) (rule : OptionRule) (value : String) : Except Stop Collected :=
  if c.has rule.name && !rule.repeatable then .error .misuse
  else if rule.value = .path && value.isEmpty then .error .misuse
  else .ok { c with options := c.options ++ [(rule.name, value)] }

end Collected

/-- The form of an argument. -/
inductive Form where
  /-- `--name` or `--name=value`. -/
  | long (name : String) (value : Option String)
  /-- `-n`, `-nvalue` or `-n=value`. -/
  | short (letter : Char) (value : Option String)
  /-- `--`. -/
  | escape
  | plain
  deriving DecidableEq

/-- The form of an argument. A lone minus sign is plain. -/
def form (argument : String) : Form :=
  match argument.toList with
  | ['-', '-'] => .escape
  | '-' :: '-' :: rest =>
    let name := String.ofList (rest.takeWhile (· ≠ '='))
    match rest.dropWhile (· ≠ '=') with
    | _ :: value => .long name (some (String.ofList value))
    | [] => .long name none
  | ['-', letter] => .short letter none
  | '-' :: letter :: '=' :: value => .short letter (some (String.ofList value))
  | '-' :: letter :: value => .short letter (some (String.ofList value))
  | _ => .plain

/-- The options that stop at once. -/
def stop? (hasVersion : Bool) : Form → Option Stop
  | .long "help" none => some .help
  | .short 'h' _ => some .help
  | .long "version" none => if hasVersion then some .version else none
  | .short 'V' _ => if hasVersion then some .version else none
  | _ => none

/-- The rule of an option, with the value attached to it. -/
def rule? (rules : List OptionRule) : Form → Option (OptionRule × Option String)
  | .long name value => (rules.find? (·.name = name)).map (·, value)
  | .short letter value => (rules.find? (·.letter = some letter)).map (·, value)
  | _ => none

/-- Reads the arguments of a command with at most one positional argument. -/
def collect (rules : List OptionRule) (c : Collected) : List String → Except Stop Collected
  | [] => .ok c
  | argument :: rest =>
    match form argument with
    | .escape => .ok { c with positional := c.positional ++ rest }
    | .plain =>
      if c.positional.isEmpty then collect rules { c with positional := [argument] } rest
      else .error .misuse
    | option =>
      match stop? false option, rule? rules option with
      | some stop, _ => .error stop
      | none, none => .error .misuse
      | none, some (rule, some value) =>
        if rule.takesValue then
          match c.record rule value with
          | .ok c => collect rules c rest
          | .error stop => .error stop
        else .error .misuse
      | none, some (rule, none) =>
        if rule.takesValue then
          match rest with
          | [] => .error .misuse
          | value :: rest =>
            if form value = .plain then
              match c.record rule value with
              | .ok c => collect rules c rest
              | .error stop => .error stop
            else .error .misuse
        else
          match c.record rule "" with
          | .ok c => collect rules c rest
          | .error stop => .error stop

/-- The name of a command and the arguments behind it. Before the name only the flag `flag` may
stand, once; `given` tells whether it was there already. -/
def commandName (flag : String) (given : Bool) : List String → Except Stop (String × List String)
  | [] => .error .misuse
  | argument :: rest =>
    match form argument with
    | .escape => .error .misuse
    | .plain => .ok (argument, rest)
    | option =>
      match stop? true option with
      | some stop => .error stop
      | none =>
        if option = .long flag none && !given then commandName flag true rest else .error .misuse

end DataFilter.CommandLine
