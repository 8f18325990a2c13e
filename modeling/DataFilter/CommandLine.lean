import DataFilter.Check
import DataFilter.CommandLine.Arguments
import DataFilter.CommandLine.Folder
import DataFilter.Json.Render

/-!
# The command `pspec`

`pspec check` validates a template, `pspec match` decides it against a JSON document, and
`pspec sql` compiles it. What a run answers depends on its arguments, on its standard input and on
at most one file, so the answer is a function of these.
-/

namespace DataFilter.CommandLine

/-- What a run is asked to do. -/
structure Request where
  options : Check.Options
  /-- The path of the schema file. -/
  schemaPath : Option String
  pretty : Bool

/-- What a run answers. -/
structure Response where
  code : Nat
  output : String
  errors : String
  deriving DecidableEq

def debugRule : OptionRule := ⟨"debug", none, .flag, false⟩

/-- The options of `match` and `sql`. -/
def parameterRules : List OptionRule :=
  [debugRule, ⟨"param", some 'p', .text, true⟩, ⟨"named", some 'n', .text, true⟩,
    ⟨"pretty", none, .flag, false⟩]

/-- The options of a command, and what it does. -/
def command? : String → Option (List OptionRule × Check.Mode)
  | "check" => some ([debugRule], .validate)
  | "match" => some (⟨"input", some 'i', .text, false⟩ :: parameterRules, .decide)
  | "sql" =>
    some (⟨"schema", some 's', .path, false⟩ :: ⟨"table", some 't', .text, false⟩ :: parameterRules,
      .compile)
  | _ => none

/-- The request of a command's own arguments. -/
def commandRequest (rules : List OptionRule) (mode : Check.Mode) (arguments : List String) :
    Except Stop Request := do
  let all ← collect rules .empty arguments
  match all.positional with
  | [template] =>
    return {
      options := {
        template := template
        mode := mode
        input := all.value? "input"
        params := all.values "param"
        named := all.values "named"
        schema := none
        table := all.value? "table" }
      schemaPath := all.value? "schema"
      pretty := all.has "pretty" }
  | _ => throw .misuse

/-- What `help` answers: the names behind it lead to a command, or to none. -/
def helpOn : List String → Stop
  | [] => .help
  | [name] => if name = "help" || (command? name).isSome then .help else .misuse
  | _ => .misuse

/-- The request of a run's arguments. -/
def request (arguments : List String) : Except Stop Request := do
  let (name, rest) ← commandName debugRule.name false arguments
  if name = "help" then throw (helpOn rest)
  else
    match command? name with
    | some (rules, mode) => commandRequest rules mode rest
    | none => throw .misuse

/-- Whether a request reads the standard input: a document is needed and none is given. -/
def Request.readsInput (request : Request) : Bool :=
  request.options.mode = .decide && request.options.input.isNone

/-- The request with the text of the standard input, if it reads it, and of the schema file. -/
def Request.supply (request : Request) (input schema : Option String) : Check.Options :=
  { request.options with
    input := if request.readsInput then input else request.options.input
    schema := schema }

/-- What is written about an outcome. -/
def outcomeText (pretty : Bool) : Check.Outcome → String
  | .valid tree => "Syntax is valid: " ++ tree
  | outcome => outcome.toJson.render (if pretty then .pretty else .compact)

/-- The version, as it is written. -/
def versionText : String := "pspec 0.1.0"

/-- The answer to arguments that are no request. -/
def Stop.response : Stop → Response
  | misuse => ⟨2, "", ""⟩
  | help => ⟨0, "", ""⟩
  | version => ⟨0, versionText ++ "\n", ""⟩

/-- The answer of a run that fails. -/
def failed (message : String) : Response := ⟨1, "", message ++ "\n"⟩

/-- The message about a file that cannot be read. -/
def fileMessage (reason : String) : String := "IO error: " ++ reason

/-- The answer to a request. -/
def respond (pretty : Bool) (options : Check.Options) : Response :=
  match Check.run options with
  | .ok outcome => ⟨0, outcomeText pretty outcome ++ "\n", ""⟩
  | .error failure => failed failure.message

/-- The answer of a whole run, given its standard input and its folder. -/
def run (arguments : List String) (input : Option String) (folder : Folder) : Response :=
  match request arguments with
  | .error stop => stop.response
  | .ok request =>
    match request.schemaPath.map folder.read with
    | none => respond request.pretty (request.supply input none)
    | some (.ok text) => respond request.pretty (request.supply input (some text))
    | some (.error fault) => failed (fileMessage fault.message)

end DataFilter.CommandLine
