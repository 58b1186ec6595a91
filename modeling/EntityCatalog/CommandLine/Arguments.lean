/-!
# Arguments of the command

An invocation names a model, perhaps a model of types and a configuration, and one command. Options
are written `-m X`, `-mX`, `-m=X`, `--model X` or `--model=X`; those of the model stand before the
command, those of a command behind it. What is not given may come from a variable of the
environment.
-/

namespace EntityCatalog.CommandLine

inductive Command where
  /-- All services with the lengths of their chains. -/
  | kinds
  /-- The names in the type registry. -/
  | types
  | get (iri : String) (service : Option String)
  | list (kind : String) (filters : List String)
  | describe (name : String)
  deriving DecidableEq, Repr

structure Invocation where
  model : String
  types : Option String
  config : Option String
  command : Command
  deriving DecidableEq, Repr

/-! ## Options -/

/-- An option with a value. -/
structure OptionName where
  short : Option Char
  long : String

/-- A value found for an option, by its long name. -/
abbrev Given := List (String × String)

/-- An argument that is no value, unless it is all there is behind a dash. -/
def isOption (arg : String) : Bool :=
  match arg.toList with
  | '-' :: _ :: _ => true
  | _ => false

/-- The value in the next argument. -/
def nextValue (name : String) : List String → Option (String × String × List String)
  | v :: rest => if isOption v then none else some (name, v, rest)
  | [] => none

/-- The text behind an equals sign. -/
def afterEquals : List Char → Option String
  | '=' :: rest => some (String.ofList rest)
  | _ => none

/-- The option an argument sets, its value, and the arguments behind it. -/
def readOption (names : List OptionName) (arg : String) (rest : List String) :
    Option (String × String × List String) :=
  match arg.toList with
  | '-' :: '-' :: cs =>
    let name := String.ofList (cs.takeWhile (· ≠ '='))
    match names.find? (·.long == name), afterEquals (cs.dropWhile (· ≠ '=')) with
    | some o, some v => some (o.long, v, rest)
    | some o, none => nextValue o.long rest
    | none, _ => none
  | '-' :: c :: cs =>
    match names.find? (·.short == some c), cs with
    | some o, [] => nextValue o.long rest
    | some o, cs => some (o.long, (afterEquals cs).getD (String.ofList cs), rest)
    | none, _ => none
  | _ => none

/-- Read options up to the first argument that is none. `fuel` is at least the number of
arguments. -/
def leadingOptions (names : List OptionName) : Nat → List String → Option (Given × List String)
  | fuel + 1, arg :: rest =>
    if isOption arg then do
      let (name, v, rest) ← readOption names arg rest
      let (given, rest) ← leadingOptions names fuel rest
      return ((name, v) :: given, rest)
    else some ([], arg :: rest)
  | _, rest => some ([], rest)

/-- Read options and other arguments in any order; behind `--` nothing is an option. -/
def allArguments (names : List OptionName) : Nat → List String → Option (Given × List String)
  | fuel + 1, arg :: rest =>
    if arg = "--" then some ([], rest)
    else if isOption arg then do
      let (name, v, rest) ← readOption names arg rest
      let (given, others) ← allArguments names fuel rest
      return ((name, v) :: given, others)
    else do
      let (given, others) ← allArguments names fuel rest
      return (given, arg :: others)
  | _, rest => some ([], rest)

/-- All values of an option. -/
def valuesOf (name : String) (given : Given) : List String :=
  given.filterMap fun (n, v) => if n = name then some v else none

/-- The value of an option that may be given once; the outer `none` is a repetition. -/
def single (name : String) (given : Given) : Option (Option String) :=
  match valuesOf name given with
  | [] => some none
  | [v] => some (some v)
  | _ => none

/-- The path an option or a variable gives; an empty path is none at all, and refused. -/
def pathOption (name variableName : String) (given : Given) (vars : List (String × String)) :
    Option (Option String) := do
  match (← single name given).or (vars.lookup variableName) with
  | some path => if path.isEmpty then none else return some path
  | none => return none

/-! ## Invocations -/

def readCommand (name : String) (args : List String) : Option Command :=
  let read (names : List OptionName) := allArguments names (args.length + 1) args
  match name with
  | "kinds" => do
    match ← read [] with
    | ([], []) => some .kinds
    | _ => none
  | "types" => do
    match ← read [] with
    | ([], []) => some .types
    | _ => none
  | "get" => do
    match ← read [⟨none, "service"⟩] with
    | (given, [iri]) => (single "service" given).map (.get iri)
    | _ => none
  | "list" => do
    match ← read [⟨some 'f', "filter"⟩] with
    | (given, [kind]) => some (.list kind (valuesOf "filter" given))
    | _ => none
  | "describe" => do
    match ← read [] with
    | ([], [name]) => some (.describe name)
    | _ => none
  | _ => none

/-- The options of the model. -/
def modelOptions : List OptionName :=
  [⟨some 'm', "model"⟩, ⟨some 't', "types"⟩, ⟨some 'c', "config"⟩]

/-- The invocation that arguments and variables make. -/
def readInvocation (args : List String) (vars : List (String × String)) : Option Invocation := do
  let (given, rest) ← leadingOptions modelOptions (args.length + 1) args
  match rest with
  | [] => none
  | name :: args =>
    let command ← readCommand name args
    let model ← (← pathOption "model" "KINDRED_MODEL" given vars)
    let types ← pathOption "types" "KINDRED_TYPES" given vars
    let config ← pathOption "config" "KINDRED_CONFIG" given vars
    return ⟨model, types, config, command⟩

end EntityCatalog.CommandLine
