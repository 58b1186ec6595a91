import EntityCatalog.CommandLine.Arguments
import EntityCatalog.Json.Text
import EntityCatalog.Provider

/-!
# Running the command

The model is loaded, a provider is built from it, and the command is answered. Whatever goes wrong on
the way is told in one message.
-/

namespace EntityCatalog.CommandLine

open Json (Value)

/-- What a run of the command comes to. -/
structure Outcome where
  status : UInt8
  output : String
  /-- Why the command failed. -/
  failure? : Option String
  deriving DecidableEq, Repr

/-- Arguments that make no invocation. -/
def usageError : Outcome := ⟨2, "", none⟩

def failed (message : String) : Outcome := ⟨1, "", some message⟩

def printed (output : String) : Outcome := ⟨0, output, none⟩

/-- A text with the end of its line. -/
def line (s : String) : String := s ++ "\n"

/-- The key and the value of a filter. -/
def readFilter (raw : String) : Except String (String × String) :=
  match Text.splitFirst '=' raw.toList with
  | some (key, value) =>
    if key.isEmpty then .error ("filter must be key=value, got '" ++ raw ++ "'")
    else .ok (String.ofList key, String.ofList value)
  | none => .error ("filter must be key=value, got '" ++ raw ++ "'")

/-- The request that a kind and filters make. -/
def listRequest (kind : String) (filters : List String) : Except String ListRequest := do
  let id ← (KindId.parse kind).mapError InvalidId.message
  filters.foldlM (fun r raw => do
    let (key, value) ← readFilter raw
    return r.withFilter key value) (.all id)

/-- The provider that an invocation asks for. -/
def loadProvider (i : Invocation) (extensions : Extensions) (files : FileTree) :
    Except String Provider := do
  let kinds ← (KindRepository.load files (.given i.model)).mapError fun _ =>
    "loading entity kinds from " ++ i.model
  let types ← match i.types with
    | some path => (TypeRepository.load files (.given path)).mapError fun _ =>
      "loading types from " ++ path
    | none => pure TypeRepository.empty
  let config ← match i.config with
    | some path => do
      let text ← (files.read (.given path)).mapError fun _ => "reading " ++ path
      (Config.parse text).mapError fun fault => fault.reason?.getD unspecified
    | none => pure Config.standard
  (Provider.build kinds types extensions config).mapError BuildError.message

/-- The members of an entity in the order in which they are declared. -/
def entityInOrder (e : Entity) : Value :=
  match e.encode with
  | .object members =>
    .object (["id", "ts", "links", "related", "data"].filterMap fun name =>
      (Assoc.get? name members).map fun v => (name, v))
  | v => v

/-- What the services answer to a command. -/
def answer (p : Provider) : Command → Run (Except String String)
  | .kinds => return .ok (String.join (p.services.chainLengths.map fun (id, n) =>
      line (id ++ "\t" ++ toString n)))
  | .types => return .ok (String.join (p.types.names.map line))
  | .get iri service =>
    match service.map Except.ok |>.getD (p.services.route iri) with
    | .error e => return .error e.message
    | .ok id => do
      match ← p.services.get id iri with
      | .error e => return .error e.message
      | .ok thing => return .ok (line ((GetResponse.mk thing).encode.pretty 0))
  | .list kind filters =>
    match listRequest kind filters with
    | .error message => return .error message
    | .ok request => do
      match ← p.services.list kind request with
      | .error e => return .error e.message
      | .ok entities =>
        let response := Value.object [("entities", .array (entities.map entityInOrder))]
        return .ok (line (response.pretty 0))
  | .describe name => do
    match ← p.services.get Builtin.descriptor (Builtin.descriptor ++ "/" ++ name) with
    | .error e => return .error e.message
    | .ok thing => return .ok (line (thing.value.pretty 0))

/-- Run an invocation. -/
def execute (i : Invocation) (extensions : Extensions) (world : World) : Outcome :=
  match loadProvider i extensions world.files with
  | .error message => failed message
  | .ok p =>
    match (answer p i.command (p.env world) []).1 with
    | .ok output => printed output
    | .error message => failed message

/-- Run the command with some arguments. -/
def run (args : List String) (vars : List (String × String)) (extensions : Extensions)
    (world : World) : Outcome :=
  match readInvocation args vars with
  | some i => execute i extensions world
  | none => usageError

end EntityCatalog.CommandLine
