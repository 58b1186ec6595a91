import EntityCatalog.Chain
import EntityCatalog.Json.Text

/-!
# Services

A service answers requests under its identifier: for the entities of a kind, for the things of a
type, or for the descriptors of the type registry.
-/

namespace EntityCatalog

open Json (Value)

inductive Service where
  | kind (chain : AspectChain)
  | type (chain : ConnectorChain) (handle : Handle)
  | introspection (handle : Handle)

namespace Service

/-- The kind of the entities that stand for descriptors. -/
def descriptorKind : KindId := ⟨"kindred", "Descriptor"⟩

def id : Service → String
  | kind c => c.kind.id.text
  | type c _ => c.type.name
  | introspection _ => Builtin.descriptor

/-- The names of the aspects or connectors that are asked. -/
def chainNames : Service → List String
  | kind c => c.names
  | type c _ => c.names
  | introspection _ => []

/-! ## Kinds -/

/-- The identifier of an entity of a kind. -/
def entityId (kind : EntityKind) (iri : String) : Except ServiceError EntityId :=
  match EntityId.parse iri with
  | .error _ => .error (.invalidRequest (.malformedIri iri))
  | .ok id =>
    if id.kind = kind.id then .ok id
    else .error (.invalidRequest (.otherKind iri kind.id.text))

/-- Whether a value is the one wanted: a text by its content, any other but null by its JSON text. -/
def fits (wanted : String) : Option Value → Bool
  | some (.string s) => s == wanted
  | some .null | none => false
  | some v => v.text == wanted

/-- Whether an entity has what a filter asks for: a path segment where the key names one, else a
member of the data. -/
def matchesFilter (kind : EntityKind) (filter : SortedMap String) (e : Entity) : Bool :=
  filter.entries.all fun (key, wanted) =>
    match kind.pathIndex? key with
    | some i => e.id.paths[i]? == some wanted
    | none => fits wanted (e.data.member? key)

/-- The entity an IRI names, after it has passed the chain. -/
def getEntity (c : AspectChain) (iri : String) : Run (Except ServiceError Entity) :=
  match entityId c.kind iri with
  | .error e => return .error e
  | .ok id => do
    match ← c.augment (Entity.bare id) with
    | ⟨e, none⟩ => return .ok e
    | ⟨_, some failure⟩ => return .error failure

/-- Pass entities through the chain and keep those that a filter lets through. -/
def augmentAll (c : AspectChain) (filter : SortedMap String) :
    List Entity → Run (Except ServiceError (List Entity))
  | [] => return .ok []
  | e :: rest => do
    match ← c.augment e with
    | ⟨_, some failure⟩ => return .error failure
    | ⟨e, none⟩ =>
      match ← augmentAll c filter rest with
      | .error failure => return .error failure
      | .ok kept => return .ok (if matchesFilter c.kind filter e then e :: kept else kept)

/-- The entities of a kind that a request asks for. -/
def listEntities (c : AspectChain) (request : ListRequest) :
    Run (Except ServiceError (List Entity)) :=
  if request.kind ≠ c.kind.id then
    return .error (.invalidRequest (.misdirected request.kind c.kind.id.text))
  else do
    match ← c.discover request with
    | .error failure => return .error failure
    | .ok found => augmentAll c request.filter found

/-! ## Types -/

/-- The first thing, in ascending order of the keys, that does not conform to the registry. -/
def checkThings (service : String) (types : TypeRegistry) (things : SortedMap Thing) :
    Except ServiceError Unit :=
  things.values.forM fun t => (types.check t).mapError (.nonconforming service)

/-- The things loaded for an IRI. -/
def envelope (iri : String) (things : SortedMap Thing) : Thing :=
  .pack Builtin.thing (.object [("iri", .string iri), ("things", .ofMap Thing.encode things)])

/-- The registry a handle leads to. -/
def types (handle : Handle) : Run (Except ServiceError TypeRegistry) := do
  match (← Run.env).bindings.types? handle with
  | some r => return .ok r
  | none => return .error .notReady

def getThings (c : ConnectorChain) (handle : Handle) (iri : String) :
    Run (Except ServiceError Thing) := do
  match ← c.load iri with
  | .error failure => return .error failure
  | .ok things =>
    match ← types handle with
    | .error failure => return .error failure
    | .ok r => return (checkThings c.type.name r things).map fun _ => envelope iri things

/-! ## Descriptors -/

/-- The type name in an IRI of the introspection service. -/
def descriptorName (iri : String) : Except ServiceError String :=
  let start := (Builtin.descriptor ++ "/").toList
  let name := iri.toList.drop start.length
  if start.isPrefixOf iri.toList && !name.isEmpty then .ok (String.ofList name)
  else .error (.invalidRequest (.noDescriptorIri Builtin.descriptor iri))

def getDescriptor (handle : Handle) (iri : String) : Run (Except ServiceError Thing) :=
  match descriptorName iri with
  | .error e => return .error e
  | .ok name => do
    match ← types handle with
    | .error failure => return .error failure
    | .ok r =>
      match r.find? name with
      | some d => return .ok (.pack Builtin.descriptor d.encode)
      | none => return .error (.notFound name)

/-- The entity that stands for a descriptor. -/
def descriptorEntity (d : Descriptor) : Entity :=
  { Entity.bare ⟨descriptorKind, [d.fullName]⟩ with
    data := .object [("fields", .nat d.fields.length), ("full_name", .string d.fullName),
      ("type_url", .string d.typeUrl)] }

def listDescriptors (handle : Handle) (request : ListRequest) :
    Run (Except ServiceError (List Entity)) :=
  if request.kind ≠ descriptorKind then
    return .error (.invalidRequest (.misdirected request.kind Builtin.descriptor))
  else do
    match ← types handle with
    | .error failure => return .error failure
    | .ok r => return .ok (r.descriptors.map descriptorEntity)

/-! ## Requests -/

/-- The thing an IRI names. -/
def get (iri : String) : Service → Run (Except ServiceError Thing)
  | kind c => do return (← getEntity c iri).map Thing.ofEntity
  | type c handle => getThings c handle iri
  | introspection handle => getDescriptor handle iri

/-- The entities a request asks for. -/
def list (request : ListRequest) : Service → Run (Except ServiceError (List Entity))
  | kind c => listEntities c request
  | type c _ => return .error (.unsupported c.type.name "list_entities")
  | introspection handle => listDescriptors handle request

end Service

/-! ## Several services -/

/-- Services by their identifiers. -/
structure Services where
  table : SortedMap Service

namespace Services

def empty : Services := ⟨∅⟩

def contains (s : Services) (id : String) : Bool := s.table.contains id

/-- Register a service; its identifier must be free. -/
def register (s : Services) (service : Service) : Except BuildError Services :=
  if s.contains service.id then .error ⟨service.id, .duplicateService⟩
  else .ok ⟨s.table.insert service.id service⟩

def service? (s : Services) (id : String) : Option Service := s.table.get? id

def ids (s : Services) : List String := s.table.keys

def size (s : Services) : Nat := s.table.size

def isEmpty (s : Services) : Bool := s.table.isEmpty

/-- The part of an IRI in front of its first slash. -/
def head (iri : String) : String := String.ofList (Text.splitAll '/' iri.toList).1

/-- The identifier of the service that an IRI addresses. -/
def route (s : Services) (iri : String) : Except ServiceError String :=
  if s.contains (head iri) then .ok (head iri) else .error (.unknownService (head iri))

def get (s : Services) (id iri : String) : Run (Except ServiceError Thing) :=
  match s.service? id with
  | some service => service.get iri
  | none => return .error (.unknownService id)

def list (s : Services) (id : String) (request : ListRequest) :
    Run (Except ServiceError (List Entity)) :=
  match s.service? id with
  | some service => service.list request
  | none => return .error (.unknownService id)

/-- The names of the aspects or connectors behind a service. -/
def chain? (s : Services) (id : String) : Option (List String) :=
  (s.service? id).map Service.chainNames

/-- The number of aspects or connectors behind every service. -/
def chainLengths (s : Services) : List (String × Nat) :=
  s.table.entries.map fun (id, service) => (id, service.chainNames.length)

end Services

end EntityCatalog
