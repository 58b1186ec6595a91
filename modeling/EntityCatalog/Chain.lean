import EntityCatalog.Construction

/-!
# Chains

The chain of an entity kind has an aspect for every declared connector, in the order of declaration,
then the three that end every chain. An entity passes the aspects one after another up to the first
that fails. Discovery asks them all, and folds the reports on one entity into the first of them.

The chain of a type has its thing connectors, which are all extensions. Each loads things on top of
those that are there.
-/

namespace EntityCatalog

/-! ## Kinds -/

structure AspectChain where
  kind : EntityKind
  aspects : List Aspect

namespace AspectChain

/-- The aspects that end the chain of a kind. -/
def closing (kind : EntityKind) : Except BuildFault (List Aspect) :=
  match Template.compileAll kind with
  | .ok templates => .ok [.links templates, .timestamp, .validation]
  | .error cause => .error (.invalidTemplate cause)

def build (cx : BuildContext) (kind : EntityKind) : Building BuildError AspectChain :=
  Building.mapError (BuildError.mk kind.id.text) do
    let declared ← kind.connectors.mapM cx.aspect
    return ⟨kind, declared ++ (← closing kind)⟩

def size (c : AspectChain) : Nat := c.aspects.length

def names (c : AspectChain) : List String := c.aspects.map Aspect.name

def descriptors (c : AspectChain) : List Descriptor := c.aspects.flatMap Aspect.descriptors

/-- The failure of an aspect as a failure of the service. -/
def failure (kind : EntityKind) (a : Aspect) (cause : AspectError) : ServiceError :=
  .aspect kind.id.text a.name cause

/-- Pass an entity through aspects. -/
def pass (kind : EntityKind) : List Aspect → Entity → Run (Attempt ServiceError Entity)
  | [], e => return .success e
  | a :: rest, e => do
    match ← a.augment kind e with
    | ⟨e, some cause⟩ => return .failure e (failure kind a cause)
    | ⟨e, none⟩ => pass kind rest e

def augment (c : AspectChain) (e : Entity) : Run (Attempt ServiceError Entity) :=
  pass c.kind c.aspects e

/-- Gather the reports of aspects. -/
def gather (kind : EntityKind) (request : ListRequest) :
    List Aspect → List Entity → Run (Except ServiceError (List Entity))
  | [], reports => return .ok reports
  | a :: rest, reports => do
    match ← a.list request kind reports with
    | ⟨_, some cause⟩ => return .error (failure kind a cause)
    | ⟨reports, none⟩ => gather kind request rest reports

/-- Add a report to the entity it is on, or as a new entity at the end. -/
def report (e : Entity) : List Entity → List Entity
  | [] => [e]
  | first :: rest => if first.id = e.id then first.merge e :: rest else first :: report e rest

/-- One entity for each identifier, in the order of the first reports. -/
def group (reports : List Entity) : List Entity := reports.foldl (fun found e => report e found) []

/-- The entities that the chain knows of. -/
def discover (c : AspectChain) (request : ListRequest) :
    Run (Except ServiceError (List Entity)) := do
  return (← gather c.kind request c.aspects []).map group

end AspectChain

/-! ## Types -/

structure ConnectorChain where
  type : TypeDecl
  connectors : List ThingConnector

namespace ConnectorChain

def build (cx : BuildContext) (type : TypeDecl) : Except BuildError ConnectorChain :=
  match type.connectors.mapM cx.connector with
  | .ok connectors => .ok ⟨type, connectors⟩
  | .error fault => .error ⟨type.name, fault⟩

def size (c : ConnectorChain) : Nat := c.connectors.length

def names (c : ConnectorChain) : List String := c.connectors.map ThingConnector.name

def descriptors (c : ConnectorChain) : List Descriptor :=
  c.connectors.flatMap ThingConnector.descriptors

/-- Load things from connectors. -/
def loadFrom (type : TypeDecl) (iri : String) :
    List ThingConnector → SortedMap Thing → Run (Except ServiceError (SortedMap Thing))
  | [], things => return .ok things
  | c :: rest, things => do
    let seen ← Run.journal
    Run.note (.ask c.name)
    match c.load seen iri type things with
    | ⟨_, some cause⟩ => return .error (.aspect type.name c.name cause)
    | ⟨things, none⟩ => loadFrom type iri rest things

/-- The things that the connectors load for an IRI. -/
def load (c : ConnectorChain) (iri : String) : Run (Except ServiceError (SortedMap Thing)) :=
  loadFrom c.type iri c.connectors ∅

end ConnectorChain

end EntityCatalog
