import EntityCatalog.Aspect
import EntityCatalog.Chain.Error
import EntityCatalog.Config

/-!
# Construction

What the connectors of a model become. A connector of a kind declares an aspect and a connector of a
type a thing connector. While a provider is built, objects of extensions are created and offered what
they may opt in to; `Construction` has a log of that, and the cells of handles.
-/

namespace EntityCatalog

/-- What happens to an object, which is told by its number. -/
inductive Event where
  | created (object : Nat)
  | accepted (object : Nat) (grant : Grant)

def Event.object : Event → Nat
  | created object => object
  | accepted object _ => object

/-- How far construction has come. -/
structure Construction where
  bindings : Bindings
  /-- How many objects there are. -/
  objects : Nat
  /-- What has happened to them, in this order. -/
  events : List Event

/-- A part of construction. -/
abbrev Building (ε : Type) := StateT Construction (Except ε)

namespace Building

variable {ε ε' α : Type}

/-- A part that cannot fail. -/
def ofState (m : StateM Construction α) : Building ε α := fun s => .ok (m s)

def mapError (f : ε → ε') (m : Building ε α) : Building ε' α := fun s => (m s).mapError f

end Building

namespace Construction

/-- Nothing is built yet. -/
def start : Construction := ⟨.empty, 0, []⟩

def newHandle : StateM Construction Handle := fun s =>
  let (handle, bindings) := s.bindings.make
  (handle, { s with bindings })

/-- Bind a handle, unless it is bound already. -/
def publish (handle : Handle) (types : TypeRegistry) : StateM Construction Unit := fun s =>
  ((), { s with bindings := (s.bindings.bind handle types).2 })

/-- A fresh object of an extension. -/
def create (x : AspectExtension) : StateM Construction AspectObject := fun s =>
  (⟨s.objects, x, []⟩, { s with objects := s.objects + 1, events := s.events ++ [.created s.objects] })

/-- Give an object something. -/
def accept (grant : Grant) (o : AspectObject) : StateM Construction AspectObject := fun s =>
  ({ o with grants := o.grants ++ [grant] },
    { s with events := s.events ++ [.accepted o.number grant] })

/-- Offer an object the repository. -/
def offerRepository (kinds : KindRepository) (o : AspectObject) : StateM Construction AspectObject :=
  if o.extension.repositoryAware o.grants then accept (.repository kinds) o else return o

/-- Offer an object a handle. -/
def offerProvider (handle : Handle) (o : AspectObject) : StateM Construction AspectObject :=
  if o.extension.providerAware o.grants then do
    let o ← accept (.provider handle ((← get).bindings.types? handle)) o
    match o.extension.binds o.grants with
    | some types => publish handle types
    | none => pure ()
    return o
  else return o

end Construction

/-- What connectors are built with. -/
structure BuildContext where
  kinds : KindRepository
  handle : Handle
  extensions : Extensions
  config : Config

namespace BuildContext

variable (cx : BuildContext)

/-- Offer an aspect the repository, then the handle. Only objects of extensions opt in to anything. -/
def inject : Aspect → StateM Construction Aspect
  | .extension o => do
    let o ← Construction.offerRepository cx.kinds o
    return .extension (← Construction.offerProvider cx.handle o)
  | a => return a

/-- The aspect a connector of a kind declares, before it is given anything. -/
def create : Connector → Building BuildFault Aspect
  | .error message => return .error message
  | .store root format => return .store ⟨root, format, cx.config.strict⟩
  | .remote endpoint =>
    match Remote.ofEndpoint endpoint with
    | .ok r => return .remote r
    | .error cause => throw (.connectorInit "remote" cause)
  | .extension name =>
    match cx.extensions.aspects.get? name with
    | some x => .ofState (Aspect.extension <$> Construction.create x)
    | none =>
      if cx.extensions.hasConnector name then throw (.extensionMismatch name .aspect)
      else throw (.unknownExtension name)
  | .unset => throw .unsetConnector

/-- The aspect a connector of a kind declares. -/
def aspect (c : Connector) : Building BuildFault Aspect := do
  Building.ofState (cx.inject (← cx.create c))

/-- The thing connector a connector of a type declares. -/
def connector : Connector → Except BuildFault ThingConnector
  | .error message => .error (.unsupported (Connector.error message).variant)
  | .store root format => .error (.unimplemented (Connector.store root format).variant)
  | .remote endpoint => .error (.unimplemented (Connector.remote endpoint).variant)
  | .extension name =>
    match cx.extensions.connectors.get? name with
    | some x => .ok x
    | none =>
      if cx.extensions.hasAspect name then .error (.extensionMismatch name .connector)
      else .error (.unknownExtension name)
  | .unset => .error .unsetConnector

end BuildContext

end EntityCatalog
