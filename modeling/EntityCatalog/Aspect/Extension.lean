import EntityCatalog.Aspect.Error
import EntityCatalog.Repository
import EntityCatalog.Request
import EntityCatalog.World

/-!
# Extensions

Aspects and thing connectors that are not built in. They are registered under names; a name that is
taken stays with its first extension. Every connector that names an aspect has an object of its own,
which may opt in to two grants while a chain is built: the repository of all kinds, and a handle on
the type registry.
-/

namespace EntityCatalog

/-- What an object is given. -/
inductive Grant where
  | repository (kinds : KindRepository)
  /-- A handle, and what it led to at that time. -/
  | provider (handle : Handle) (seen : Option TypeRegistry)

/-- What an extension may look at when it is asked. -/
structure Occasion where
  grants : List Grant
  bindings : Bindings
  journal : Journal

/-- An aspect from outside. What it leaves behind when it fails stays. It decides on a grant by those
that it was given before. -/
structure AspectExtension where
  name : String
  repositoryAware : List Grant → Bool
  providerAware : List Grant → Bool
  /-- The registry that it binds the handle to as it is given it. A handle is there to be looked at,
  but nothing keeps an extension from binding it. -/
  binds : List Grant → Option TypeRegistry := fun _ => none
  descriptors : List Grant → List Descriptor
  augment : Occasion → EntityKind → Entity → Attempt AspectError Entity
  list : Occasion → ListRequest → EntityKind → List Entity → Attempt AspectError (List Entity)

/-- An object of an extension, with what it was given. -/
structure AspectObject where
  number : Nat
  extension : AspectExtension
  grants : List Grant

/-- A connector that loads things for an IRI on top of those loaded before. -/
structure ThingConnector where
  name : String
  descriptors : List Descriptor
  load : Journal → String → TypeDecl → SortedMap Thing → Attempt AspectError (SortedMap Thing)

/-! ## Registration -/

/-- Extensions by their registered names. -/
structure Extensions where
  aspects : SortedMap AspectExtension
  connectors : SortedMap ThingConnector
  deriving Inhabited

namespace Extensions

def empty : Extensions := ⟨∅, ∅⟩

/-- Register an aspect. Answers whether the name was free. -/
def registerAspect (x : Extensions) (name : String) (a : AspectExtension) : Bool × Extensions :=
  if x.aspects.contains name then (false, x)
  else (true, { x with aspects := x.aspects.insert name a })

/-- Register a thing connector. Answers whether the name was free. -/
def registerConnector (x : Extensions) (name : String) (c : ThingConnector) : Bool × Extensions :=
  if x.connectors.contains name then (false, x)
  else (true, { x with connectors := x.connectors.insert name c })

def hasAspect (x : Extensions) (name : String) : Bool := x.aspects.contains name

def hasConnector (x : Extensions) (name : String) : Bool := x.connectors.contains name

end Extensions

end EntityCatalog
