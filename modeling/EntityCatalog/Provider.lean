import EntityCatalog.Service

/-!
# Providers

A provider has a service for every kind and every type of a model, one for descriptors, and the
type registry with what they all contribute. It is built as a whole or not at all: the first
declaration at fault decides the error. The handle is bound to the finished registry in the end,
unless an extension has bound it before.
-/

namespace EntityCatalog

structure Provider where
  services : Services
  types : TypeRegistry
  handle : Handle
  bindings : Bindings
  kinds : KindRepository

namespace Provider

/-- Services and contributed descriptors so far. -/
structure Draft where
  services : Services
  descriptors : TypeRegistry

/-- Add the service of a kind. -/
def addKind (cx : BuildContext) (d : Draft) (kind : EntityKind) : Building BuildError Draft := do
  let chain ← AspectChain.build cx kind
  let services ← d.services.register (.kind chain)
  return ⟨services, d.descriptors.add chain.descriptors⟩

/-- Add the service of a type. -/
def addType (cx : BuildContext) (d : Draft) (type : TypeDecl) : Building BuildError Draft := do
  let chain ← ConnectorChain.build cx type
  let services ← d.services.register (.type chain cx.handle)
  return ⟨services, d.descriptors.add chain.descriptors⟩

/-- The descriptors that no declaration can change. -/
def ownTypes : TypeRegistry := .ofList (Builtin.core ++ Builtin.introspection)

/-- The registry of what kinds and types have contributed. -/
def registry (ofKinds ofTypes : Draft) : TypeRegistry :=
  (ownTypes.merge ofKinds.descriptors).merge ofTypes.descriptors

def construct (kinds : KindRepository) (types : TypeRepository) (extensions : Extensions)
    (config : Config) : Building BuildError Provider := do
  let handle ← Building.ofState Construction.newHandle
  let cx : BuildContext := ⟨kinds, handle, extensions, config⟩
  let services ← Services.empty.register (.introspection handle)
  let ofKinds ← kinds.kinds.foldlM (addKind cx) ⟨services, ∅⟩
  let ofTypes ← types.types.foldlM (addType cx) ⟨ofKinds.services, ∅⟩
  Building.ofState (Construction.publish handle (registry ofKinds ofTypes))
  return ⟨ofTypes.services, registry ofKinds ofTypes, handle, (← get).bindings, kinds⟩

def build (kinds : KindRepository) (types : TypeRepository) (extensions : Extensions)
    (config : Config) : Except BuildError Provider :=
  (construct kinds types extensions config).run' .start

/-- What the services of a provider answer with. -/
def env (p : Provider) (world : World) : Env := ⟨world, p.bindings⟩

end Provider

end EntityCatalog
