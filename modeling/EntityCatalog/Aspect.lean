import EntityCatalog.Aspect.Extension
import EntityCatalog.Aspect.Remote
import EntityCatalog.Aspect.Store
import EntityCatalog.Aspect.Template

/-!
# Aspects

The links of an entity kind's chain. Each aspect augments an entity in its turn and adds to the list
of entities of a kind. Three of them end every chain: links from templates, a timestamp for entities
without one, and a last look at the entity.
-/

namespace EntityCatalog

inductive Aspect where
  /-- Every request fails. -/
  | error (message : String)
  | store (store : Store)
  | remote (remote : Remote)
  | links (templates : List Template)
  | timestamp
  | validation
  | extension (object : AspectObject)

namespace Aspect

def name : Aspect → String
  | error _ => "error"
  | store _ => "fs"
  | remote _ => "remote"
  | links _ => "uri-template"
  | timestamp => "timestamp"
  | validation => "validation"
  | extension o => o.extension.name

/-- The descriptors that an aspect contributes. -/
def descriptors : Aspect → List Descriptor
  | timestamp => [Builtin.timestampDescriptor]
  | extension o => o.extension.descriptors o.grants
  | _ => []

/-- Whether an entity is of its kind and has everything that it must have. -/
def validate (kind : EntityKind) (e : Entity) : Except AspectError Unit :=
  if e.id.kind ≠ kind.id then .error (.invalid (.otherKind e.id kind.id))
  else if e.id.paths.length ≠ kind.paths.length then
    .error (.invalid (.pathCount e.id kind.id kind.paths.length))
  else if e.ts.isNone then .error (.invalid (.noTimestamp e.id))
  else .ok ()

/-- Give an entity without a timestamp the present one. -/
def stamp (e : Entity) : Run Entity :=
  match e.ts with
  | some _ => return e
  | none => return { e with ts := some (← Run.now) }

/-- What an extension may look at now. -/
def occasion (grants : List Grant) : Run Occasion := do
  return ⟨grants, (← Run.env).bindings, ← Run.journal⟩

def augment (kind : EntityKind) (e : Entity) : Aspect → Run (Attempt AspectError Entity)
  | error message => return .failure e (.injected message)
  | store s => s.augment e
  | remote r => r.augment e
  | links templates => return .success (Template.apply templates e)
  | timestamp => return .success (← stamp e)
  | validation => return .ofExcept e ((validate kind e).map fun _ => e)
  | extension o => do
    let seen ← occasion o.grants
    Run.note (.ask o.extension.name)
    return o.extension.augment seen kind e

def list (request : ListRequest) (kind : EntityKind) (before : List Entity) :
    Aspect → Run (Attempt AspectError (List Entity))
  | error message => return .failure before (.injected message)
  | store s => s.list kind before
  | remote r => r.list request kind before
  | links _ | timestamp | validation => return .success before
  | extension o => do
    let seen ← occasion o.grants
    Run.note (.ask o.extension.name)
    return o.extension.list seen request kind before

end Aspect

end EntityCatalog
