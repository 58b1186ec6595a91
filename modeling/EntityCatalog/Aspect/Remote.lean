import EntityCatalog.Aspect.Error
import EntityCatalog.Document.JsonText
import EntityCatalog.Request
import EntityCatalog.World

/-!
# Remotes

A remote answers two kinds of requests below its endpoint: `get` for one entity and `list` for the
entities of a kind. It answers 404 for an entity it does not know.
-/

namespace EntityCatalog

open Document
open Json (Value)

/-- An endpoint without blanks around it and without slashes at its end, behind a scheme. -/
def normalizeEndpoint (endpoint : String) : String :=
  let trimmed := Text.dropEndWhile (· = '/') (Text.trim endpoint.toList)
  if trimmed.isEmpty || Text.occursIn "://".toList trimmed then String.ofList trimmed
  else "http://" ++ String.ofList trimmed

structure Remote where
  endpoint : String
  deriving DecidableEq, Repr, Inhabited

namespace Remote

/-- The remote of a declared endpoint; there must be something to reach. -/
def ofEndpoint (endpoint : String) : Except AspectError Remote :=
  let normal := normalizeEndpoint endpoint
  if normal = "" then .error (.remote .emptyEndpoint) else .ok ⟨normal⟩

def url (r : Remote) (route : String) : String := r.endpoint ++ "/" ++ route

/-- The body of a successful answer; none when the remote does not know what is asked for. -/
def post (r : Remote) (route : String) (body : Value) :
    Run (Except AspectError (Option String)) := do
  let url := r.url route
  match ← Run.post ⟨url, body⟩ with
  | none => return .error (.remote (.transfer url))
  | some reply =>
    if reply.status = Status.notFound then return .ok none
    else if Status.isSuccess reply.status then return .ok (some reply.body)
    else return .error (.remote (.status reply.status url reply.body))

/-- Read the body of an answer. -/
def receive {α : Type} (read : Doc → Except Fault α) (body : String) : Except AspectError α :=
  (Doc.decode read body).mapError fun fault => .parse (.received fault)

/-- The report on an entity in a body; it must be on the entity that was asked for. -/
def reportOn (id : EntityId) (body : String) : Except AspectError Entity := do
  let report ← receive Entity.decode body
  if report.id ≠ id then throw (.remote (.otherEntity id report.id))
  return report

/-- Add to an entity what the remote says about it. -/
def augment (r : Remote) (e : Entity) : Run (Attempt AspectError Entity) := do
  match ← r.post "get" (.object [("id", e.id.encode)]) with
  | .error failure => return .failure e failure
  | .ok none => return .success e
  | .ok (some body) => return .ofExcept e ((reportOn e.id body).map e.merge)

/-- Append the entities of a kind that the remote lists; it may list others. -/
def list (r : Remote) (request : ListRequest) (kind : EntityKind) (before : List Entity) :
    Run (Attempt AspectError (List Entity)) := do
  match ← r.post "list" request.encode with
  | .error failure => return .failure before failure
  | .ok none => return .success before
  | .ok (some body) =>
    return .ofExcept before ((receive ListResponse.decode body).map fun response =>
      before ++ response.entities.filter (·.id.kind == kind.id))

end Remote

end EntityCatalog
