import EntityCatalog.Aspect.Error
import EntityCatalog.Aspect.Template

/-!
# Errors of construction and of requests

A `BuildError` names the declaration that is at fault. A `ServiceError` is the failure of one
request.
-/

namespace EntityCatalog

/-- What an extension was expected to be. -/
inductive ExtensionRole where
  | aspect
  | connector
  deriving DecidableEq, Repr

def ExtensionRole.text : ExtensionRole → String
  | aspect => "an entity aspect"
  | connector => "a thing connector"

/-- What is wrong with a declaration. -/
inductive BuildFault where
  | unsetConnector
  | unknownExtension (name : String)
  | extensionMismatch (name : String) (expected : ExtensionRole)
  | unsupported (connector : String)
  | unimplemented (connector : String)
  | invalidTemplate (cause : TemplateError)
  | connectorInit (connector : String) (cause : AspectError)
  | duplicateService
  deriving DecidableEq, Repr

/-- A fault with the identifier of the kind, type or service it belongs to. -/
structure BuildError where
  id : String
  fault : BuildFault
  deriving DecidableEq, Repr

def BuildError.message (e : BuildError) : String :=
  match e.fault with
  | .unsetConnector => e.id ++ ": connector declares no variant"
  | .unknownExtension name => e.id ++ ": no extension registered as '" ++ name ++ "'"
  | .extensionMismatch name expected =>
    e.id ++ ": extension '" ++ name ++ "' is not " ++ expected.text
  | .unsupported connector => e.id ++ ": " ++ connector ++ " connector is not supported here"
  | .unimplemented connector =>
    e.id ++ ": " ++ connector ++ " connector is unimplemented for types"
  | .invalidTemplate cause => e.id ++ ": invalid link template: " ++ cause.message
  | .connectorInit connector cause =>
    e.id ++ ": failed to initialise " ++ connector ++ " connector: " ++ cause.message
  | .duplicateService => "Duplicate service identifier: " ++ e.id

/-- Why a service does not take a request. -/
inductive InvalidRequest where
  | malformedIri (iri : String)
  | otherKind (iri service : String)
  | misdirected (kind : KindId) (service : String)
  /-- An IRI that is not `service/name`. -/
  | noDescriptorIri (service iri : String)
  deriving DecidableEq, Repr

def InvalidRequest.message : InvalidRequest → String
  | malformedIri iri => "malformed entity IRI: " ++ iri
  | otherKind iri service => iri ++ " is not an entity of " ++ service
  | misdirected kind service => "listing " ++ kind.text ++ " sent to " ++ service
  | noDescriptorIri service iri => "expected " ++ service ++ "/<type name>, got " ++ iri

inductive ServiceError where
  | unknownService (id : String)
  | invalidRequest (cause : InvalidRequest)
  | unsupported (service operation : String)
  | aspect (service name : String) (cause : AspectError)
  | nonconforming (service : String) (cause : MessageError)
  | notFound (name : String)
  /-- The type registry is not there yet. -/
  | notReady
  deriving DecidableEq, Repr

def ServiceError.message : ServiceError → String
  | unknownService id => "Unknown service: " ++ id
  | invalidRequest cause => "Invalid request: " ++ cause.message
  | unsupported service operation => service ++ " does not support " ++ operation
  | aspect service name cause => service ++ ": " ++ name ++ " failed: " ++ cause.message
  | nonconforming service cause => service ++ ": " ++ cause.message
  | notFound name => "Not found: " ++ name
  | notReady => "Provider construction has not completed"

end EntityCatalog
