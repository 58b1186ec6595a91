import EntityCatalog.Aspect.Status
import EntityCatalog.Files.Tree
import EntityCatalog.Schema.Conformance

/-!
# Failures of aspects

Why an aspect fails on a request, and the messages. An extension reports causes of its own by their
texts.
-/

namespace EntityCatalog

open Document (Fault)

/-- Why an entity is not what its kind asks for. -/
inductive InvalidEntity where
  | escapes (id : EntityId) (segment : String)
  | otherKind (id : EntityId) (kind : KindId)
  | pathCount (id : EntityId) (kind : KindId) (expected : Nat)
  | noTimestamp (id : EntityId)
  | reported (text : String)
  deriving DecidableEq, Repr

def InvalidEntity.message : InvalidEntity → String
  | escapes id segment => id.text ++ ": segment '" ++ segment ++ "' escapes the store"
  | otherKind id kind => id.text ++ " is not of kind " ++ kind.text
  | pathCount id kind expected =>
    id.text ++ " has " ++ toString id.paths.length ++ " path segments, " ++ kind.text ++
      " expects " ++ toString expected
  | noTimestamp id => id.text ++ " has no timestamp"
  | reported text => text

/-- Why data cannot be read. -/
inductive Unreadable where
  | stored (path : FilePath) (fault : Fault)
  | received (fault : Fault)
  | reported (text : String)
  deriving DecidableEq, Repr

/-- What stands for a fault without a reason. -/
def unspecified : String := "<decode>"

def Unreadable.message : Unreadable → String
  | stored path fault => path.text ++ ": " ++ fault.reason?.getD unspecified
  | received _ => unspecified
  | reported text => text

/-- Why a remote fails. -/
inductive RemoteFault where
  | emptyEndpoint
  /-- No answer came back. -/
  | transfer (url : String)
  | status (code : Nat) (url body : String)
  | otherEntity (asked received : EntityId)
  | reported (text : String)
  deriving DecidableEq, Repr

def RemoteFault.message : RemoteFault → String
  | emptyEndpoint => "empty endpoint"
  | transfer url => url ++ ": <transport>"
  | status code url body => "HTTP " ++ Status.text code ++ " from " ++ url ++ ": " ++ body
  | otherEntity asked received => "asked for " ++ asked.text ++ ", received " ++ received.text
  | reported text => text

inductive AspectError where
  | injected (message : String)
  | notFound (text : String)
  | invalid (cause : InvalidEntity)
  | io (path : FilePath) (fault : IoFault)
  | parse (cause : Unreadable)
  | remote (cause : RemoteFault)
  | nonconforming (cause : MessageError)
  deriving DecidableEq, Repr

def AspectError.message : AspectError → String
  | injected message => "Injected error: " ++ message
  | notFound text => "Not found: " ++ text
  | invalid cause => "Invalid entity: " ++ cause.message
  | io path fault => "I/O error on " ++ path.text ++ ": " ++ fault.name
  | parse cause => "Parse error: " ++ cause.message
  | remote cause => "Remote error: " ++ cause.message
  | nonconforming cause => "Message check failed: " ++ cause.message

/-- What an attempt leaves behind, and why it failed if it did. -/
structure Attempt (ε α : Type) where
  left : α
  failure? : Option ε

namespace Attempt

variable {ε α : Type}

def success (a : α) : Attempt ε α := ⟨a, none⟩

def failure (a : α) (e : ε) : Attempt ε α := ⟨a, some e⟩

/-- What was there before, unless something else came of it. -/
def ofExcept (before : α) : Except ε α → Attempt ε α
  | .ok a => success a
  | .error e => failure before e

end Attempt

end EntityCatalog
