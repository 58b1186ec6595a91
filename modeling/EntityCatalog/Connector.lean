import EntityCatalog.Document.Source

/-!
# Connector declarations

A connector says where the entities of a kind, or the things of a type, come from. In a document it
is a record with at most one of four keys. A key counts as set when it has a value; the key `error`
counts also without one, and then stands for an empty message. No key at all gives
`Connector.unset`, which is refused only when a chain is built.
-/

namespace EntityCatalog

open Document
open Json (Value)

/-- How stored entities are written. -/
inductive FileFormat where
  | yaml
  | json
  deriving DecidableEq, Repr, Inhabited

namespace FileFormat

/-- The name of the format, which is also the extension of its files. -/
def name : FileFormat → String
  | yaml => "yaml"
  | json => "json"

def decode {ν : Type} [Source ν] (n : ν) : Except Fault FileFormat := do
  let (name, content) ← Source.variant n
  match [yaml, json].find? (·.name == name) with
  | some format => content.map fun _ => format
  | none => throw (.unknownVariant name)

end FileFormat

inductive Connector where
  /-- Every request fails with a message. -/
  | error (message : String)
  /-- Entities are files below a root directory. -/
  | store (root : String) (format : FileFormat)
  /-- Requests go to an endpoint. -/
  | remote (endpoint : String)
  /-- An extension registered under a name. -/
  | extension (name : String)
  | unset
  deriving DecidableEq, Repr, Inhabited

namespace Connector

/-- The key that declares the connector. -/
def variant : Connector → String
  | error _ => "error"
  | store _ _ => "fs"
  | remote _ => "remote"
  | extension _ => "extension"
  | unset => "unset"

/-! ## Documents -/

/-- The keys of a connector as they are found. -/
structure Keys where
  error : Option String := none
  store : Option (String × FileFormat) := none
  remote : Option String := none
  extension : Option String := none

namespace Keys

/-- The keys that are set. -/
def names (k : Keys) : List String :=
  (k.error.map fun _ => "error").toList ++ (k.store.map fun _ => "fs").toList ++
    (k.remote.map fun _ => "remote").toList ++ (k.extension.map fun _ => "extension").toList

/-- The connector that the only key declares. -/
def connector (k : Keys) : Except Fault Connector :=
  match k with
  | ⟨none, none, none, none⟩ => .ok .unset
  | ⟨some message, none, none, none⟩ => .ok (.error message)
  | ⟨none, some (root, format), none, none⟩ => .ok (.store root format)
  | ⟨none, none, some endpoint, none⟩ => .ok (.remote endpoint)
  | ⟨none, none, none, some name⟩ => .ok (.extension name)
  | _ => .error (.ambiguous k.names)

end Keys

variable {ν : Type} [Source ν]

def decodeError : ν → Except Fault String :=
  readRecord [.defaulted "message" Source.text fun s _ => s] false ""

def decodeStore : ν → Except Fault (String × FileFormat) :=
  readRecord
    [.needed "path" Source.text fun root p => (root, p.2),
      .defaulted "format" FileFormat.decode fun format p => (p.1, format)]
    false ("", .yaml)

def keyFields : List (Field ν Keys) :=
  [.defaulted "error" (readOptional decodeError) fun message k =>
      { k with error := some (message.getD "") },
    .defaulted "fs" (readOptional decodeStore) fun store k => { k with store },
    .defaulted "remote" (readOptional Source.text) fun remote k => { k with remote },
    .defaulted "extension" (readOptional Source.text) fun extension k => { k with extension }]

def decode (n : ν) : Except Fault Connector := do
  (← readRecord keyFields true {} n).connector

def encode : Connector → Value
  | error message => .object [("error", .object [("message", .string message)])]
  | store root format =>
    .object [("fs", .object [("format", .string format.name), ("path", .string root)])]
  | remote endpoint => .object [("remote", .string endpoint)]
  | extension name => .object [("extension", .string name)]
  | unset => .object []

end Connector

end EntityCatalog
