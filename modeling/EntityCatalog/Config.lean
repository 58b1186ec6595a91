import EntityCatalog.Document.Yaml.Reader

/-!
# Configuration

Settings of the connectors: how long a request to a remote may take, and whether a store must have
a file for every entity asked for.
-/

namespace EntityCatalog

open Document
open Json (Value)

structure Config where
  /-- Milliseconds. -/
  timeout : Nat
  strict : Bool
  deriving DecidableEq, Repr

namespace Config

/-- Ten seconds, and files may be missing. -/
def standard : Config := ⟨10000, false⟩

instance : Inhabited Config := ⟨standard⟩

variable {ν : Type} [Source ν]

/-- The largest number of milliseconds. -/
def maxTimeout : Nat := Nat.pow 2 64 - 1

def remoteFields : List (Field ν Nat) :=
  [.defaulted "timeout_ms" (Source.nat maxTimeout) fun timeout _ => timeout]

def storeFields : List (Field ν Bool) :=
  [.defaulted "strict" Source.bool fun strict _ => strict]

/-- Read a configuration; settings that are not there have their standard values. -/
def decode : ν → Except Fault Config :=
  readRecord
    [.defaulted "remote" (readRecord remoteFields false standard.timeout) fun timeout c =>
        { c with timeout },
      .defaulted "filestore" (readRecord storeFields false standard.strict) fun strict c =>
        { c with strict }]
    false standard

/-- The configuration that a YAML text gives. -/
def parse (text : String) : Except Fault Config := Yaml.Tree.decode decode text

def encode (c : Config) : Value :=
  .object [("filestore", .object [("strict", .bool c.strict)]),
    ("remote", .object [("timeout_ms", .nat c.timeout)])]

/-- The configuration as a YAML text. -/
def text (c : Config) : String :=
  "remote:\n  timeout_ms: " ++ toString c.timeout ++ "\nfilestore:\n  strict: " ++
    (if c.strict then "true" else "false") ++ "\n"

end Config

end EntityCatalog
