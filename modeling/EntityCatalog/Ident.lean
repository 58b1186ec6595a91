import EntityCatalog.Document.Source
import EntityCatalog.Text

/-!
# Identifiers

A `KindId` names an entity kind by namespace and name, written `ns.name`; the namespace may hold
dots itself, so the text is cut at its last dot. An `EntityId` names one entity of a kind by
further path segments, written `ns.name/p1/p2`. Identifiers of documents are texts, and
`EntityId.le` puts them into ascending order.
-/

namespace EntityCatalog

open Document (Source Fault)
open Json (Value)

/-- A text that is no identifier. -/
structure InvalidId where
  text : String
  deriving DecidableEq, Repr

def InvalidId.message (e : InvalidId) : String := Document.badIdentifierText e.text

/-! ## Kinds -/

structure KindId where
  ns : String
  name : String
  deriving DecidableEq, Repr, Inhabited

namespace KindId

def text (k : KindId) : String := k.ns ++ "." ++ k.name

/-- The kind a text names: there is a namespace, a name, and no slash. -/
def parse (s : String) : Except InvalidId KindId :=
  match Text.splitLast '.' s.toList with
  | some (ns, name) =>
    if ns.isEmpty || name.isEmpty || s.toList.contains '/' then .error ⟨s⟩
    else .ok ⟨String.ofList ns, String.ofList name⟩
  | none => .error ⟨s⟩

def decode {ν : Type} [Source ν] (n : ν) : Except Fault KindId := do
  match parse (← Source.text n) with
  | .ok k => return k
  | .error e => throw (.badIdentifier e.text)

def encode (k : KindId) : Value := .string k.text

end KindId

/-! ## Entities -/

structure EntityId where
  kind : KindId
  paths : List String
  deriving DecidableEq, Repr, Inhabited

namespace EntityId

/-- Path segments behind a text, each after a slash. -/
def pathText (paths : List String) : String := String.join (paths.map ("/" ++ ·))

def text (e : EntityId) : String := e.kind.text ++ pathText e.paths

/-- A segment that names a place relative to another, or no place at all. -/
def isRelative (segment : String) : Bool := segment = "" || segment = "." || segment = ".."

/-- The entity a text names: a kind, then segments of which none is relative. -/
def parse (s : String) : Except InvalidId EntityId :=
  let (head, segments) := Text.splitAll '/' s.toList
  match KindId.parse (String.ofList head) with
  | .error _ => .error ⟨s⟩
  | .ok kind =>
    let paths := segments.map String.ofList
    if paths.any isRelative then .error ⟨s⟩ else .ok ⟨kind, paths⟩

def decode {ν : Type} [Source ν] (n : ν) : Except Fault EntityId := do
  match parse (← Source.text n) with
  | .ok e => return e
  | .error e => throw (.badIdentifier e.text)

def encode (e : EntityId) : Value := .string e.text

/-- The parts by which identifiers are compared, one after another. -/
def parts (e : EntityId) : List String := e.kind.ns :: e.kind.name :: e.paths

/-- Ascending order: by namespace, name and segments. -/
def le (a b : EntityId) : Bool := !decide (b.parts < a.parts)

def sort (ids : List EntityId) : List EntityId := ids.mergeSort le

end EntityId

/-- Ascending order: by namespace and name. -/
def KindId.le (a b : KindId) : Bool := EntityId.le ⟨a, []⟩ ⟨b, []⟩

end EntityCatalog
