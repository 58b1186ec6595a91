import EntityCatalog.Declaration
import EntityCatalog.Json.Value
import EntityCatalog.Schema.Builtin
import EntityCatalog.Schema.Descriptor
import EntityCatalog.Time.Instant

/-!
# Entities

An entity has an identifier, and beside it what has been found out about it so far: a timestamp,
links, related entities and free data. `Entity.merge` adds what another report says.
-/

namespace EntityCatalog

open Document
open Json (Value)
open Time (Instant)

structure Entity where
  id : EntityId
  ts : Option Instant
  links : SortedMap String
  related : SortedMap EntityId
  data : Value
  deriving Inhabited

namespace Entity

/-- An entity of which only the identifier is known. -/
def bare (id : EntityId) : Entity := ⟨id, none, ∅, ∅, .null⟩

/-- Free data with a report's data on top: null adds nothing, the members of an object go one by one
into an object, and anything else takes the place of what is there. -/
def mergeData : Value → Value → Value
  | mine, .null => mine
  | .object mine, .object theirs => .object (Assoc.insertAll mine theirs)
  | _, theirs => theirs

/-- Add a report on the same entity. Where both say something, the report decides. -/
def merge (e report : Entity) : Entity :=
  { id := e.id
    ts := report.ts.or e.ts
    links := e.links.override report.links
    related := e.related.override report.related
    data := mergeData e.data report.data }

/-- The text in the data that a pointer leads to. -/
def string? (e : Entity) (pointer : String) : Option String :=
  (e.data.pointer? pointer).bind Value.string?

/-! ## Documents -/

/-- A timestamp. -/
def decodeInstant {ν : Type} [Source ν] (n : ν) : Except Fault Instant := do
  match Instant.parse? (← Source.text n) with
  | some t => return t
  | none => throw .malformed

/-- The fields beside the identifier. -/
def bodyFields {ν : Type} [Source ν] : List (Field ν Entity) :=
  [.defaulted "ts" (readOptional decodeInstant) fun ts e => { e with ts },
    .defaulted "links" (readMap Source.text) fun links e => { e with links },
    .defaulted "related" (readMap EntityId.decode) fun related e => { e with related },
    .defaulted "data" Source.data fun data e => { e with data }]

def decode {ν : Type} [Source ν] : ν → Except Fault Entity :=
  readRecord (.needed "id" EntityId.decode (fun id e => { e with id }) :: bodyFields) false
    (bare default)

/-- Read what is stored about an entity; its identifier is not written there. -/
def decodeStored {ν : Type} [Source ν] (id : EntityId) : ν → Except Fault Entity :=
  readRecord bodyFields true (bare id)

/-- A map that is written only when it has entries. -/
def mapMember {α : Type} (name : String) (f : α → Value) (m : SortedMap α) :
    List (String × Value) :=
  if m.isEmpty then [] else [(name, .ofMap f m)]

def encode (e : Entity) : Value :=
  .object ((if e.data.isNull then [] else [("data", e.data)]) ++
    [("id", e.id.encode)] ++
    mapMember "links" .string e.links ++
    mapMember "related" EntityId.encode e.related ++
    optionalMember "ts" (e.ts.map fun t => .string t.text))

end Entity

/-- An entity as a thing. -/
def Thing.ofEntity (e : Entity) : Thing := .pack Builtin.entity e.encode

end EntityCatalog
