import EntityCatalog.Entity

/-!
# Requests and responses

A thing is asked for by its IRI, the entities of a kind by the kind and a filter, which gives
required values by name.
-/

namespace EntityCatalog

open Document
open Json (Value)

structure GetRequest where
  iri : String
  deriving DecidableEq, Repr, Inhabited

structure GetResponse where
  thing : Thing
  deriving Inhabited

structure ListRequest where
  kind : KindId
  filter : SortedMap String
  deriving DecidableEq, Repr, Inhabited

structure ListResponse where
  entities : List Entity
  deriving Inhabited

variable {ν : Type} [Source ν]

namespace GetRequest

def decode : ν → Except Fault GetRequest :=
  readRecord [.needed "iri" Source.text fun iri _ => ⟨iri⟩] false default

def encode (r : GetRequest) : Value := .object [("iri", .string r.iri)]

end GetRequest

namespace GetResponse

def decode : ν → Except Fault GetResponse :=
  readRecord [.needed "thing" Thing.decode fun thing _ => ⟨thing⟩] false default

def encode (r : GetResponse) : Value := .object [("thing", r.thing.encode)]

end GetResponse

namespace ListRequest

/-- A request for all entities of a kind. -/
def all (kind : KindId) : ListRequest := ⟨kind, ∅⟩

/-- Require a value. -/
def withFilter (r : ListRequest) (key value : String) : ListRequest :=
  { r with filter := r.filter.insert key value }

def decode : ν → Except Fault ListRequest :=
  readRecord
    [.needed "kind" KindId.decode fun kind r => { r with kind },
      .defaulted "filter" (readMap Source.text) fun filter r => { r with filter }]
    false (all default)

def encode (r : ListRequest) : Value :=
  .object (Entity.mapMember "filter" .string r.filter ++ [("kind", r.kind.encode)])

end ListRequest

namespace ListResponse

def decode : ν → Except Fault ListResponse :=
  readRecord [.needed "entities" (readList Entity.decode) fun entities _ => ⟨entities⟩] false
    default

def encode (r : ListResponse) : Value :=
  .object [("entities", .array (r.entities.map Entity.encode))]

end ListResponse

end EntityCatalog
