import EntityCatalog.Connector
import EntityCatalog.Ident

/-!
# Declarations

The two kinds of declarations of a model: entity kinds and types. Both list their connectors in the
order in which these are asked.
-/

namespace EntityCatalog

open Document
open Json (Value)

/-- A kind of entities. `paths` names the segments of its identifiers, `links` holds a template for
each link of an entity, `related` the kinds of related entities. -/
structure EntityKind where
  id : KindId
  label : Option String
  paths : List String
  links : SortedMap String
  related : SortedMap KindId
  connectors : List Connector
  deriving DecidableEq, Repr, Inhabited

/-- A type of things. -/
structure TypeDecl where
  name : String
  uri : Option String
  connectors : List Connector
  deriving DecidableEq, Repr, Inhabited

/-- A member that is written only when it has a value. -/
def optionalMember (name : String) (v : Option Value) : List (String × Value) :=
  (v.map fun v => (name, v)).toList

namespace EntityKind

/-- A kind with nothing but its identifier. -/
def bare (id : KindId) : EntityKind := ⟨id, none, [], ∅, ∅, []⟩

/-- The position of the segment with a name. -/
def pathIndex? (k : EntityKind) (name : String) : Option Nat := k.paths.findIdx? (· == name)

def fields {ν : Type} [Source ν] : List (Field ν EntityKind) :=
  [.needed "id" KindId.decode fun id k => { k with id },
    .defaulted "label" (readOptional Source.text) fun label k => { k with label },
    .defaulted "paths" (readList Source.text) fun paths k => { k with paths },
    .defaulted "links" (readMap Source.text) fun links k => { k with links },
    .defaulted "related" (readMap KindId.decode) fun related k => { k with related },
    .defaulted "connectors" (readList Connector.decode) fun connectors k => { k with connectors }]

def decode {ν : Type} [Source ν] : ν → Except Fault EntityKind :=
  readRecord fields false (bare default)

def encode (k : EntityKind) : Value :=
  .object ([("connectors", .array (k.connectors.map Connector.encode)), ("id", k.id.encode)] ++
    optionalMember "label" (k.label.map .string) ++
    [("links", .ofMap .string k.links), ("paths", .strings k.paths),
      ("related", .ofMap KindId.encode k.related)])

end EntityKind

namespace TypeDecl

/-- A type with nothing but its name. -/
def bare (name : String) : TypeDecl := ⟨name, none, []⟩

def fields {ν : Type} [Source ν] : List (Field ν TypeDecl) :=
  [.needed "name" Source.text fun name t => { t with name },
    .defaulted "uri" (readOptional Source.text) fun uri t => { t with uri },
    .defaulted "connectors" (readList Connector.decode) fun connectors t => { t with connectors }]

def decode {ν : Type} [Source ν] : ν → Except Fault TypeDecl :=
  readRecord fields false (bare "")

def encode (t : TypeDecl) : Value :=
  .object ([("connectors", .array (t.connectors.map Connector.encode)), ("name", .string t.name)] ++
    optionalMember "uri" (t.uri.map .string))

end TypeDecl

end EntityCatalog
