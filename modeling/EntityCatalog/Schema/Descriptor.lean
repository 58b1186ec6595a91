import EntityCatalog.Declaration

/-!
# Descriptors and things

A descriptor lists the fields of a message type. Fields are looked up by name, and of several
fields with one name the first counts. A thing is a value under the URL of its type.
-/

namespace EntityCatalog

open Document
open Json (Value)

/-- What the value of a field is. -/
inductive FieldKind where
  | string
  | bool
  | int64
  | double
  | bytes
  /-- Free data. -/
  | struct
  /-- A message of a type that the field names. -/
  | message
  /-- A map from texts, to messages of a type if the field names one. -/
  | map
  deriving DecidableEq, Repr, Inhabited

namespace FieldKind

/-- The name in error messages and fingerprints. -/
def title : FieldKind → String
  | string => "String"
  | bool => "Bool"
  | int64 => "Int64"
  | double => "Double"
  | bytes => "Bytes"
  | struct => "Struct"
  | message => "Message"
  | map => "Map"

/-- The name in documents. -/
def name : FieldKind → String
  | string => "string"
  | bool => "bool"
  | int64 => "int64"
  | double => "double"
  | bytes => "bytes"
  | struct => "struct"
  | message => "message"
  | map => "map"

def all : List FieldKind := [string, bool, int64, double, bytes, struct, message, map]

def decode {ν : Type} [Source ν] (n : ν) : Except Fault FieldKind := do
  let (name, content) ← Source.variant n
  match all.find? (·.name == name) with
  | some kind => content.map fun _ => kind
  | none => throw (.unknownVariant name)

end FieldKind

/-- A field of a message. `typeName` is the type of a nested message, or of the values of a map. -/
structure FieldDescriptor where
  name : String
  number : UInt32
  kind : FieldKind
  repeated : Bool
  typeName : Option String
  deriving DecidableEq, Repr, Inhabited

namespace FieldDescriptor

/-- A single field without a type name. -/
def plain (name : String) (number : UInt32) (kind : FieldKind) : FieldDescriptor :=
  ⟨name, number, kind, false, none⟩

def ofMessage (name : String) (number : UInt32) (typeName : String) : FieldDescriptor :=
  { plain name number .message with typeName := some typeName }

def ofMap (name : String) (number : UInt32) (typeName : Option String) : FieldDescriptor :=
  { plain name number .map with typeName }

def asRepeated (f : FieldDescriptor) : FieldDescriptor := { f with repeated := true }

/-- The largest field number. -/
def maxNumber : Nat := Nat.pow 2 32 - 1

def fields {ν : Type} [Source ν] : List (Field ν FieldDescriptor) :=
  [.needed "name" Source.text fun name f => { f with name },
    .needed "number" (Source.nat maxNumber) fun number f => { f with number := number.toUInt32 },
    .needed "kind" FieldKind.decode fun kind f => { f with kind },
    .defaulted "repeated" Source.bool fun repeated f => { f with repeated },
    .defaulted "type_name" (readOptional Source.text) fun typeName f => { f with typeName }]

def decode {ν : Type} [Source ν] : ν → Except Fault FieldDescriptor :=
  readRecord fields false (plain "" 0 .string)

def encode (f : FieldDescriptor) : Value :=
  .object ([("kind", .string f.kind.name), ("name", .string f.name),
      ("number", .nat f.number.toNat), ("repeated", .bool f.repeated)] ++
    optionalMember "type_name" (f.typeName.map .string))

end FieldDescriptor

/-- The type URL of a type name. -/
def typeUrl (name : String) : String := "type.googleapis.com/" ++ name

/-- The type name in a type URL: what follows its last slash. -/
def typeNameOf (url : String) : String :=
  match Text.splitLast '/' url.toList with
  | some (_, name) => String.ofList name
  | none => url

structure Descriptor where
  fullName : String
  fields : List FieldDescriptor
  deriving DecidableEq, Repr, Inhabited

namespace Descriptor

def typeUrl (d : Descriptor) : String := EntityCatalog.typeUrl d.fullName

def field? (d : Descriptor) (name : String) : Option FieldDescriptor :=
  d.fields.find? (·.name == name)

def memberFields {ν : Type} [Source ν] : List (Field ν Descriptor) :=
  [.needed "full_name" Source.text fun fullName d => { d with fullName },
    .defaulted "fields" (readList FieldDescriptor.decode) fun fields d => { d with fields }]

def decode {ν : Type} [Source ν] : ν → Except Fault Descriptor :=
  readRecord memberFields false ⟨"", []⟩

def encode (d : Descriptor) : Value :=
  .object [("fields", .array (d.fields.map FieldDescriptor.encode)), ("full_name", .string d.fullName)]

end Descriptor

/-! ## Things -/

structure Thing where
  url : String
  value : Value
  deriving Repr, Inhabited

namespace Thing

/-- A value under the URL of a type name. -/
def pack (typeName : String) (value : Value) : Thing := ⟨typeUrl typeName, value⟩

def fullName (t : Thing) : String := typeNameOf t.url

def fields {ν : Type} [Source ν] : List (Field ν Thing) :=
  [.needed "type_url" Source.text fun url t => { t with url },
    .needed "value" Source.data fun value t => { t with value }]

def decode {ν : Type} [Source ν] : ν → Except Fault Thing := readRecord fields false default

def encode (t : Thing) : Value := .object [("type_url", .string t.url), ("value", t.value)]

end Thing

end EntityCatalog
