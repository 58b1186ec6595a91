import EntityCatalog.Schema.Descriptor

/-!
# Descriptors in every registry

The types that the library itself answers with: entities, things, declarations and descriptors,
and the well-known types among their fields.
-/

namespace EntityCatalog.Builtin

open FieldDescriptor (plain ofMessage ofMap)

def entity : String := "kindred.Entity"
def ident : String := "kindred.ID"
def thing : String := "kindred.Thing"
def entityKind : String := "kindred.EntityKind"
def type : String := "kindred.Type"
def descriptor : String := "kindred.Descriptor"
def fieldDescriptor : String := "kindred.FieldDescriptor"
def timestamp : String := "google.protobuf.Timestamp"
def any : String := "google.protobuf.Any"

def entityDescriptor : Descriptor :=
  ⟨entity, [plain "id" 1 .string, ofMessage "ts" 2 timestamp, ofMap "links" 3 none,
    ofMap "related" 4 none, plain "data" 5 .struct]⟩

def identDescriptor : Descriptor :=
  ⟨ident, [plain "ns" 1 .string, plain "entity" 2 .string, (plain "paths" 3 .string).asRepeated]⟩

def thingDescriptor : Descriptor :=
  ⟨thing, [plain "iri" 1 .string, ofMap "things" 2 (some any)]⟩

def entityKindDescriptor : Descriptor :=
  ⟨entityKind, [plain "id" 1 .string, plain "label" 2 .string,
    (plain "paths" 3 .string).asRepeated, ofMap "links" 4 none, ofMap "related" 5 none,
    (plain "connectors" 6 .struct).asRepeated]⟩

def typeDescriptor : Descriptor :=
  ⟨type, [plain "name" 1 .string, plain "uri" 2 .string,
    (plain "connectors" 3 .struct).asRepeated]⟩

def timestampDescriptor : Descriptor :=
  ⟨timestamp, [plain "seconds" 1 .int64, plain "nanos" 2 .int64]⟩

def anyDescriptor : Descriptor :=
  ⟨any, [plain "type_url" 1 .string, plain "value" 2 .struct]⟩

def descriptorDescriptor : Descriptor :=
  ⟨descriptor, [plain "full_name" 1 .string,
    (ofMessage "fields" 2 fieldDescriptor).asRepeated]⟩

def fieldDescriptorDescriptor : Descriptor :=
  ⟨fieldDescriptor, [plain "name" 1 .string, plain "number" 2 .int64, plain "kind" 3 .string,
    plain "repeated" 4 .bool, plain "type_name" 5 .string]⟩

/-- The types of entities, things and declarations. -/
def core : List Descriptor :=
  [entityDescriptor, identDescriptor, thingDescriptor, entityKindDescriptor, typeDescriptor,
    timestampDescriptor, anyDescriptor]

/-- The types of descriptors. -/
def introspection : List Descriptor := [descriptorDescriptor, fieldDescriptorDescriptor]

end EntityCatalog.Builtin
