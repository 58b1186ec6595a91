import EntityCatalog.Schema.Registry
import EntityCatalog.Schema.Descriptor

/-!
# Conformance of things

`TypeRegistry.check` walks the value of a thing along the descriptors of a registry and reports the
first violation: the members of an object in ascending order, the items of an array in turn, each
before the next is looked at. Null is in place everywhere. A field of a message type constrains
only objects, so that a timestamp may also be written as a text.
-/

namespace EntityCatalog

open Json (Value Number)

/-- Why a thing does not conform. -/
inductive MessageError where
  | unknownType (name : String)
  | notAnObject (typeName path : String)
  | unknownField (typeName field : String)
  | wrongKind (typeName field : String) (expected : FieldKind)
  deriving DecidableEq, Repr

def MessageError.message : MessageError → String
  | unknownType name => "Unknown type: " ++ name
  | notAnObject typeName path => "Value of " ++ typeName ++ " at '" ++ path ++ "' is not an object"
  | unknownField typeName field => "Field '" ++ field ++ "' is not declared by " ++ typeName
  | wrongKind typeName field expected =>
    "Field '" ++ field ++ "' of " ++ typeName ++ " should be " ++ expected.title

/-- Whether a value that is no message fits a kind. -/
def FieldKind.fits : FieldKind → Value → Bool
  | string, .string _ | bytes, .string _ => true
  | bool, .bool _ => true
  | int64, .number (.int _) | int64, .string _ => true
  | double, .number _ => true
  | struct, _ | message, _ => true
  | map, .object _ => true
  | _, _ => false

namespace TypeRegistry

/-- The descriptor of a type name. -/
def resolve (r : TypeRegistry) (name : String) : Except MessageError Descriptor :=
  match r.find? name with
  | some d => .ok d
  | none => .error (.unknownType name)

/-- A value that is no object is no message. -/
def checkPlain (owner : Descriptor) (field : FieldDescriptor) (v : Value) :
    Except MessageError Unit :=
  if v.isNull || field.kind.fits v then .ok ()
  else .error (.wrongKind owner.fullName field.name field.kind)

mutual

/-- Check a value against a descriptor. -/
def checkMessage (r : TypeRegistry) (d : Descriptor) (path : String) :
    Value → Except MessageError Unit
  | .object members => checkMembers r d path members
  | _ => .error (.notAnObject d.fullName path)

/-- Check the members of a message. -/
def checkMembers (r : TypeRegistry) (d : Descriptor) (path : String) :
    List (String × Value) → Except MessageError Unit
  | [] => .ok ()
  | (name, v) :: rest =>
    match d.field? name with
    | none => .error (.unknownField d.fullName name)
    | some field => do
      if field.repeated then
        match v with
        | .array items => checkItems r d field (path ++ "/" ++ name) 0 items
        | _ => .error (.wrongKind d.fullName field.name field.kind)
      else checkField r d field (path ++ "/" ++ name) v
      checkMembers r d path rest

/-- Check the items of a repeated field, from position `i` on. -/
def checkItems (r : TypeRegistry) (d : Descriptor) (field : FieldDescriptor) (path : String)
    (i : Nat) : List Value → Except MessageError Unit
  | [] => .ok ()
  | v :: rest => do
    checkField r d field (path ++ "/" ++ toString i) v
    checkItems r d field path (i + 1) rest

/-- Check one value of a field. -/
def checkField (r : TypeRegistry) (d : Descriptor) (field : FieldDescriptor) (path : String) :
    Value → Except MessageError Unit
  | .object members =>
    match field.kind, field.typeName with
    | .message, some typeName => do checkMembers r (← r.resolve typeName) path members
    | .map, some typeName => do checkEntries r (← r.resolve typeName) path members
    | _, _ => checkPlain d field (.object members)
  | v => checkPlain d field v

/-- Check the values of a map of messages; those that are no objects are in place. -/
def checkEntries (r : TypeRegistry) (d : Descriptor) (path : String) :
    List (String × Value) → Except MessageError Unit
  | [] => .ok ()
  | (name, v) :: rest => do
    match v with
    | .object members => checkMembers r d (path ++ "/" ++ name) members
    | _ => .ok ()
    checkEntries r d path rest

end

/-- Check a thing against the descriptor of its type. -/
def check (r : TypeRegistry) (t : Thing) : Except MessageError Unit :=
  match r.ofUrl? t.url with
  | some d => r.checkMessage d "" t.value
  | none => .error (.unknownType t.url)

end TypeRegistry

end EntityCatalog
