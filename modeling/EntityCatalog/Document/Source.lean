import EntityCatalog.Json.Value

/-!
# Reading documents

`Source` is what a reader may ask of a node of a document, whatever the format: its text, its
items, its entries, and so on. `readRecord` reads a record from the entries of a node in the order
of the document, so that of several faults the first one is reported; faults of fields that are
not there come last.
-/

namespace EntityCatalog.Document

open Json (Value)

/-! ## Faults -/

/-- Why a document cannot be read as a value of the model. -/
inductive Fault where
  /-- A text is no identifier of the kind wanted. -/
  | badIdentifier (text : String)
  /-- A connector sets more than one variant. -/
  | ambiguous (variants : List String)
  | missingField (name : String)
  | unknownField (name : String)
  | duplicateField (name : String)
  | unknownVariant (name : String)
  /-- A value of another type than wanted. -/
  | wrongType
  /-- A value of the type wanted, but none of those allowed. -/
  | wrongValue
  /-- Broken syntax, or a text that is no timestamp. -/
  | malformed
  deriving DecidableEq, Repr

/-- The part of a quoted name that is reported: it ends at the first closing quote. -/
def quoted (name : String) : String :=
  "\x60" ++ String.ofList (name.toList.takeWhile (· ≠ '\x60')) ++ "\x60"

def badIdentifierText (text : String) : String := "Invalid identifier: " ++ text

def ambiguousText (variants : List String) : String :=
  "Connector declares more than one variant: " ++ String.intercalate ", " variants

/-- The reported reason; broken syntax has none. -/
def Fault.reason? : Fault → Option String
  | badIdentifier text => some (badIdentifierText text)
  | ambiguous variants => some (ambiguousText variants)
  | missingField name => some ("missing field " ++ quoted name)
  | unknownField name => some ("unknown field " ++ quoted name)
  | duplicateField name => some ("duplicate field " ++ quoted name)
  | unknownVariant name => some ("unknown variant " ++ quoted name)
  | wrongType => some "invalid type"
  | wrongValue => some "invalid value"
  | malformed => none

/-! ## Nodes -/

/-- The questions a reader puts to a node. Each is answered for the type that the reader wants, so
one node may answer several of them. -/
class Source (ν : Type) where
  text : ν → Except Fault String
  bool : ν → Except Fault Bool
  /-- A natural number up to the given one. -/
  nat : Nat → ν → Except Fault Nat
  /-- No node where the value is left open. -/
  optional : ν → Except Fault (Option ν)
  items : ν → Except Fault (List ν)
  /-- The keys of a mapping with their values, in the order of the document. -/
  entries : ν → Except Fault (List (ν × ν))
  /-- The fields of a record without their names, for a format that allows it. -/
  positions? : ν → Option (List ν)
  /-- The name of a variant, and whether nothing stands beside the name. -/
  variant : ν → Except Fault (String × Except Fault Unit)
  data : ν → Except Fault Value
  /-- Pass over a node whose value is not wanted. -/
  skip : ν → Except Fault Unit

variable {ν : Type} [Source ν]

/-- Read every item of a list. -/
def readList {α : Type} (read : ν → Except Fault α) (n : ν) : Except Fault (List α) := do
  (← Source.items n).mapM read

/-- Read a mapping; of equal keys the last wins. -/
def readMap {α : Type} (read : ν → Except Fault α) (n : ν) : Except Fault (SortedMap α) := do
  let pairs ← (← Source.entries n).mapM fun (k, v) => do
    let key ← Source.text k
    return (key, ← read v)
  return SortedMap.ofList pairs

/-- Read a value that may be left open. -/
def readOptional {α : Type} (read : ν → Except Fault α) (n : ν) : Except Fault (Option α) := do
  match ← Source.optional n with
  | none => return none
  | some m => return some (← read m)

/-! ## Records -/

/-- A field of a record under construction: `read` puts the value of a node into the record. -/
structure Field (ν ρ : Type) where
  name : String
  required : Bool
  read : ν → ρ → Except Fault ρ

/-- A field that must be there. -/
def Field.needed {ρ α : Type} (name : String) (read : ν → Except Fault α) (put : α → ρ → ρ) :
    Field ν ρ :=
  ⟨name, true, fun n r => (read n).map fun a => put a r⟩

/-- A field that keeps its default when it is not there. -/
def Field.defaulted {ρ α : Type} (name : String) (read : ν → Except Fault α) (put : α → ρ → ρ) :
    Field ν ρ :=
  ⟨name, false, fun n r => (read n).map fun a => put a r⟩

/-- Read the entries of a record one after another. `seen` holds the names met so far. -/
def readEntries {ρ : Type} (fields : List (Field ν ρ)) (closed : Bool) :
    List (ν × ν) → List String → ρ → Except Fault (List String × ρ)
  | [], seen, r => .ok (seen, r)
  | (k, v) :: rest, seen, r => do
    let name ← Source.text k
    match fields.find? (·.name == name) with
    | some field =>
      if name ∈ seen then throw (.duplicateField name)
      let r ← field.read v r
      readEntries fields closed rest (name :: seen) r
    | none =>
      if closed then throw (.unknownField name)
      Source.skip v
      readEntries fields closed rest seen r

/-- Read the fields of a record by their positions. -/
def readPositions {ρ : Type} : List (Field ν ρ) → List ν → ρ → Except Fault ρ
  | [], [], r => .ok r
  | [], _ :: _, _ => .error .malformed
  | field :: fields, [], r => if field.required then .error .malformed else readPositions fields [] r
  | field :: fields, n :: rest, r => do readPositions fields rest (← field.read n r)

/-- Read a record that starts out as `blank`. A `closed` record has no other fields. -/
def readRecord {ρ : Type} (fields : List (Field ν ρ)) (closed : Bool) (blank : ρ) (n : ν) :
    Except Fault ρ :=
  match Source.positions? n with
  | some nodes => readPositions fields nodes blank
  | none => do
    let (seen, r) ← readEntries fields closed (← Source.entries n) [] blank
    match fields.find? fun field => field.required && !seen.contains field.name with
    | some field => throw (.missingField field.name)
    | none => return r

/-! ## JSON values -/

/-- A node read as a natural number up to `bound`. -/
def natOf (bound : Nat) : Value → Except Fault Nat
  | .number (.int i) => if 0 ≤ i ∧ i ≤ bound then .ok i.toNat else .error .wrongValue
  | _ => .error .wrongType

instance : Source Value where
  text
    | .string s => .ok s
    | _ => .error .wrongType
  bool
    | .bool b => .ok b
    | _ => .error .wrongType
  nat := natOf
  optional
    | .null => .ok none
    | v => .ok (some v)
  items
    | .array items => .ok items
    | _ => .error .wrongType
  entries
    | .object members => .ok (members.map fun p => (.string p.1, p.2))
    | _ => .error .wrongType
  positions?
    | .array items => some items
    | _ => none
  variant
    | .string s => .ok (s, .ok ())
    | .object [(name, .null)] => .ok (name, .ok ())
    | .object [(name, _)] => .ok (name, .error .wrongType)
    | .object _ => .error .wrongValue
    | _ => .error .wrongType
  data v := .ok v
  skip _ := .ok ()

end EntityCatalog.Document
