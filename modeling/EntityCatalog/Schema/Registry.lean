import EntityCatalog.Hash.Sha256
import EntityCatalog.Schema.Descriptor

/-!
# The type registry

Descriptors by their full names. The first descriptor of a name stays: `insert` leaves a name that
is taken as it is, and `merge` takes from the second registry only what the first does not have.

The fingerprint of a registry is the hash of its descriptors in the order of their names. A
descriptor contributes its name, then for every field the name, the number in four bytes with the
highest first, the title of the kind, a byte that tells whether it is repeated, and the type name if
there is one.
-/

namespace EntityCatalog

/-- Descriptors, each stored under its own name. -/
structure TypeRegistry where
  table : SortedMap Descriptor
  named : ∀ name d, table.get? name = some d → d.fullName = name
  deriving DecidableEq

namespace TypeRegistry

def empty : TypeRegistry := ⟨∅, fun _ _ h => nomatch h⟩

instance : EmptyCollection TypeRegistry := ⟨empty⟩
instance : Inhabited TypeRegistry := ⟨empty⟩

def find? (r : TypeRegistry) (name : String) : Option Descriptor := r.table.get? name

def contains (r : TypeRegistry) (name : String) : Bool := (r.find? name).isSome

/-- The descriptor that a type URL leads to. -/
def ofUrl? (r : TypeRegistry) (url : String) : Option Descriptor := r.find? (typeNameOf url)

/-- Add a descriptor unless its name is taken. -/
def insert (r : TypeRegistry) (d : Descriptor) : TypeRegistry :=
  if r.contains d.fullName then r
  else
    ⟨r.table.insert d.fullName d, fun name e h => by
      rw [SortedMap.get?_insert] at h
      split at h
      · simp_all
      · exact r.named name e h⟩

/-- Add descriptors one after another. -/
def add (r : TypeRegistry) (ds : List Descriptor) : TypeRegistry := ds.foldl insert r

def ofList (ds : List Descriptor) : TypeRegistry := empty.add ds

/-- All descriptors, in ascending order of their names. -/
def descriptors (r : TypeRegistry) : List Descriptor := r.table.values

/-- Both registries together; the first has precedence. -/
def merge (r s : TypeRegistry) : TypeRegistry := r.add s.descriptors

def names (r : TypeRegistry) : List String := r.table.keys

def size (r : TypeRegistry) : Nat := r.table.size

def isEmpty (r : TypeRegistry) : Bool := r.table.isEmpty

theorem find?_insert (r : TypeRegistry) (d : Descriptor) (name : String) :
    (r.insert d).find? name =
      (r.find? name).or (if name = d.fullName then some d else none) := by
  unfold insert contains
  by_cases h : (r.find? d.fullName).isSome
  · rw [if_pos h]
    by_cases hn : name = d.fullName
    · subst hn
      obtain ⟨e, he⟩ := Option.isSome_iff_exists.1 h
      simp [he]
    · simp [hn]
  · rw [if_neg h]
    show (r.table.insert d.fullName d).get? name = _
    rw [SortedMap.get?_insert]
    by_cases hn : name = d.fullName
    · subst hn
      have : r.find? d.fullName = none := by simpa using h
      simp [this]
    · simp [hn, find?]

theorem ext_find? {r s : TypeRegistry} (h : ∀ name, r.find? name = s.find? name) : r = s := by
  obtain ⟨t, ht⟩ := r
  obtain ⟨u, hu⟩ := s
  have : t = u := SortedMap.ext_get? h
  subst this
  rfl

end TypeRegistry

/-! ## Fingerprints -/

/-- The bytes of a text in UTF-8. -/
def bytesOf (s : String) : List UInt8 := s.toList.flatMap String.utf8EncodeChar

namespace FieldDescriptor

def preimage (f : FieldDescriptor) : List UInt8 :=
  bytesOf f.name ++ Hash.wordBytes f.number ++ bytesOf f.kind.title ++
    [if f.repeated then 1 else 0] ++ (f.typeName.map bytesOf).getD []

end FieldDescriptor

namespace Descriptor

def preimage (d : Descriptor) : List UInt8 :=
  bytesOf d.fullName ++ d.fields.flatMap FieldDescriptor.preimage

end Descriptor

namespace TypeRegistry

/-- The bytes that are hashed. -/
def preimage (r : TypeRegistry) : List UInt8 := r.descriptors.flatMap Descriptor.preimage

def fingerprint (r : TypeRegistry) : String := Hash.hex (Hash.sha256 r.preimage)

end TypeRegistry

end EntityCatalog
