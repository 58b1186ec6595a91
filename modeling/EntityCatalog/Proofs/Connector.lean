import EntityCatalog.Connector
import EntityCatalog.Proofs.Document.Object

/-!
# What the keys of a connector declare

`Declares` says what a key of an object stands for by its value: a connector, or nothing when there is no
value or it is left open. An object over the keys of a connector is read as just what they declare
(`decode_object`): as no connector when nothing is declared, as the connector that is, and if several are,
the names of all of them are reported in one order. A connector is read back from what it is written as
(`decode_encode`).
-/

namespace EntityCatalog.Connector

open Document
open Json (Value)

inductive Key where
  | error
  | store
  | remote
  | extension
  deriving DecidableEq, Repr

namespace Key

def name : Key → String
  | error => "error"
  | store => "fs"
  | remote => "remote"
  | extension => "extension"

/-- The keys in the order in which they are reported. -/
def all : List Key := [error, store, remote, extension]

end Key

/-- What a key declares by its value. Only the key `error` declares something when it is left open. -/
inductive Declares : Key → Option Value → Option Connector → Prop
  | absent {key : Key} : Declares key none none
  | left {key : Key} (hkey : key ≠ .error) : Declares key (some .null) none
  | leftError : Declares .error (some .null) (some (.error ""))
  | error {v : Value} {message : String} (h : decodeError v = .ok message) :
      Declares .error (some v) (some (.error message))
  | store {v : Value} {root : String} {format : FileFormat} (h : decodeStore v = .ok (root, format)) :
      Declares .store (some v) (some (.store root format))
  | remote {endpoint : String} : Declares .remote (some (.string endpoint)) (some (.remote endpoint))
  | extension {name : String} : Declares .extension (some (.string name)) (some (.extension name))

/-- The names of the keys that declare a connector, each with its connector. -/
def declared (d : Key → Option Connector) : List (String × Connector) :=
  Key.all.filterMap fun key => (d key).map fun c => (key.name, c)

/-- The connector that is declared when at most one is. -/
def only : List (String × Connector) → Except Fault Connector
  | [] => .ok .unset
  | [(_, c)] => .ok c
  | several => .error (.ambiguous (several.map (·.1)))

/-! ## One key -/

section key
variable {v : Value} {d : Option Connector}

theorem not_null_of_decodeError {message : String} (h : decodeError v = .ok message) : v ≠ .null := by
  rintro rfl
  cases h

theorem not_null_of_decodeStore {p : String × FileFormat} (h : decodeStore v = .ok p) : v ≠ .null := by
  rintro rfl
  cases h

theorem declares_error_iff : Declares .error (some v) d ↔
    ∃ message, readOptional decodeError v = .ok message ∧ d = some (.error (message.getD "")) := by
  simp only [readOptional_eq_ok_iff]
  constructor
  · intro h
    cases h with
    | left hkey => exact absurd rfl hkey
    | leftError => exact ⟨none, .inl ⟨rfl, rfl⟩, rfl⟩
    | error h => exact ⟨some _, .inr ⟨not_null_of_decodeError h, _, h, rfl⟩, rfl⟩
  · rintro ⟨_, ⟨rfl, rfl⟩ | ⟨-, message, h, rfl⟩, rfl⟩
    · exact .leftError
    · exact .error h

theorem declares_store_iff : Declares .store (some v) d ↔
    ∃ s, readOptional decodeStore v = .ok s ∧ d = s.map fun p => .store p.1 p.2 := by
  simp only [readOptional_eq_ok_iff]
  constructor
  · intro h
    cases h with
    | left => exact ⟨none, .inl ⟨rfl, rfl⟩, rfl⟩
    | store h => exact ⟨some _, .inr ⟨not_null_of_decodeStore h, _, h, rfl⟩, rfl⟩
  · rintro ⟨_, ⟨rfl, rfl⟩ | ⟨-, ⟨root, format⟩, h, rfl⟩, rfl⟩
    · exact .left nofun
    · exact .store h

theorem declares_remote_iff : Declares .remote (some v) d ↔
    ∃ endpoint, readOptional Source.text v = .ok endpoint ∧ d = endpoint.map .remote := by
  simp only [readOptional_eq_ok_iff, text_eq_ok_iff]
  constructor
  · intro h
    cases h with
    | left => exact ⟨none, .inl ⟨rfl, rfl⟩, rfl⟩
    | remote => exact ⟨some _, .inr ⟨nofun, _, rfl, rfl⟩, rfl⟩
  · rintro ⟨_, ⟨rfl, rfl⟩ | ⟨-, endpoint, rfl, rfl⟩, rfl⟩
    · exact .left nofun
    · exact .remote

theorem declares_extension_iff : Declares .extension (some v) d ↔
    ∃ name, readOptional Source.text v = .ok name ∧ d = name.map .extension := by
  simp only [readOptional_eq_ok_iff, text_eq_ok_iff]
  constructor
  · intro h
    cases h with
    | left => exact ⟨none, .inl ⟨rfl, rfl⟩, rfl⟩
    | extension => exact ⟨some _, .inr ⟨nofun, _, rfl, rfl⟩, rfl⟩
  · rintro ⟨_, ⟨rfl, rfl⟩ | ⟨-, name, rfl, rfl⟩, rfl⟩
    · exact .left nofun
    · exact .extension

theorem Declares.unique {o : Option Value} {d' : Option Connector} {key : Key}
    (h : Declares key o d) (h' : Declares key o d') : d' = d := by
  cases h with
  | absent =>
    cases h'
    rfl
  | left hkey =>
    cases h' with
    | left => rfl
    | leftError => exact absurd rfl hkey
    | error h => exact absurd rfl (not_null_of_decodeError h)
    | store h => exact absurd rfl (not_null_of_decodeStore h)
  | leftError =>
    cases h' with
    | left hkey => exact absurd rfl hkey
    | leftError => rfl
    | error h => exact absurd rfl (not_null_of_decodeError h)
  | error h =>
    cases h' with
    | left hkey => exact absurd rfl hkey
    | leftError => exact absurd rfl (not_null_of_decodeError h)
    | error h' => rw [Except.ok.inj (h.symm.trans h')]
  | store h =>
    cases h' with
    | left => exact absurd rfl (not_null_of_decodeStore h)
    | store h' =>
      cases h.symm.trans h'
      rfl
  | remote =>
    cases h'
    rfl
  | extension =>
    cases h'
    rfl

end key

/-! ## Objects -/

namespace Keys

/-- What the key stands for among those that were found. -/
def of (k : Keys) : Key → Option Connector
  | .error => k.error.map .error
  | .store => k.store.map fun p => .store p.1 p.2
  | .remote => k.remote.map .remote
  | .extension => k.extension.map .extension

theorem connector_eq (k : Keys) : k.connector = only (declared k.of) := by
  obtain ⟨error, store, remote, extension⟩ := k
  rcases error with _ | message <;> rcases store with _ | ⟨root, format⟩ <;>
    rcases remote with _ | endpoint <;> rcases extension with _ | name <;> rfl

end Keys

section object
variable {members : List (String × Value)} {k : Keys}

theorem decode_of_readRecord (h : readRecord keyFields true {} (Value.object members) = .ok k) :
    decode (Value.object members) = only (declared k.of) := by
  rw [decode, h]
  exact k.connector_eq

/-- A field reads what a key declares, if it declares anything, and touches nothing else. -/
structure Reads (key : Key) (field : Field Value Keys) : Prop where
  name : field.name = key.name
  declares : ∀ v r r', field.read v r = .ok r' → Declares key (some v) (r'.of key)
  keeps : ∀ v r r', field.read v r = .ok r' → ∀ other, other ≠ key → r'.of other = r.of other
  total : ∀ v d, Declares key (some v) d → ∀ r, ∃ r', field.read v r = .ok r'

theorem Reads.of_put {α : Type} {key : Key} {read : Value → Except Fault α} {put : α → Keys → Keys}
    {pick : α → Option Connector}
    (hdeclares : ∀ v d, Declares key (some v) d ↔ ∃ a, read v = .ok a ∧ d = pick a)
    (hput : ∀ a r, (put a r).of key = pick a)
    (hkeep : ∀ a r other, other ≠ key → (put a r).of other = r.of other) :
    Reads key (.defaulted key.name read put) := by
  refine ⟨rfl, fun v r r' h => ?_, fun v r r' h => ?_, fun v d h r => ?_⟩
  · obtain ⟨a, ha, rfl⟩ := exceptMap_eq_ok h
    exact (hdeclares v _).2 ⟨a, ha, hput a r⟩
  · obtain ⟨a, -, rfl⟩ := exceptMap_eq_ok h
    exact hkeep a r
  · obtain ⟨a, ha, -⟩ := (hdeclares v d).1 h
    exact ⟨_, Field.read_put ha r⟩

theorem find?_keyFields (key : Key) :
    ∃ field, keyFields.find? (·.name == key.name) = some field ∧ Reads key field := by
  cases key with
  | error =>
    refine ⟨_, rfl, Reads.of_put (fun v d => declares_error_iff) (fun _ _ => rfl) fun a r other h => ?_⟩
    cases other <;> first | rfl | exact absurd rfl h
  | store =>
    refine ⟨_, rfl, Reads.of_put (fun v d => declares_store_iff) (fun _ _ => rfl) fun a r other h => ?_⟩
    cases other <;> first | rfl | exact absurd rfl h
  | remote =>
    refine ⟨_, rfl, Reads.of_put (fun v d => declares_remote_iff) (fun _ _ => rfl) fun a r other h => ?_⟩
    cases other <;> first | rfl | exact absurd rfl h
  | extension =>
    refine ⟨_, rfl, Reads.of_put (fun v d => declares_extension_iff) (fun _ _ => rfl)
      fun a r other h => ?_⟩
    cases other <;> first | rfl | exact absurd rfl h

theorem exists_key {field : Field Value Keys} (h : field ∈ keyFields) : ∃ key, Reads key field := by
  have hmem : ∃ key : Key, keyFields.find? (·.name == key.name) = some field := by
    simp only [keyFields, List.mem_cons, List.not_mem_nil, or_false] at h
    rcases h with rfl | rfl | rfl | rfl
    · exact ⟨.error, rfl⟩
    · exact ⟨.store, rfl⟩
    · exact ⟨.remote, rfl⟩
    · exact ⟨.extension, rfl⟩
  obtain ⟨key, hfield⟩ := hmem
  obtain ⟨found, hfound, hreads⟩ := find?_keyFields key
  obtain rfl : found = field := Option.some.inj (hfound.symm.trans hfield)
  exact ⟨key, hreads⟩

theorem names_nodup (h : Assoc.Ascending members) : (members.map (·.1)).Nodup :=
  SortedMap.keys_nodup ⟨members, h⟩

theorem declares_of_fills (hmembers : Assoc.Ascending members) (h : Fills keyFields members {} k)
    (key : Key) : Declares key (Assoc.get? key.name members) (k.of key) := by
  obtain ⟨field, hfield, hreads⟩ := find?_keyFields key
  have hothers : ∀ other ∈ (keyFields : List (Field Value Keys)), other.name ≠ key.name →
      ∀ v r r', other.read v r = .ok r' → r'.of key = r.of key := by
    intro other hother hne v r r' hread
    obtain ⟨key', hreads'⟩ := exists_key hother
    have hkey : key ≠ key' := by
      rintro rfl
      exact hne hreads'.name
    exact hreads'.keeps v r r' hread key hkey
  obtain ⟨hthere, habsent⟩ := h.component (names_nodup hmembers) hfield hothers
  cases hget : Assoc.get? key.name members with
  | none =>
    have hnone : ({} : Keys).of key = none := by cases key <;> rfl
    rw [habsent hget, hnone]
    exact .absent
  | some v =>
    obtain ⟨before, after, hread, hkept⟩ := hthere v hget
    rw [hkept]
    exact hreads.declares v before after hread

/-- An object over the keys of a connector is read as what its keys declare. It is not read if one of them
has a value that declares nothing and is not left open either. -/
theorem decode_object (hmembers : Assoc.Ascending members)
    (hkeys : ∀ p ∈ members, ∃ key : Key, p.1 = key.name) :
    (∀ d, (∀ key : Key, Declares key (Assoc.get? key.name members) (d key)) →
      decode (Value.object members) = only (declared d)) ∧
    ∀ c, decode (Value.object members) = .ok c →
      ∃ d, (∀ key : Key, Declares key (Assoc.get? key.name members) (d key)) ∧
        only (declared d) = .ok c := by
  constructor
  · intro d hd
    have hfills : ∃ k : Keys, Fills keyFields members {} k := by
      refine Fills.exists (fun p hp => ?_) ({} : Keys)
      obtain ⟨key, hkey⟩ := hkeys p hp
      obtain ⟨field, hfield, hreads⟩ := find?_keyFields key
      have hget : Assoc.get? key.name members = some p.2 := Assoc.get?_of_mem hmembers (hkey ▸ hp)
      have hdeclares := hd key
      rw [hget] at hdeclares
      exact ⟨field, hkey ▸ hfield, hreads.total p.2 _ hdeclares⟩
    obtain ⟨k, hk⟩ := hfills
    have hof : k.of = d := funext fun key => (hd key).unique (declares_of_fills hmembers hk key)
    have hread : readRecord keyFields true {} (Value.object members) = .ok k :=
      readRecord_of_fills hk (names_nodup hmembers) (by simp [keyFields, Field.defaulted])
    rw [decode_of_readRecord hread, hof]
  · intro c hc
    obtain ⟨k, hk, -⟩ := bind_eq_ok hc
    refine ⟨k.of, declares_of_fills hmembers (fills_of_readRecord hk), ?_⟩
    rw [← decode_of_readRecord hk, hc]

end object

theorem decode_encode (c : Connector) : decode c.encode = .ok c := by
  cases c with
  | store root format => cases format <;> rfl
  | _ => rfl

end EntityCatalog.Connector
