import EntityCatalog.Proofs.Document.Record
import EntityCatalog.Proofs.Ident
import EntityCatalog.Repository

/-!
# Models of documents

The identifier of a kind that was read from a document is canonical: a record without an identifier is
refused, and so is a text that is no identifier (`EntityKind.canonical_of_decode`). A repository holds
just the kinds that were put into it, so that those of a model document all have canonical identifiers
(`KindRepository.canonical_of_parse`).
-/

namespace EntityCatalog

open Document (Field Source)

/-! ## Declarations -/

section decode
variable {ν : Type} [Source ν] {n : ν}

theorem KindId.canonical_of_decode {k : KindId} (h : KindId.decode n = .ok k) : k.Canonical := by
  obtain ⟨s, -, h⟩ := bind_eq_ok h
  cases hparse : KindId.parse s with
  | error e =>
    rw [hparse] at h
    cases h
  | ok id =>
    rw [hparse] at h
    cases h
    exact (KindId.canonical_of_parse hparse).2

theorem EntityId.canonical_of_decode {e : EntityId} (h : EntityId.decode n = .ok e) : e.Canonical := by
  obtain ⟨s, -, h⟩ := bind_eq_ok h
  cases hparse : EntityId.parse s with
  | error f =>
    rw [hparse] at h
    cases h
  | ok id =>
    rw [hparse] at h
    cases h
    exact (EntityId.canonical_of_parse hparse).2

theorem EntityKind.canonical_of_decode {k : EntityKind} (h : EntityKind.decode n = .ok k) :
    k.id.Canonical := by
  have hid : (Field.needed "id" KindId.decode fun id k => { k with id } :
      Field ν EntityKind).Establishes (·.id.Canonical) :=
    Field.establishes_of_put fun _ _ _ hid => KindId.canonical_of_decode hid
  refine Document.readRecord_required (P := (·.id.Canonical)) ?_ rfl rfl hid h
  simp only [EntityKind.fields, List.forall_mem_cons, List.not_mem_nil, false_imp_iff, implies_true,
    and_true]
  exact ⟨hid.keeps, Field.keeps_of_put fun _ _ hk => hk, Field.keeps_of_put fun _ _ hk => hk,
    Field.keeps_of_put fun _ _ hk => hk, Field.keeps_of_put fun _ _ hk => hk,
    Field.keeps_of_put fun _ _ hk => hk⟩

theorem mem_decodeModel {α : Type} {name : String} {read : ν → Except Document.Fault α} {l : List α}
    (h : decodeModel name read n = .ok l) : ∀ a ∈ l, ∃ item, read item = .ok a := by
  refine Document.readRecord_keeps (P := fun l => ∀ a ∈ l, ∃ item, read item = .ok a) ?_ (by simp) h
  rw [List.forall_mem_singleton]
  intro n before after hread _
  obtain ⟨l, hl, rfl⟩ := exceptMap_eq_ok hread
  exact fun a => Document.mem_readList hl

end decode

/-! ## Repositories -/

namespace KindRepository

variable {text : String} {r r' : KindRepository} {k : EntityKind}

theorem kinds_of_add (h : r.add k = .ok r') : r'.kinds = r.kinds ++ [k] := by
  unfold add at h
  split at h
  · cases h
  · obtain ⟨_, -, h⟩ := bind_eq_ok h
    cases h
    rfl

theorem kinds_of_ofList {kinds : List EntityKind} (h : ofList kinds = .ok r) : r.kinds = kinds :=
  foldlM_keeps (fun before (r : KindRepository) => r.kinds = before)
    (fun before k r r' hr h => by rw [kinds_of_add h, hr]) rfl h

theorem canonical_of_parse (h : parse text = .ok r) (hk : k ∈ r.kinds) : k.id.Canonical := by
  obtain ⟨kinds, hkinds, hr⟩ := bind_eq_ok h
  rw [kinds_of_ofList hr] at hk
  obtain ⟨tree, htree⟩ := Document.Yaml.Tree.read_of_decode (mapError_eq_ok hkinds)
  obtain ⟨n, hn⟩ := mem_decodeModel htree k hk
  exact EntityKind.canonical_of_decode hn

end KindRepository

end EntityCatalog
