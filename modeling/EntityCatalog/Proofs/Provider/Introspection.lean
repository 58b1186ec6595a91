import EntityCatalog.Proofs.Codec
import EntityCatalog.Proofs.Provider.Answers
import EntityCatalog.Proofs.Provider.Injection
import EntityCatalog.Proofs.Text.ByteOrder

/-!
# What a provider tells of its types

The service of descriptors lists every type of the finished registry once, in the order of the bytes of
the names, and what it answers for a listed entity is read as the descriptor in the registry
(`registry_introspected`). The identifier of a listed entity is an IRI that leads back to the name, whatever
dots and slashes the name holds, because everything behind the first slash of such an IRI counts as the name
(`Service.descriptorName_eq_ok_iff`). Only an empty name is not found again.
-/

namespace EntityCatalog

open Json (Value)

/-! ## Names in IRIs -/

namespace Service

variable {iri name : String}

theorem descriptorName_eq_ok_iff :
    descriptorName iri = .ok name ↔ name ≠ "" ∧ iri = "kindred.Descriptor/" ++ name := by
  have hstart : (Builtin.descriptor ++ "/").toList = "kindred.Descriptor/".toList := rfl
  unfold descriptorName
  simp only [hstart]
  constructor
  · intro h
    split at h
    · next hfits =>
      rw [Bool.and_eq_true, List.isPrefixOf_iff_prefix] at hfits
      obtain ⟨⟨rest, hrest⟩, hsome⟩ := hfits
      rw [← hrest, List.drop_left] at h hsome
      obtain rfl := Except.ok.inj h
      constructor
      · rintro hempty
        have hnil : rest = [] := by simpa using hempty
        simp [hnil] at hsome
      · have htext : ("kindred.Descriptor/" ++ String.ofList rest).toList =
            "kindred.Descriptor/".toList ++ rest := by simp
        rw [← String.toList_inj, htext, hrest]
    · cases h
  · rintro ⟨hname, rfl⟩
    have hne : name.toList ≠ [] := by simpa using hname
    have hfits : ("kindred.Descriptor/".toList.isPrefixOf ("kindred.Descriptor/" ++ name).toList &&
        !(("kindred.Descriptor/" ++ name).toList.drop
          "kindred.Descriptor/".toList.length).isEmpty) = true := by
      rw [String.toList_append, List.drop_left, Bool.and_eq_true, List.isPrefixOf_iff_prefix]
      exact ⟨List.prefix_append _ _, by simpa using hname⟩
    rw [if_pos hfits, String.toList_append, List.drop_left, String.ofList_toList]

theorem descriptorName_of_ne (h : ∀ name, name ≠ "" → iri ≠ "kindred.Descriptor/" ++ name) :
    descriptorName iri = .error (.invalidRequest (.noDescriptorIri "kindred.Descriptor" iri)) := by
  cases hname : descriptorName iri with
  | ok name =>
    obtain ⟨hne, hiri⟩ := descriptorName_eq_ok_iff.1 hname
    exact absurd hiri (h name hne)
  | error failure =>
    dsimp only [descriptorName] at hname
    split at hname
    · cases hname
    · exact hname.symm

end Service

/-! ## Entities that stand for descriptors -/

/-- An entity says of a descriptor how it is called, where it is found and how many fields it has, and
nothing else. -/
structure Describes (d : Descriptor) (e : Entity) : Prop where
  id : e.id = ⟨⟨"kindred", "Descriptor"⟩, [d.fullName]⟩
  data : e.data = .object [("fields", .nat d.fields.length), ("full_name", .string d.fullName),
    ("type_url", .string ("type.googleapis.com/" ++ d.fullName))]
  ts : e.ts = none
  links : e.links = ∅
  related : e.related = ∅

theorem describes_descriptorEntity (d : Descriptor) : Describes d (Service.descriptorEntity d) :=
  ⟨rfl, rfl, rfl, rfl, rfl⟩

theorem Describes.text_id {d : Descriptor} {e : Entity} (h : Describes d e) :
    e.id.text = "kindred.Descriptor/" ++ d.fullName := by
  rw [h.id, ← String.toList_inj, EntityId.toList_text]
  simp [KindId.toList_text]

namespace TypeRegistry

theorem ascending_descriptors (r : TypeRegistry) :
    r.descriptors.Pairwise fun a b => Text.bytes a.fullName < Text.bytes b.fullName := by
  rw [descriptors, SortedMap.values, List.pairwise_map]
  refine r.table.ascending.imp_of_mem fun {a b} ha hb hlt => ?_
  have hname {p : String × Descriptor} (hp : p ∈ r.table.entries) : p.2.fullName = p.1 :=
    r.named p.1 p.2 (r.table.mem_entries_iff.1 hp)
  rw [Text.bytes_lt_iff, hname ha, hname hb]
  exact hlt

end TypeRegistry

/-! ## Providers -/

namespace Provider

variable {kinds : KindRepository} {types : TypeRepository} {extensions : Extensions}
  {config : Config} {p : Provider}

section answers
variable {iri name : String} {r : TypeRegistry}

theorem get_of_name (h : build kinds types extensions config = .ok p) (hr : p.Publishes r)
    (hname : name ≠ "") (world : World) (j : Journal) :
    p.services.get "kindred.Descriptor" ("kindred.Descriptor/" ++ name) (p.env world) j =
      (match r.find? name with
        | some d => .ok (.pack Builtin.descriptor d.encode)
        | none => .error (.notFound name), j) := by
  have hread : Service.descriptorName ("kindred.Descriptor/" ++ name) = .ok name :=
    Service.descriptorName_eq_ok_iff.2 ⟨hname, rfl⟩
  have hservice : p.services.service? "kindred.Descriptor" = some (.introspection p.handle) :=
    service_of_descriptors h
  rw [Services.get, hservice]
  dsimp only
  rw [Service.get, Service.getDescriptor, hread]
  dsimp only
  rw [Run.bind_apply, types_env hr]
  dsimp only
  cases r.find? name <;> rfl

theorem get_of_ne (h : build kinds types extensions config = .ok p)
    (hiri : ∀ name, name ≠ "" → iri ≠ "kindred.Descriptor/" ++ name) (world : World) (j : Journal) :
    p.services.get "kindred.Descriptor" iri (p.env world) j =
      (.error (.invalidRequest (.noDescriptorIri "kindred.Descriptor" iri)), j) := by
  have hservice : p.services.service? "kindred.Descriptor" = some (.introspection p.handle) :=
    service_of_descriptors h
  rw [Services.get, hservice]
  dsimp only
  rw [Service.get, Service.getDescriptor, Service.descriptorName_of_ne hiri]
  rfl

theorem list_descriptors (h : build kinds types extensions config = .ok p) (hr : p.Publishes r)
    (world : World) (j : Journal) :
    p.services.list "kindred.Descriptor" (.all ⟨"kindred", "Descriptor"⟩) (p.env world) j =
      (.ok (r.descriptors.map Service.descriptorEntity), j) := by
  have hservice : p.services.service? "kindred.Descriptor" = some (.introspection p.handle) :=
    service_of_descriptors h
  rw [Services.list, hservice]
  dsimp only
  rw [Service.list, listDescriptors_eq hr, if_pos (by simp [ListRequest.all, Service.descriptorKind])]

end answers

/-- **A provider tells all of its types.** The listing has one entity for each type of the registry, in the
order of the bytes of their names. A type with a name is found again by the identifier of its entity, and
what is answered is read as the descriptor in the registry. A name without a type is not found, and any
other IRI is refused. The registry is the one that was finished with the provider, unless an extension has
bound the handle before. -/
theorem registry_introspected (h : build kinds types extensions config = .ok p) :
    ∃ r, p.Publishes r ∧ (extensions.LeaveUnbound → r = p.types) ∧ ∀ (world : World) (j : Journal),
      (∃ ds es, p.services.list "kindred.Descriptor" (.all ⟨"kindred", "Descriptor"⟩) (p.env world) j =
          (.ok es, j) ∧
        (∀ d, d ∈ ds ↔ r.find? d.fullName = some d) ∧
        ds.Pairwise (fun a b => Text.bytes a.fullName < Text.bytes b.fullName) ∧
        List.Forall₂ Describes ds es) ∧
      (∀ d e, r.find? d.fullName = some d → Describes d e → d.fullName ≠ "" →
        ∃ v, p.services.get "kindred.Descriptor" e.id.text (p.env world) j =
          (.ok ⟨"type.googleapis.com/kindred.Descriptor", v⟩, j) ∧ Descriptor.decode v = .ok d) ∧
      (∀ name, name ≠ "" → r.find? name = none →
        p.services.get "kindred.Descriptor" ("kindred.Descriptor/" ++ name) (p.env world) j =
          (.error (.notFound name), j)) ∧
      (∀ iri, (∀ name, name ≠ "" → iri ≠ "kindred.Descriptor/" ++ name) →
        p.services.get "kindred.Descriptor" iri (p.env world) j =
          (.error (.invalidRequest (.noDescriptorIri "kindred.Descriptor" iri)), j)) := by
  obtain ⟨r, hr, hown⟩ := published_of_build h
  refine ⟨r, hr, hown, fun world j => ⟨⟨r.descriptors, _, list_descriptors h hr world j,
    fun d => r.mem_descriptors_iff, r.ascending_descriptors, ?_⟩, ?_, ?_,
    fun iri hiri => get_of_ne h hiri world j⟩⟩
  · rw [List.forall₂_map_right_iff, List.forall₂_same]
    exact fun d _ => describes_descriptorEntity d
  · intro d e hd he hname
    refine ⟨d.encode, ?_, d.decode_encode⟩
    rw [he.text_id, get_of_name h hr hname, hd]
    rfl
  · intro name hname hnone
    rw [get_of_name h hr hname, hnone]

/-! ### Names with dots and slashes -/

/-- A type of notes that are made of notes. -/
def note : Descriptor :=
  ⟨"demo/part.Note", [.plain "text" 1 .string,
    (FieldDescriptor.ofMessage "parts" 2 "demo/part.Note").asRepeated]⟩

/-- A connector that contributes a type without a name besides, and loads nothing. -/
def archive : ThingConnector where
  name := "archive"
  descriptors := [⟨"", []⟩, note]
  load _ _ _ things := .success things

def archiveTypes : TypeRepository := ⟨[⟨"demo.Note", none, [.extension "archive"]⟩]⟩

def archives : Extensions := ⟨∅, .ofList [("archive", archive)]⟩

/-- A type is found by its name, and the one without a name is not. -/
theorem registry_introspected_slashed :
    archives.LeaveUnbound ∧ ∃ p, build .empty archiveTypes archives .standard = .ok p ∧
      (∃ v, p.services.get "kindred.Descriptor" "kindred.Descriptor/demo/part.Note" (p.env stillWorld) [] =
        (.ok ⟨"type.googleapis.com/kindred.Descriptor", v⟩, []) ∧ Descriptor.decode v = .ok note) ∧
      p.types.find? "" = some ⟨"", []⟩ ∧
      p.services.get "kindred.Descriptor" "kindred.Descriptor/" (p.env stillWorld) [] =
        (.error (.invalidRequest (.noDescriptorIri "kindred.Descriptor" "kindred.Descriptor/")), []) := by
  obtain ⟨p, hbuild, hnote, hempty⟩ : ∃ p, build .empty archiveTypes archives .standard = .ok p ∧
      p.types.find? note.fullName = some note ∧ p.types.find? "" = some ⟨"", []⟩ := ⟨_, rfl, rfl, rfl⟩
  obtain ⟨r, -, hown, hanswers⟩ := registry_introspected hbuild
  have hleave : archives.LeaveUnbound := .of_no_aspects _
  obtain rfl := hown hleave
  obtain ⟨-, hget, -, hother⟩ := hanswers stillWorld []
  have hdescribes := describes_descriptorEntity note
  refine ⟨hleave, p, hbuild, ?_, hempty, hother _ fun name hname hiri => ?_⟩
  · have hfound := hget note _ hnote hdescribes (by decide)
    rw [hdescribes.text_id] at hfound
    exact hfound
  · have hlength := congrArg String.length hiri
    rw [String.length_append] at hlength
    exact hname (String.length_eq_zero_iff.1 (by omega))

end Provider

end EntityCatalog
