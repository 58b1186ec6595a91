import EntityCatalog.Entity
import EntityCatalog.Proofs.Schema.Check

/-!
# Encodings against the built-in descriptors

What the library writes conforms to the descriptor it has of it. Entities and packed things conform
over every registry, because no field of theirs refers to a type that constrains the written form.
Descriptors and things by their keys need the types of their parts to resolve.
-/

namespace EntityCatalog

open Json (Value)

/-! ## Members -/

theorem mem_optionalMember {name : String} {v : Option Value} {p : String × Value}
    (h : p ∈ optionalMember name v) : p.1 = name ∧ v = some p.2 := by
  cases v with
  | none => cases h
  | some w =>
    cases List.mem_singleton.1 h
    exact ⟨rfl, rfl⟩

theorem Entity.mem_mapMember {α : Type} {name : String} {f : α → Value} {m : SortedMap α}
    {p : String × Value} (h : p ∈ mapMember name f m) : p = (name, .ofMap f m) := by
  unfold mapMember at h
  split at h
  · cases h
  · exact List.mem_singleton.1 h

namespace TypeRegistry

variable {r : TypeRegistry} {name : String}

theorem check_pack {d : Descriptor} {v : Value} (hname : typeNameOf (typeUrl name) = name)
    (hd : r.find? name = some d) (h : r.Conforms d v) : r.check (.pack name v) = .ok () := by
  rw [check, ofUrl?, Thing.pack, hname, hd]
  exact (r.checkMessage_settles d "" v).ok_unit.2 h

end TypeRegistry

/-! ## Entities and things -/

section encodings
variable {r : TypeRegistry}

theorem Entity.encode_conforms (e : Entity) : r.Conforms Builtin.entityDescriptor e.encode := by
  rw [encode, TypeRegistry.conforms_object_iff]
  intro p hp
  simp only [List.mem_append, List.mem_singleton, or_assoc] at hp
  rcases hp with hdata | rfl | hlinks | hrelated | hts
  · split at hdata
    · cases hdata
    · cases List.mem_singleton.1 hdata
      exact .single rfl rfl (.plain (.struct _))
  · exact .single rfl rfl (.plain (.string _))
  · cases mem_mapMember hlinks
    exact .single rfl rfl (.untypedMap rfl rfl)
  · cases mem_mapMember hrelated
    exact .single rfl rfl (.untypedMap rfl rfl)
  · obtain ⟨hname, hv⟩ := mem_optionalMember hts
    obtain ⟨t, -, hv⟩ := Option.map_eq_some_iff.1 hv
    -- an instant is written as a text, which the message type of the field lets through
    rw [hname, ← hv]
    exact .single rfl rfl (.loose rfl nofun)

theorem Thing.encode_conforms (t : Thing) : r.Conforms Builtin.anyDescriptor t.encode := by
  rw [encode, TypeRegistry.conforms_object_iff]
  intro p hp
  simp only [List.mem_cons, List.not_mem_nil, or_false] at hp
  rcases hp with rfl | rfl
  · exact .single rfl rfl (.plain (.string _))
  · exact .single rfl rfl (.plain (.struct _))

/-! ## Descriptors -/

theorem FieldDescriptor.encode_conforms (f : FieldDescriptor) :
    r.Conforms Builtin.fieldDescriptorDescriptor f.encode := by
  rw [encode, TypeRegistry.conforms_object_iff]
  intro p hp
  simp only [List.mem_append, List.mem_cons, List.not_mem_nil, or_false, or_assoc] at hp
  rcases hp with rfl | rfl | rfl | rfl | htype
  · exact .single rfl rfl (.plain (.string _))
  · exact .single rfl rfl (.plain (.string _))
  · exact .single rfl rfl (.plain (.int64 _))
  · exact .single rfl rfl (.plain (.bool _))
  · obtain ⟨hname, hv⟩ := mem_optionalMember htype
    obtain ⟨t, -, hv⟩ := Option.map_eq_some_iff.1 hv
    rw [hname, ← hv]
    exact .single rfl rfl (.plain (.string _))

theorem Descriptor.encode_conforms
    (hfield : r.find? Builtin.fieldDescriptor = some Builtin.fieldDescriptorDescriptor)
    (d : Descriptor) : r.Conforms Builtin.descriptorDescriptor d.encode := by
  rw [encode, TypeRegistry.conforms_object_iff]
  intro p hp
  simp only [List.mem_cons, List.not_mem_nil, or_false] at hp
  rcases hp with rfl | rfl
  · refine .repeated rfl rfl fun v hv => ?_
    obtain ⟨f, -, rfl⟩ := List.mem_map.1 hv
    exact .message rfl rfl hfield f.encode_conforms
  · exact .single rfl rfl (.plain (.string _))

end encodings

end EntityCatalog
