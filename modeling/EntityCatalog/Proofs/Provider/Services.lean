import EntityCatalog.Proofs.Provider.Contribution

/-!
# The services of a provider

A provider that was built has the service for descriptors, the service of every declaration under the
identifier of that declaration, and no others (`Provider.Made`). All services answer with one registry,
which the handle of the provider leads to. It is the one that was finished unless an extension has bound the
handle before.
-/

namespace EntityCatalog

/-! ## Handles -/

theorem Bindings.types?_bind {b : Bindings} {h : Handle} (hcell : h.cell < b.cells.length)
    (r : TypeRegistry) : (b.bind h r).2.types? h = some ((b.types? h).getD r) := by
  unfold bind types?
  rw [List.getElem?_eq_getElem hcell]
  cases hbound : b.cells[h.cell] with
  | none => simp [hcell]
  | some old => simp [List.getElem?_eq_getElem hcell, hbound]

theorem Bindings.length_bind (b : Bindings) (h : Handle) (r : TypeRegistry) :
    (b.bind h r).2.cells.length = b.cells.length := by
  unfold bind
  split
  · exact List.length_set
  · rfl

namespace Provider

/-! ## What stands behind an identifier -/

/-- The service for descriptors, or one of those that were made. -/
inductive Serves (handle : Handle) (made : List Service) : String → Service → Prop
  | descriptors : Serves handle made Builtin.descriptor (.introspection handle)
  | declaration {service : Service} (h : service ∈ made) : Serves handle made service.id service

/-- A provider with the services that were made for its declarations, one after another, up to the last
state of construction before the handle was bound. -/
structure Made (kinds : KindRepository) (types : TypeRepository) (extensions : Extensions)
    (config : Config) (p : Provider) (made : List Service) (last : Construction) : Prop where
  kinds_eq : p.kinds = kinds
  handle_eq : p.handle = (context kinds extensions config).handle
  run : Threads (Declares (context kinds extensions config)) (Declaration.all kinds types) started made last
  served : ∀ id service, p.services.service? id = some service ↔ Serves p.handle made id service
  found : ∀ name, p.types.find? name =
    (Builtin.core ++ Builtin.introspection ++ made.flatMap Service.contributions).find?
      (·.fullName == name)
  bindings_eq : p.bindings = (last.bindings.bind p.handle p.types).2

variable {kinds : KindRepository} {types : TypeRepository} {extensions : Extensions}
  {config : Config} {p : Provider}

theorem service?_first (id : String) (service : Service) : first.service? id = some service ↔
    id = Builtin.descriptor ∧ service = .introspection ⟨0⟩ := by
  rw [Services.service?, first, SortedMap.get?_insert]
  by_cases hid : id = Builtin.descriptor
  · simp [hid, eq_comm]
  · simp [hid, SortedMap.get?_empty]

theorem made_of_construct {s : Construction}
    (h : construct kinds types extensions config .start = .ok (p, s)) :
    ∃ made last, Made kinds types extensions config p made last ∧
      s = (Construction.publish p.handle p.types last).2 := by
  obtain ⟨ofKinds, mid, ofTypes, last, hkinds, htypes, heq⟩ := construct_eq_ok h
  cases heq
  obtain ⟨kindsMade, hkindsMade, hkindDescriptors, hkindServed⟩ := declareAll_eq_ok hkinds
  obtain ⟨typesMade, htypesMade, htypeDescriptors, htypeServed⟩ := declareAll_eq_ok htypes
  refine ⟨kindsMade ++ typesMade, last, ⟨rfl, rfl, hkindsMade.append htypesMade, fun id service => ?_,
    fun name => ?_, rfl⟩, rfl⟩
  · change ofTypes.services.service? id = some service ↔ _
    rw [htypeServed, hkindServed, service?_first]
    constructor
    · rintro ((⟨rfl, rfl⟩ | ⟨hmade, rfl⟩) | ⟨hmade, rfl⟩)
      · exact .descriptors
      · exact .declaration (List.mem_append_left _ hmade)
      · exact .declaration (List.mem_append_right _ hmade)
    · intro hserves
      cases hserves with
      | descriptors => exact .inl (.inl ⟨rfl, rfl⟩)
      | declaration hmade =>
        rcases List.mem_append.1 hmade with hmade | hmade
        · exact .inl (.inr ⟨hmade, rfl⟩)
        · exact .inr ⟨hmade, rfl⟩
  · have hempty : (∅ : TypeRegistry).find? name = none := TypeRegistry.find?_empty name
    rw [find?_registry, hkindDescriptors, htypeDescriptors, ownTypes, TypeRegistry.find?_ofList,
      TypeRegistry.find?_add, TypeRegistry.find?_add, hempty, Option.none_or, Option.none_or]
    simp only [List.flatMap_append, List.find?_append, Option.or_assoc]

theorem made_of_build (h : build kinds types extensions config = .ok p) :
    ∃ made last, Made kinds types extensions config p made last := by
  obtain ⟨s, h⟩ := construct_of_build h
  obtain ⟨made, last, hmade, -⟩ := made_of_construct h
  exact ⟨made, last, hmade⟩

section lookup
variable {id : String} {c : AspectChain} {k : EntityKind} {t : TypeDecl} {made : List Service}
  {last : Construction}

theorem Made.service_of_declaration (hmade : Made kinds types extensions config p made last)
    {d : Declaration} (hd : d ∈ Declaration.all kinds types) :
    ∃ service ∈ made, AnswersFor (context kinds extensions config) d service ∧
      p.services.service? d.id = some service := by
  obtain ⟨service, hservice, s, s', hdeclares⟩ := exists_of_forall₂ hmade.run.forall₂ hd
  refine ⟨service, hservice, ⟨s, s', hdeclares⟩, ?_⟩
  rw [← hdeclares.id_eq]
  exact (hmade.served _ _).2 (.declaration hservice)

theorem Made.declaration_of_service (hmade : Made kinds types extensions config p made last)
    {service : Service} (hservice : service ∈ made) :
    ∃ d ∈ Declaration.all kinds types, AnswersFor (context kinds extensions config) d service :=
  exists_of_forall₂ hmade.run.forall₂.flip hservice

theorem service_of_kind (h : build kinds types extensions config = .ok p) (hk : k ∈ kinds.kinds) :
    ∃ c, AspectChain.BuiltFor (context kinds extensions config) k c ∧
      p.services.service? k.id.text = some (.kind c) := by
  obtain ⟨made, last, hmade⟩ := made_of_build h
  have hd : .kind k ∈ Declaration.all kinds types :=
    List.mem_append_left _ (List.mem_map_of_mem hk)
  obtain ⟨service, -, hanswers, hservice⟩ := hmade.service_of_declaration hd
  obtain ⟨c, hc, rfl⟩ := hanswers.kind_chain
  exact ⟨c, hc, hservice⟩

theorem service_of_type (h : build kinds types extensions config = .ok p) (ht : t ∈ types.types) :
    ∃ c, ConnectorChain.build (context kinds extensions config) t = .ok c ∧
      p.services.service? t.name = some (.type c p.handle) := by
  obtain ⟨made, last, hmade⟩ := made_of_build h
  have hd : .type t ∈ Declaration.all kinds types :=
    List.mem_append_right _ (List.mem_map_of_mem ht)
  obtain ⟨service, -, hanswers, hservice⟩ := hmade.service_of_declaration hd
  obtain ⟨c, hc, rfl⟩ := hanswers.type_chain
  rw [hmade.handle_eq]
  exact ⟨c, hc, hservice⟩

theorem service_of_descriptors (h : build kinds types extensions config = .ok p) :
    p.services.service? Builtin.descriptor = some (.introspection p.handle) := by
  obtain ⟨made, last, hmade⟩ := made_of_build h
  exact (hmade.served _ _).2 .descriptors

/-- Where the service behind an identifier comes from. -/
inductive Origin (kinds : KindRepository) (types : TypeRepository) (cx : BuildContext) (handle : Handle) :
    String → Service → Prop
  | descriptors : Origin kinds types cx handle Builtin.descriptor (.introspection handle)
  | kind {k : EntityKind} {c : AspectChain} (hk : k ∈ kinds.kinds) (hc : AspectChain.BuiltFor cx k c) :
      Origin kinds types cx handle k.id.text (.kind c)
  | type {t : TypeDecl} {c : ConnectorChain} (ht : t ∈ types.types) (hc : ConnectorChain.build cx t = .ok c) :
      Origin kinds types cx handle t.name (.type c handle)

theorem origin_of_service (h : build kinds types extensions config = .ok p) {service : Service}
    (hs : p.services.service? id = some service) :
    Origin kinds types (context kinds extensions config) p.handle id service := by
  obtain ⟨made, last, hmade⟩ := made_of_build h
  cases (hmade.served _ _).1 hs with
  | descriptors => exact .descriptors
  | declaration hin =>
    obtain ⟨d, hd, s, s', hdeclares⟩ := hmade.declaration_of_service hin
    rw [hdeclares.id_eq]
    rcases List.mem_append.1 hd with hd | hd
    · obtain ⟨k, hk, rfl⟩ := List.mem_map.1 hd
      cases hdeclares with
      | kind hc => exact .kind hk ⟨s, s', hc⟩
    · obtain ⟨t, ht, rfl⟩ := List.mem_map.1 hd
      cases hdeclares with
      | type hc => exact hmade.handle_eq ▸ .type ht hc

theorem kind_of_service (h : build kinds types extensions config = .ok p)
    (hs : p.services.service? id = some (.kind c)) :
    c.kind ∈ kinds.kinds ∧ id = c.kind.id.text ∧
      AspectChain.BuiltFor (context kinds extensions config) c.kind c := by
  cases origin_of_service h hs with
  | kind hk hc =>
    obtain rfl := hc.aspects_eq.1
    exact ⟨hk, rfl, hc⟩

theorem descriptors_of_service (h : build kinds types extensions config = .ok p) {handle : Handle}
    (hs : p.services.service? id = some (.introspection handle)) :
    id = Builtin.descriptor ∧ handle = p.handle := by
  cases origin_of_service h hs with
  | descriptors => exact ⟨rfl, rfl⟩

theorem type_of_service (h : build kinds types extensions config = .ok p) {c : ConnectorChain}
    {handle : Handle} (hs : p.services.service? id = some (.type c handle)) : handle = p.handle := by
  cases origin_of_service h hs with
  | type => rfl

theorem get?_kind (h : build kinds types extensions config = .ok p) (hk : k ∈ kinds.kinds) :
    kinds.get? k.id = some k := by
  obtain ⟨found, hfound⟩ : ∃ found, kinds.get? k.id = some found :=
    Option.isSome_iff_exists.1 (by
      rw [KindRepository.get?, List.find?_isSome]
      exact ⟨k, hk, beq_self_eq_true _⟩)
  have hid : found.id = k.id := by simpa using List.find?_some hfound
  obtain ⟨c, hc, hs⟩ := service_of_kind h hk
  obtain ⟨c', hc', hs'⟩ := service_of_kind h (List.mem_of_find?_eq_some hfound)
  rw [hid, hs] at hs'
  cases hs'
  rw [hfound, ← hc.aspects_eq.1, ← hc'.aspects_eq.1]

end lookup

theorem kinds_eq (h : build kinds types extensions config = .ok p) : p.kinds = kinds := by
  obtain ⟨made, last, hmade⟩ := made_of_build h
  exact hmade.kinds_eq

end Provider

end EntityCatalog
