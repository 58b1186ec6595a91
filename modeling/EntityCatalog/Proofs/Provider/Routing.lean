import EntityCatalog.Proofs.Chain.Failure
import EntityCatalog.Proofs.Provider.Answers
import EntityCatalog.Proofs.Provider.Injection
import EntityCatalog.Proofs.Repository

/-!
# Routing

An IRI is routed by what stands in front of its first slash. All IRIs below an identifier are routed as
the identifier itself, and that is found exactly if it holds no slash (`routed_to_itself_iff`). The
identifiers of loaded kinds hold none: the IRI of an entity reaches the service of its kind, which takes
it for one of its own (`routed_to_kind`).
-/

namespace EntityCatalog

/-! ## Heads of IRIs -/

namespace Services

variable {s : Services} {id iri : String}

theorem head_eq (iri : String) : head iri = String.ofList (iri.toList.takeWhile (· ≠ '/')) := by
  rw [head, Text.splitAll_fst]

theorem slash_not_mem_head (iri : String) : '/' ∉ (head iri).toList := by
  rw [head, String.toList_ofList]
  exact Text.not_mem_of_mem_splitAll List.mem_cons_self

theorem head_eq_self_iff : head iri = iri ↔ '/' ∉ iri.toList := by
  constructor
  · intro h
    rw [← h]
    exact slash_not_mem_head iri
  · intro h
    rw [head, Text.splitAll_of_not_mem h, String.ofList_toList]

theorem head_below (id x : String) : head (id ++ "/" ++ x) = head id := by
  have htext : (id ++ "/" ++ x).toList = id.toList ++ '/' :: x.toList := by simp
  rw [head, htext, Text.splitAll_around, head]

/-- The IRIs that are built from an identifier: itself, and whatever stands below it. -/
inductive Under (id : String) : String → Prop
  | self : Under id id
  | below (x : String) : Under id (id ++ "/" ++ x)

theorem Under.head_eq (h : Under id iri) : head iri = head id := by
  cases h with
  | self => rfl
  | below x => exact head_below id x

theorem route_eq_ok_iff : s.route iri = .ok id ↔ head iri = id ∧ s.contains id = true := by
  unfold route
  split
  · next h =>
    rw [Except.ok.injEq]
    exact ⟨fun hid => ⟨hid, hid ▸ h⟩, fun hid => hid.1⟩
  · next h => exact ⟨nofun, fun ⟨hhead, hid⟩ => absurd (hhead ▸ hid) h⟩

theorem contains_iff : s.contains id = true ↔ ∃ service, s.service? id = some service :=
  s.table.contains_eq_true_iff

end Services

/-! ## Identifiers -/

namespace Provider
open Services

variable {kinds : KindRepository} {types : TypeRepository} {extensions : Extensions}
  {config : Config} {p : Provider} {id : String}

/-- **A service is reached by the IRIs that are built from its identifier exactly if that holds no
slash.** Otherwise all of them are routed by what stands in front of the slash: to another service or to
none. Only the name of a type, or the identifier of a kind that no text is read as, can be so. -/
theorem routed_to_itself_iff (h : build kinds types extensions config = .ok p)
    (hid : p.services.contains id = true) :
    ((∀ iri, Under id iri → p.services.route iri = .ok id) ↔ '/' ∉ id.toList) ∧
    ('/' ∈ id.toList →
      head id ≠ id ∧
      (∀ iri, Under id iri → p.services.route iri =
        if p.services.contains (head id) then .ok (head id) else .error (.unknownService (head id))) ∧
      ((∃ t ∈ types.types, id = t.name) ∨ ∃ k ∈ kinds.kinds, id = k.id.text ∧ ¬ k.id.Canonical)) := by
  refine ⟨⟨fun hall => ?_, fun hslash iri hiri => ?_⟩, fun hslash => ⟨?_, fun iri hiri => ?_, ?_⟩⟩
  · exact head_eq_self_iff.1 (route_eq_ok_iff.1 (hall id .self)).1
  · exact route_eq_ok_iff.2 ⟨hiri.head_eq.trans (head_eq_self_iff.2 hslash), hid⟩
  · exact fun hhead => head_eq_self_iff.1 hhead hslash
  · rw [route, hiri.head_eq]
  · obtain ⟨service, hservice⟩ := contains_iff.1 hid
    cases origin_of_service h hservice with
    | descriptors => exact absurd hslash (by decide)
    | @kind k _ hk => exact .inr ⟨k, hk, rfl, fun hcanonical => hcanonical.no_slash hslash⟩
    | @type t _ ht => exact .inl ⟨t, ht, rfl⟩

/-- A type with a slash in its name, which no service is found for. -/
theorem routed_to_itself_iff_slashed :
    ∃ p, build .empty ⟨[.bare "demo/Person"]⟩ .empty .standard = .ok p ∧
      p.services.contains "demo/Person" = true ∧
      p.services.route "demo/Person/ada" = .error (.unknownService "demo") := by
  obtain ⟨p, hbuild, hid, hnone⟩ :
      ∃ p, build .empty ⟨[.bare "demo/Person"]⟩ .empty .standard = .ok p ∧
        p.services.contains "demo/Person" = true ∧ p.services.contains "demo" = false :=
    ⟨_, rfl, rfl, rfl⟩
  obtain ⟨-, hroute, -⟩ := (routed_to_itself_iff hbuild hid).2 (by decide)
  refine ⟨p, hbuild, hid, ?_⟩
  have hperson := hroute _ (.below "ada")
  rw [show head "demo/Person" = "demo" from rfl, hnone] at hperson
  exact hperson

/-- A type that a repository accepts, and of which the IRIs go to the service of descriptors. -/
theorem type_routed_elsewhere :
    ∃ types p, TypeRepository.ofList [.bare "kindred.Descriptor/x"] = .ok types ∧
      build .empty types .empty .standard = .ok p ∧
      p.services.contains "kindred.Descriptor/x" = true ∧
      p.services.route "kindred.Descriptor/x" = .ok "kindred.Descriptor" :=
  ⟨_, _, rfl, rfl, rfl, rfl⟩

/-! ## Entities and kinds -/

theorem aspect_of_get (h : build kinds types extensions config = .ok p) {k : EntityKind}
    (hk : k ∈ kinds.kinds) {iri : String} {e : EntityId} (hiri : EntityId.parse iri = .ok e)
    (hkind : e.kind = k.id) : ∃ c, p.services.service? k.id.text = some (.kind c) ∧ c.kind = k ∧
      ∀ env j f, (p.services.get k.id.text iri env j).1 = .error f →
        ∃ name ∈ c.names, ∃ cause, f = .aspect k.id.text name cause := by
  obtain ⟨c, hc, hservice⟩ := service_of_kind h hk
  obtain rfl := hc.aspects_eq.1
  refine ⟨c, hservice, rfl, fun env j f hget => ?_⟩
  rw [Services.get, hservice] at hget
  have hid : Service.entityId c.kind iri = .ok e := Service.entityId_eq_ok_iff.2 ⟨hiri, hkind⟩
  rcases Service.get_eq_error hget with hrefused | hfailed
  · rw [hid] at hrefused
    cases hrefused
  · exact Service.aspect_of_failsWith hfailed

/-- **What is routed by default reaches the right service.** Let the kinds of a provider be those of a
document. The IRI of an entity of a kind is routed to that kind, and only an aspect of the kind can fail
on it. If no service has what stands in front of the first slash of an IRI, it is refused with just that.
A listing that is sent to the service of the kind it is about can fail only in an aspect too, and a listing
of descriptors cannot fail. -/
theorem routed_to_kind {text : String} (hkinds : KindRepository.parse text = .ok kinds)
    (h : build kinds types extensions config = .ok p) (s : String) (world : World) (j : Journal) :
    (∀ e k, EntityId.parse s = .ok e → kinds.get? e.kind = some k →
      p.services.route s = .ok k.id.text ∧
      ∃ c, p.services.service? k.id.text = some (.kind c) ∧ c.kind = k ∧
        ∀ f, (p.services.get k.id.text s (p.env world) j).1 = .error f →
          ∃ name ∈ c.names, ∃ cause, f = .aspect k.id.text name cause) ∧
    (∀ first, first = String.ofList (s.toList.takeWhile (· ≠ '/')) → p.services.contains first = false →
      p.services.route s = .error (.unknownService first)) ∧
    ∀ id service request, KindId.parse s = .ok id → p.services.service? s = some service →
      (∀ c handle, service ≠ .type c handle) → request.kind = id →
      ∀ f, (p.services.list s request (p.env world) j).1 = .error f →
        ∃ name ∈ service.chainNames, ∃ cause, f = .aspect s name cause := by
  refine ⟨fun e k hs hget => ?_, fun first hfirst hnone => ?_,
    fun id service request hs hservice huntyped hrequest f hf => ?_⟩
  · have hkind : k.id = e.kind := by simpa using List.find?_some hget
    obtain ⟨c, hservice, hc, haspect⟩ :=
      aspect_of_get h (List.mem_of_find?_eq_some hget) hs hkind.symm
    refine ⟨route_eq_ok_iff.2 ⟨?_, contains_iff.2 ⟨_, hservice⟩⟩, c, hservice, hc,
      haspect (p.env world) j⟩
    obtain ⟨rfl, he⟩ := EntityId.canonical_of_parse hs
    rw [head_eq, EntityId.takeWhile_text he, String.ofList_toList, hkind]
  · rw [route, head_eq, ← hfirst, hnone]
    rfl
  · rw [Services.list, hservice] at hf
    cases service with
    | type c handle => exact absurd rfl (huntyped c handle)
    | kind c =>
      -- both identifiers are written like the service, and both can be read back
      obtain ⟨hmem, rfl, -⟩ := kind_of_service h hservice
      obtain ⟨htext, hid⟩ := KindId.canonical_of_parse hs
      have hkind : id = c.kind.id :=
        hid.eq_of_text (KindRepository.canonical_of_parse hkinds hmem) htext
      rcases Service.listEntities_eq_error hf with ⟨hother, -⟩ | hfailed
      · exact absurd (hrequest.trans hkind) hother
      · exact Service.aspect_of_failsWith hfailed
    | introspection handle =>
      obtain ⟨rfl, rfl⟩ := descriptors_of_service h hservice
      have hid : Service.descriptorKind = id := Except.ok.inj hs
      obtain ⟨r, hr, -⟩ := published_of_build h
      change (Service.listDescriptors p.handle request (p.env world) j).1 = .error f at hf
      rw [listDescriptors_eq hr, if_pos (hrequest.trans hid.symm)] at hf
      cases hf

/-- Books and nothing else. -/
def bookKind : EntityKind := { EntityKind.bare ⟨"demo", "book"⟩ with paths := ["isbn"] }

theorem routed_to_kind_book :
    KindRepository.parse "kinds: [{id: demo.book, paths: [isbn]}]" = .ok ⟨[bookKind]⟩ ∧
    ∃ p, build ⟨[bookKind]⟩ .empty .empty .standard = .ok p ∧
      p.services.route "demo.book/1" = .ok "demo.book" ∧
      (∀ cause, (p.services.get "demo.book" "demo.book/1" (p.env stillWorld) []).1 ≠
        .error (.invalidRequest cause)) ∧
      p.services.route "demo.song/1" = .error (.unknownService "demo.song") ∧
      ∀ cause, (p.services.list "demo.book" (.all bookKind.id) (p.env stillWorld) []).1 ≠
        .error (.invalidRequest cause) := by
  have hparse : KindRepository.parse "kinds: [{id: demo.book, paths: [isbn]}]" =
      .ok ⟨[bookKind]⟩ := by
    decide +kernel
  obtain ⟨p, hbuild, hsong⟩ : ∃ p, build ⟨[bookKind]⟩ .empty .empty .standard = .ok p ∧
      p.services.contains "demo.song" = false :=
    ⟨_, rfl, rfl⟩
  have hid : bookKind.id.text = "demo.book" := rfl
  have hrouted (s : String) := routed_to_kind hparse hbuild s stillWorld []
  obtain ⟨hroute, c, hservice, -, hget⟩ :=
    (hrouted "demo.book/1").1 ⟨⟨"demo", "book"⟩, ["1"]⟩ bookKind rfl rfl
  rw [hid] at hroute hservice hget
  refine ⟨hparse, p, hbuild, hroute, fun cause hf => ?_,
    (hrouted "demo.song/1").2.1 "demo.song" rfl hsong, fun cause hf => ?_⟩
  · obtain ⟨name, -, failure, haspect⟩ := hget _ hf
    cases haspect
  · obtain ⟨name, -, failure, haspect⟩ := (hrouted "demo.book").2.2 bookKind.id _ _ rfl hservice
      (fun _ _ => nofun) rfl _ hf
    cases haspect

end Provider

end EntityCatalog
