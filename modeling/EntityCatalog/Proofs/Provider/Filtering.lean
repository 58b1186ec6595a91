import EntityCatalog.Proofs.Chain.Complete
import EntityCatalog.Proofs.Provider.Answers
import EntityCatalog.Proofs.Provider.Injection

/-!
# Filters of listings

The service of a kind lists only what the filter of a request asks for. The service of descriptors does
not look at the filter and lists every descriptor. There are always two descriptors that have no value in
common, so that its listing is what was asked for only if nothing was (`listing_filtered_iff`).
-/

namespace EntityCatalog

open Json (Value)

/-! ## Descriptors as entities -/

namespace Service

theorem text_nat (n : Nat) : (Value.nat n).text = toString (n : Int) := by
  rw [Value.nat, Value.text, Json.Number.text]

theorem has_of_descriptor {d : Descriptor} {key wanted : String}
    (h : Has (.bare descriptorKind) (descriptorEntity d) key wanted) :
    key = "fields" ∧ wanted = toString (d.fields.length : Int) ∨
      key = "full_name" ∧ wanted = d.fullName ∨ key = "type_url" ∧ wanted = d.typeUrl := by
  have hmember : (descriptorEntity d).data.member? key =
      if key = "fields" then some (.nat d.fields.length)
      else if key = "full_name" then some (.string d.fullName)
      else if key = "type_url" then some (.string d.typeUrl) else none := rfl
  rw [has_iff_of_not_mem (by simp [EntityKind.bare]), hmember] at h
  split at h
  · next hkey =>
    refine .inl ⟨hkey, ?_⟩
    rw [← text_nat]
    exact (beq_iff_eq.1 h).symm
  · split at h
    · next hkey => exact .inr (.inl ⟨hkey, (beq_iff_eq.1 h).symm⟩)
    · split at h
      · next hkey => exact .inr (.inr ⟨hkey, (beq_iff_eq.1 h).symm⟩)
      · cases h

theorem not_has_both {key wanted : String}
    (hentity : Has (.bare descriptorKind) (descriptorEntity Builtin.entityDescriptor) key wanted) :
    ¬ Has (.bare descriptorKind) (descriptorEntity Builtin.identDescriptor) key wanted := by
  intro hident
  rcases has_of_descriptor hentity with ⟨rfl, rfl⟩ | ⟨rfl, rfl⟩ | ⟨rfl, rfl⟩ <;>
    rcases has_of_descriptor hident with ⟨hkey, h⟩ | ⟨hkey, h⟩ | ⟨hkey, h⟩ <;>
    revert hkey h <;> decide

theorem satisfies_of_isEmpty {kind : EntityKind} {filter : SortedMap String} (h : filter.isEmpty = true)
    (e : Entity) : Satisfies kind filter e := by
  intro key wanted hget
  rw [SortedMap.isEmpty_eq_true_iff.1 h] at hget
  cases (SortedMap.get?_empty key).symm.trans hget

theorem directed_of_listEntities {c : AspectChain} {request : ListRequest} {es : List Entity}
    {env : Env} {j : Journal} (h : (listEntities c request env j).1 = .ok es) :
    request.kind = c.kind.id := by
  by_contra hkind
  rw [listEntities, if_pos hkind] at h
  cases h

end Service

/-! ## Listings of a provider -/

namespace Provider

/-- The kind that a listing is about, as it is declared. A kind without a declaration has no path
segments with names. -/
def listedKind (p : Provider) (request : ListRequest) : EntityKind :=
  (p.kinds.get? request.kind).getD (.bare request.kind)

variable {kinds : KindRepository} {types : TypeRepository} {extensions : Extensions}
  {config : Config} {p : Provider} {request : ListRequest}

theorem listedKind_of_mem (h : build kinds types extensions config = .ok p) {k : EntityKind}
    (hk : k ∈ kinds.kinds) (hrequest : request.kind = k.id) : p.listedKind request = k := by
  rw [listedKind, kinds_eq h, hrequest, get?_kind h hk, Option.getD_some]

theorem listedKind_descriptors (h : build kinds types extensions config = .ok p)
    (hrequest : request.kind = Service.descriptorKind) :
    p.listedKind request = .bare Service.descriptorKind := by
  rw [listedKind, kinds_eq h, hrequest]
  cases hget : kinds.get? Service.descriptorKind with
  | none => rfl
  | some k =>
    have hid : k.id = Service.descriptorKind := by simpa using List.find?_some hget
    obtain ⟨c, -, hservice⟩ := service_of_kind h (List.mem_of_find?_eq_some hget)
    rw [hid, show Service.descriptorKind.text = Builtin.descriptor from rfl,
      service_of_descriptors h] at hservice
    cases hservice

theorem mem_descriptors_own (h : build kinds types extensions config = .ok p) {d : Descriptor}
    (hd : d ∈ Builtin.core ++ Builtin.introspection) : d ∈ p.types.descriptors :=
  p.types.mem_descriptors_iff.2 (find?_own h hd)

theorem isEmpty_of_satisfies_descriptors (h : build kinds types extensions config = .ok p)
    {filter : SortedMap String}
    (hall : ∀ d ∈ p.types.descriptors,
      Service.Satisfies (.bare Service.descriptorKind) filter (Service.descriptorEntity d)) :
    filter.isEmpty = true := by
  by_contra hfilter
  obtain ⟨⟨key, wanted⟩, rest, hentries⟩ := List.exists_cons_of_ne_nil
    fun hnil => hfilter (List.isEmpty_iff.2 hnil)
  have hget : filter.get? key = some wanted :=
    filter.mem_entries_iff.1 (by rw [hentries]; exact List.mem_cons_self)
  have hhas {d : Descriptor} (hd : d ∈ Builtin.core ++ Builtin.introspection) :=
    hall d (mem_descriptors_own h hd) key wanted hget
  exact Service.not_has_both (hhas (by decide)) (hhas (by decide))

theorem filtered_of_kind (h : build kinds types extensions config = .ok p) {world : World}
    {j : Journal} {id : String} {c : AspectChain} {es : List Entity}
    (hs : p.services.service? id = some (.kind c))
    (hlist : (Service.listEntities c request (p.env world) j).1 = .ok es) :
    ∀ e ∈ es, Service.Satisfies (p.listedKind request) request.filter e := by
  obtain ⟨hmem, -, hc⟩ := kind_of_service h hs
  rw [listedKind_of_mem h hmem (Service.directed_of_listEntities hlist)]
  exact fun e he => (Service.complete_of_listEntities hc hlist e he).2

/-- **A listing is what its filter asks for, except that the service of descriptors does not look at
filters.** All services of kinds keep to the filter. The service of descriptors always lists all of them.
If extensions leave the handle unbound, these are the descriptors of the provider, and they are what was
asked for exactly if the filter is empty. -/
theorem listing_filtered_iff (h : build kinds types extensions config = .ok p) {world : World}
    {j : Journal} {id : String} {es : List Entity}
    (hlist : (p.services.list id request (p.env world) j).1 = .ok es) :
    ∃ r, p.Publishes r ∧
      (id = Builtin.descriptor → es = r.descriptors.map Service.descriptorEntity) ∧
      (id ≠ Builtin.descriptor ∨ request.filter.isEmpty = true →
        ∀ e ∈ es, Service.Satisfies (p.listedKind request) request.filter e) ∧
      (extensions.LeaveUnbound → r = p.types ∧
        ((∀ e ∈ es, Service.Satisfies (p.listedKind request) request.filter e) ↔
          id ≠ Builtin.descriptor ∨ request.filter.isEmpty = true)) := by
  obtain ⟨r, hr, hown⟩ := published_of_build h
  unfold Services.list at hlist
  cases hs : p.services.service? id with
  | none =>
    rw [hs] at hlist
    cases hlist
  | some service =>
    rw [hs] at hlist
    cases service with
    | type c handle => cases hlist
    | kind c =>
      have hne : id ≠ Builtin.descriptor := by
        rintro rfl
        rw [service_of_descriptors h] at hs
        cases hs
      have hfiltered := filtered_of_kind h hs hlist
      exact ⟨r, hr, fun hid => absurd hid hne, fun _ => hfiltered,
        fun hleave => ⟨hown hleave, iff_of_true hfiltered (.inl hne)⟩⟩
    | introspection handle =>
      obtain ⟨rfl, rfl⟩ := descriptors_of_service h hs
      change (Service.listDescriptors p.handle request (p.env world) j).1 = .ok es at hlist
      rw [listDescriptors_eq hr] at hlist
      dsimp only at hlist
      split at hlist
      · next hrequest =>
        obtain rfl := Except.ok.inj hlist
        have hkept (h : Builtin.descriptor ≠ Builtin.descriptor ∨ request.filter.isEmpty = true) :
            ∀ e ∈ r.descriptors.map Service.descriptorEntity,
              Service.Satisfies (p.listedKind request) request.filter e :=
          fun e _ => Service.satisfies_of_isEmpty (h.resolve_left (absurd rfl)) e
        refine ⟨r, hr, fun _ => rfl, hkept, fun hleave => ?_⟩
        obtain rfl := hown hleave
        refine ⟨rfl, fun hall => .inr ?_, hkept⟩
        rw [listedKind_descriptors h hrequest] at hall
        exact isEmpty_of_satisfies_descriptors h (List.forall_mem_map.1 hall)
      · cases hlist

/-- A listing of the only kind of a model, where it is not the first book that is asked for. -/
theorem listing_filtered_iff_second :
    ∃ p, build ⟨[Service.books]⟩ .empty Service.bookContext.extensions .standard = .ok p ∧
      (p.services.list "demo.book" ⟨Service.books.id, .ofList [("isbn", "2")]⟩
        (p.env stillWorld) []).1 = .ok [Service.secondBook] ∧
      ∀ e ∈ [Service.secondBook], Service.Satisfies
        (p.listedKind ⟨Service.books.id, .ofList [("isbn", "2")]⟩) (.ofList [("isbn", "2")]) e := by
  obtain ⟨p, hbuild, hservice⟩ :
      ∃ p, build ⟨[Service.books]⟩ .empty Service.bookContext.extensions .standard = .ok p ∧
        p.services.service? "demo.book" = some (.kind Service.bookChain) :=
    ⟨_, rfl, rfl⟩
  have hlist : (p.services.list "demo.book" ⟨Service.books.id, .ofList [("isbn", "2")]⟩
      (p.env stillWorld) []).1 = .ok [Service.secondBook] := by
    rw [Services.list, hservice]
    rfl
  obtain ⟨r, -, -, hfiltered, -⟩ := listing_filtered_iff hbuild hlist
  exact ⟨p, hbuild, hlist, hfiltered (.inl (by decide))⟩

/-- A request for one descriptor by its name is answered with another one too. -/
theorem listing_ignores_filter :
    ∃ p es, build .empty .empty .empty .standard = .ok p ∧
      (p.services.list "kindred.Descriptor"
        ⟨⟨"kindred", "Descriptor"⟩, .ofList [("full_name", "kindred.Entity")]⟩
        (p.env stillWorld) []).1 = .ok es ∧
      ∃ e ∈ es, ¬ Service.Satisfies
        (p.listedKind ⟨⟨"kindred", "Descriptor"⟩, .ofList [("full_name", "kindred.Entity")]⟩)
        (.ofList [("full_name", "kindred.Entity")]) e := by
  obtain ⟨p, hbuild, hlist⟩ : ∃ p, build .empty .empty .empty .standard = .ok p ∧
      (p.services.list "kindred.Descriptor"
        ⟨⟨"kindred", "Descriptor"⟩, .ofList [("full_name", "kindred.Entity")]⟩
        (p.env stillWorld) []).1 = .ok (p.types.descriptors.map Service.descriptorEntity) :=
    ⟨_, rfl, rfl⟩
  refine ⟨p, _, hbuild, hlist, Service.descriptorEntity Builtin.identDescriptor,
    List.mem_map_of_mem (mem_descriptors_own hbuild (by decide)), fun h => ?_⟩
  rw [listedKind_descriptors hbuild rfl] at h
  rcases Service.has_of_descriptor (h "full_name" "kindred.Entity" rfl) with
    ⟨hkey, -⟩ | ⟨-, hname⟩ | ⟨hkey, -⟩
  · exact absurd hkey (by decide)
  · exact absurd hname (by decide)
  · exact absurd hkey (by decide)

end Provider

end EntityCatalog
