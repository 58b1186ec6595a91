import EntityCatalog.Proofs.Provider.Construction
import EntityCatalog.Proofs.Schema.Registry

/-!
# Contributions to the registry

Every declaration has one service, and the chain behind it contributes descriptors. Construction adds
them to two registries, one for the kinds and one for the types, and merges these behind the types of
the library. The result looks a name up as if all contributions stood in one list, in the order of
declaration: the first of a name is the one that is found, and no contribution displaces a type of the
library.
-/

namespace EntityCatalog

theorem TypeRegistry.add_append (r : TypeRegistry) (ds ds' : List Descriptor) :
    r.add (ds ++ ds') = (r.add ds).add ds' := List.foldl_append

theorem Services.register_eq_ok {s s' : Services} {service : Service}
    (h : s.register service = .ok s') (id : String) (found : Service) :
    s'.service? id = some found ↔ s.service? id = some found ∨ id = service.id ∧ found = service := by
  unfold register at h
  split at h
  · cases h
  · next hfree =>
    cases h
    have hnone : s.service? service.id = none :=
      (SortedMap.contains_eq_false_iff _).1 (Bool.eq_false_iff.2 hfree)
    have hlookup : (⟨s.table.insert service.id service⟩ : Services).service? id =
        if id = service.id then some service else s.service? id :=
      SortedMap.get?_insert s.table service.id id service
    rw [hlookup]
    by_cases hid : id = service.id
    · subst hid
      simp [hnone, eq_comm]
    · simp [hid]

namespace Provider

/-- A service answers for a declaration: it is made for the declaration at some time of construction. -/
def AnswersFor (cx : BuildContext) (d : Declaration) (service : Service) : Prop :=
  ∃ s s', Declares cx d s service s'

section declare
variable {cx : BuildContext} {draft draft' : Draft} {s s' : Construction}

/-- What a run over declarations leaves: their services beside those that were there, and their
contributions added one after another. -/
theorem declareAll_eq_ok {ds : List Declaration} (h : ds.foldlM (declare cx) draft s = .ok (draft', s')) :
    ∃ made, Threads (Declares cx) ds s made s' ∧
      draft'.descriptors = draft.descriptors.add (made.flatMap Service.contributions) ∧
      ∀ id service, draft'.services.service? id = some service ↔
        draft.services.service? id = some service ∨ service ∈ made ∧ id = service.id := by
  induction ds generalizing draft s with
  | nil =>
    cases h
    exact ⟨[], .nil, rfl, by simp⟩
  | cons d ds ih =>
    rw [List.foldlM_cons] at h
    obtain ⟨mid, between, hstep, hrest⟩ := bind_state_eq_ok h
    obtain ⟨service, hservice, hregister, hdescriptors⟩ := declare_eq_ok hstep
    obtain ⟨made, hmade, hadded, hserved⟩ := ih hrest
    refine ⟨service :: made, .cons hservice hmade, ?_, fun id found => ?_⟩
    · rw [hadded, hdescriptors, List.flatMap_cons, TypeRegistry.add_append]
    · rw [hserved, Services.register_eq_ok hregister, or_assoc, List.mem_cons, or_and_right]
      refine or_congr_right (or_congr_left ⟨?_, ?_⟩)
      · rintro ⟨rfl, rfl⟩
        exact ⟨rfl, rfl⟩
      · rintro ⟨rfl, rfl⟩
        exact ⟨rfl, rfl⟩

theorem chains_of_answersFor {δ χ : Type} {declared : δ → Declaration} {served : χ → Service}
    {built : δ → χ → Prop} (hbuilt : ∀ d service, AnswersFor cx (declared d) service →
      ∃ c, built d c ∧ service = served c) {ds : List δ} {made : List Service}
    (h : List.Forall₂ (AnswersFor cx) (ds.map declared) made) :
    ∃ chains, List.Forall₂ built ds chains ∧ made = chains.map served := by
  induction ds generalizing made with
  | nil =>
    cases h
    exact ⟨[], .nil, rfl⟩
  | cons d ds ih =>
    cases h with
    | cons hd hds =>
      obtain ⟨chains, hchains, rfl⟩ := ih hds
      obtain ⟨c, hc, rfl⟩ := hbuilt d _ hd
      exact ⟨c :: chains, .cons hc hchains, rfl⟩

theorem AnswersFor.kind_chain {k : EntityKind} {service : Service}
    (h : AnswersFor cx (.kind k) service) :
    ∃ c, AspectChain.BuiltFor cx k c ∧ service = .kind c := by
  obtain ⟨s, s', h⟩ := h
  cases h with
  | kind hc => exact ⟨_, ⟨s, s', hc⟩, rfl⟩

theorem AnswersFor.type_chain {t : TypeDecl} {service : Service}
    (h : AnswersFor cx (.type t) service) :
    ∃ c, ConnectorChain.build cx t = .ok c ∧ service = .type c cx.handle := by
  obtain ⟨s, s', h⟩ := h
  cases h with
  | type hc => exact ⟨_, hc, rfl⟩

end declare

/-- The types of the library, then what the chains of kinds contribute, then what those of types do. -/
def contributed (ofKinds : List AspectChain) (ofTypes : List ConnectorChain) : List Descriptor :=
  Builtin.core ++ Builtin.introspection ++
    ofKinds.flatMap (fun c => c.aspects.flatMap Aspect.descriptors) ++
    ofTypes.flatMap (fun c => c.connectors.flatMap ThingConnector.descriptors)

variable {kinds : KindRepository} {types : TypeRepository} {extensions : Extensions}
  {config : Config} {p : Provider}

theorem construct_of_build (h : build kinds types extensions config = .ok p) :
    ∃ s, construct kinds types extensions config .start = .ok (p, s) := by
  rw [build_eq] at h
  obtain ⟨⟨_, s⟩, hconstruct, rfl⟩ := map_eq_ok h
  exact ⟨s, hconstruct⟩

theorem construct_eq_ok {s : Construction}
    (h : construct kinds types extensions config .start = .ok (p, s)) :
    ∃ ofKinds mid ofTypes last,
      (kinds.kinds.map .kind).foldlM (declare (context kinds extensions config)) ⟨first, ∅⟩ started =
        .ok (ofKinds, mid) ∧
      (types.types.map .type).foldlM (declare (context kinds extensions config))
        ⟨ofKinds.services, ∅⟩ mid = .ok (ofTypes, last) ∧
      (p, s) = finished kinds ofKinds ofTypes last := by
  rw [construct_eq] at h
  obtain ⟨⟨ofKinds, mid⟩, hkinds, h⟩ := bind_eq_ok h
  obtain ⟨⟨ofTypes, last⟩, htypes, h⟩ := map_eq_ok h
  exact ⟨ofKinds, mid, ofTypes, last, hkinds, htypes, h.symm⟩

theorem build_eq_ok (h : build kinds types extensions config = .ok p) :
    ∃ ofKinds mid ofTypes last,
      (kinds.kinds.map .kind).foldlM (declare (context kinds extensions config)) ⟨first, ∅⟩ started =
        .ok (ofKinds, mid) ∧
      (types.types.map .type).foldlM (declare (context kinds extensions config))
        ⟨ofKinds.services, ∅⟩ mid = .ok (ofTypes, last) ∧
      p = (finished kinds ofKinds ofTypes last).1 := by
  obtain ⟨s, h⟩ := construct_of_build h
  obtain ⟨ofKinds, mid, ofTypes, last, hkinds, htypes, heq⟩ := construct_eq_ok h
  exact ⟨ofKinds, mid, ofTypes, last, hkinds, htypes, congrArg Prod.fst heq⟩

theorem find?_registry (ofKinds ofTypes : Draft) (name : String) :
    (registry ofKinds ofTypes).find? name =
      (ownTypes.find? name).or
        ((ofKinds.descriptors.find? name).or (ofTypes.descriptors.find? name)) := by
  rw [registry, TypeRegistry.find?_merge, TypeRegistry.find?_merge, Option.or_assoc]

theorem find?_ownTypes {d : Descriptor} (hd : d ∈ Builtin.core ++ Builtin.introspection) :
    ownTypes.find? d.fullName = some d := by
  have hfirst : ∀ d ∈ Builtin.core ++ Builtin.introspection,
      (Builtin.core ++ Builtin.introspection).find? (·.fullName == d.fullName) = some d := by
    decide
  rw [ownTypes, TypeRegistry.find?_ofList, hfirst d hd]

theorem find?_own (h : build kinds types extensions config = .ok p) {d : Descriptor}
    (hd : d ∈ Builtin.core ++ Builtin.introspection) : p.types.find? d.fullName = some d := by
  obtain ⟨ofKinds, -, ofTypes, -, -, -, rfl⟩ := build_eq_ok h
  rw [finished, find?_registry, find?_ownTypes hd, Option.some_or]

/-- **A name leads to its first contribution**, in the order: the types of the library, the chains of
the kinds, the chains of the types. A name that nobody contributes leads nowhere. -/
theorem finds_first_contribution (h : build kinds types extensions config = .ok p) :
    ∃ ofKinds ofTypes,
      List.Forall₂ (AspectChain.BuiltFor (context kinds extensions config)) kinds.kinds ofKinds ∧
      List.Forall₂ (fun t c => ConnectorChain.build (context kinds extensions config) t = .ok c)
        types.types ofTypes ∧
      (∀ c ∈ ofKinds, p.services.service? c.kind.id.text = some (.kind c)) ∧
      (∀ c ∈ ofTypes, p.services.service? c.type.name = some (.type c p.handle)) ∧
      (∀ name, p.types.find? name = (contributed ofKinds ofTypes).find? (·.fullName == name)) ∧
      (∀ name, p.types.find? name = none ↔ ∀ d ∈ contributed ofKinds ofTypes, d.fullName ≠ name) ∧
      (∀ before d after, contributed ofKinds ofTypes = before ++ d :: after →
        (∀ b ∈ before, b.fullName ≠ d.fullName) → p.types.find? d.fullName = some d) ∧
      ∀ d ∈ Builtin.core ++ Builtin.introspection, p.types.find? d.fullName = some d := by
  have hown := fun d => find?_own h (d := d)
  obtain ⟨afterKinds, mid, afterTypes, last, hkinds, htypes, rfl⟩ := build_eq_ok h
  obtain ⟨kindServices, hkindServices, hkindDescriptors, hkindServed⟩ := declareAll_eq_ok hkinds
  obtain ⟨typeServices, htypeServices, htypeDescriptors, htypeServed⟩ := declareAll_eq_ok htypes
  obtain ⟨ofKinds, hofKinds, rfl⟩ :=
    chains_of_answersFor (fun _ _ => AnswersFor.kind_chain) hkindServices.forall₂
  obtain ⟨ofTypes, hofTypes, rfl⟩ :=
    chains_of_answersFor (fun _ _ => AnswersFor.type_chain) htypeServices.forall₂
  have hfind (name : String) : (finished kinds afterKinds afterTypes last).1.types.find? name =
      (contributed ofKinds ofTypes).find? (·.fullName == name) := by
    rw [finished, find?_registry, hkindDescriptors, htypeDescriptors, ownTypes, TypeRegistry.find?_ofList,
      TypeRegistry.find?_add, TypeRegistry.find?_add]
    have hempty : (∅ : TypeRegistry).find? name = none := TypeRegistry.find?_empty name
    simp only [contributed, List.find?_append, List.flatMap_map, Service.contributions, hempty,
      Option.none_or, Option.or_assoc]
  refine ⟨ofKinds, ofTypes, hofKinds, hofTypes, fun c hc => ?_, fun c hc => ?_, hfind, fun name => ?_,
    fun before d after hall hfirst => ?_, hown⟩
  · exact (htypeServed _ _).2 (.inl ((hkindServed _ _).2 (.inr ⟨List.mem_map_of_mem hc, rfl⟩)))
  · exact (htypeServed _ _).2 (.inr ⟨List.mem_map_of_mem hc, rfl⟩)
  · rw [hfind]
    simp
  · have hbefore : before.find? (·.fullName == d.fullName) = none := by
      simpa using hfirst
    rw [hfind, hall, List.find?_append, hbefore]
    simp

/-! ### Contributions under one name -/

/-- An aspect that contributes a type of its own, and one under a name of the library. -/
def annotator : AspectExtension where
  name := "annotator"
  repositoryAware _ := false
  providerAware _ := false
  descriptors _ := [⟨"demo.Note", [.plain "title" 1 .string]⟩, ⟨Builtin.entity, []⟩]
  augment _ _ e := .success e
  list _ _ _ before := .success before

/-- A connector that contributes another type under the name of the aspect's. -/
def clerk : ThingConnector where
  name := "clerk"
  descriptors := [⟨"demo.Author", []⟩, ⟨"demo.Note", [.plain "body" 1 .bytes]⟩]
  load _ _ _ things := .success things

def annotated : KindRepository :=
  ⟨[{ EntityKind.bare ⟨"demo", "book"⟩ with connectors := [.extension "annotator"] }]⟩

def clerks : TypeRepository := ⟨[⟨"demo.Person", none, [.extension "clerk"]⟩]⟩

def contributors : Extensions := ⟨.ofList [("annotator", annotator)], .ofList [("clerk", clerk)]⟩

theorem finds_first_contribution_clash :
    ∃ p, build annotated clerks contributors .standard = .ok p ∧
      p.types.find? "demo.Note" = some ⟨"demo.Note", [.plain "title" 1 .string]⟩ ∧
      p.types.find? "demo.Author" = some ⟨"demo.Author", []⟩ ∧
      p.types.find? Builtin.entity = some Builtin.entityDescriptor := by
  obtain ⟨p, hbuild, hnote, hauthor⟩ : ∃ p, build annotated clerks contributors .standard = .ok p ∧
      p.types.find? "demo.Note" = some ⟨"demo.Note", [.plain "title" 1 .string]⟩ ∧
      p.types.find? "demo.Author" = some ⟨"demo.Author", []⟩ :=
    ⟨_, rfl, rfl, rfl⟩
  obtain ⟨-, -, -, -, -, -, -, -, -, hown⟩ := finds_first_contribution hbuild
  exact ⟨p, hbuild, hnote, hauthor, hown Builtin.entityDescriptor (by decide)⟩

end Provider

end EntityCatalog
