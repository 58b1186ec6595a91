import EntityCatalog.Proofs.Aspect.Sight
import EntityCatalog.Proofs.Chain.Failure
import EntityCatalog.Proofs.Chain.Simulation
import EntityCatalog.Proofs.Provider.Introspection
import EntityCatalog.Proofs.Provider.Things

/-!
# What aspects are given by a provider

An object of an extension is created for each connector that names it, and is given what it opts in to while
its chain is built: the repository of all kinds, then the handle of the provider (`Injected`). The log of
construction has this for all objects, one after another, and nothing else. When construction is over the
handle leads to one registry, and every request is answered with it (`context_injected`). It is the finished
registry, unless an extension has bound the handle as it was given it. That nothing else is ever seen
through the handle is stated by what makes no difference to the answers: whatever extensions do on other
occasions (`Provider.Live`).

Handles are values, and all copies of a handle lead to the same cell.
-/

namespace EntityCatalog

/-! ## Grants -/

/-- What a connector of a kind has become, and what that was given. An aspect of the library is given
nothing. An object of an extension is created, and given once what it opts in to, the repository first. At
that time the handle leads nowhere, or to what an extension has bound it to. -/
inductive Injected (cx : BuildContext) (s : Construction) (r : TypeRegistry) : Connector → Aspect → Prop
  | own {declared : Connector} {a : Aspect} (hdeclared : ∀ name, declared ≠ .extension name)
      (ha : a.BuiltIn) : Injected cx s r declared a
  | extension {name : String} {o : AspectObject} {seen : Option TypeRegistry}
      (hx : cx.extensions.aspects.get? name = some o.extension)
      (hseen : seen = none ∨ seen = some r ∧ ¬ cx.extensions.LeaveUnbound)
      (hgrants : o.grants = cx.repositoryGrants o.extension ++ cx.providerGrants o.extension seen)
      (hevents : s.eventsOf o = .created o.number :: o.grants.map (.accepted o.number)) :
      Injected cx s r (.extension name) (.extension o)

theorem AspectChain.mem_objects {c : AspectChain} {o : AspectObject} :
    o ∈ c.objects ↔ .extension o ∈ c.aspects := by
  rw [objects, List.mem_filterMap]
  constructor
  · rintro ⟨a, ha, hobject⟩
    cases a with
    | extension own =>
      cases hobject
      exact ha
    | _ => cases hobject
  · exact fun ho => ⟨_, ho, rfl⟩

namespace Provider

variable {kinds : KindRepository} {types : TypeRepository} {extensions : Extensions}
  {config : Config} {p : Provider} {made : List Service} {last : Construction} {r : TypeRegistry}

theorem Made.chains (h : Made kinds types extensions config p made last) :
    ∃ chains, List.Forall₂ (fun k c => AspectChain.BuiltFor (context kinds extensions config) k c ∧
        p.services.service? k.id.text = some (.kind c)) kinds.kinds chains ∧
      made.flatMap Service.objects = chains.flatMap AspectChain.objects := by
  obtain ⟨kindsMade, typesMade, rfl, hkinds, htypes⟩ := forall₂_append_left h.run.forall₂
  obtain ⟨chains, hchains, rfl⟩ := chains_of_answersFor (fun _ _ => AnswersFor.kind_chain) hkinds
  obtain ⟨others, -, rfl⟩ := chains_of_answersFor (fun _ _ => AnswersFor.type_chain) htypes
  refine ⟨chains, forall₂_imp_mem hchains fun k _ c hc hbuilt => ⟨hbuilt, ?_⟩, ?_⟩
  · rw [← hbuilt.aspects_eq.1]
    exact (h.served _ _).2 (.declaration (List.mem_append_left _ (List.mem_map_of_mem hc)))
  · have hnone : (others.map fun c => Service.type c (context kinds extensions config).handle).flatMap
        Service.objects = [] := by
      simp [List.flatMap_map, Service.objects]
    rw [List.flatMap_append, hnone, List.append_nil, List.flatMap_map]
    rfl

theorem Made.publishes_eq (h : Made kinds types extensions config p made last)
    (hr : p.Publishes r) : r = (last.bindings.types? p.handle).getD p.types :=
  Option.some.inj ((hr stillWorld).symm.trans h.published)

/-- What services find is the finished registry, or what an object has bound the handle to. -/
theorem Made.own_or_bound (h : Made kinds types extensions config p made last)
    (hr : p.Publishes r) :
    r = p.types ∨ ∃ o ∈ made.flatMap Service.objects, o.extension.binds o.grants = some r := by
  have hpublished := h.publishes_eq hr
  cases hlast : last.bindings.types? p.handle with
  | none =>
    rw [hlast] at hpublished
    exact .inl hpublished
  | some bound =>
    rw [hlast] at hpublished
    obtain rfl : r = bound := hpublished
    exact .inr (h.bound hlast)

theorem Made.seen (h : Made kinds types extensions config p made last) (hr : p.Publishes r) :
    last.bindings.types? p.handle = none ∨
      last.bindings.types? p.handle = some r ∧ ¬ extensions.LeaveUnbound := by
  have hpublished := h.publishes_eq hr
  cases hlast : last.bindings.types? p.handle with
  | none => exact .inl rfl
  | some bound =>
    rw [hlast] at hpublished
    obtain rfl : r = bound := hpublished
    refine .inr ⟨rfl, fun hleave => ?_⟩
    rw [h.unbound hleave] at hlast
    cases hlast

/-- All objects have been given what they opt in to, and nothing else has happened to them. -/
theorem Made.injected (h : Made kinds types extensions config p made last)
    (hr : p.Publishes r) {s : Construction} (hs : s.events = last.events) {declared : Connector} {a : Aspect}
    (hyields : (context kinds extensions config).Yields declared a)
    (ha : ∀ o, a = .extension o → o ∈ made.flatMap Service.objects) :
    Injected ⟨kinds, p.handle, extensions, config⟩ s r declared a := by
  have hcx : (⟨kinds, p.handle, extensions, config⟩ : BuildContext) = context kinds extensions config := by
    rw [h.handle_eq]
    rfl
  rw [hcx]
  obtain ⟨before, after, hmakes⟩ := hyields
  cases hmakes with
  | @extension name x _ hx =>
    generalize hobject : (context kinds extensions config).object x before = o at ha ⊢
    have ho := ha o rfl
    obtain rfl : x = o.extension := congrArg AspectObject.extension hobject
    obtain ⟨-, seen, hgrants, hseen⟩ := h.grows.admitted o ho
    rw [← h.handle_eq] at hseen
    refine .extension hx (hseen.elim .inl fun hseen => hseen ▸ h.seen hr) hgrants ?_
    · have hnumbers : ((made.flatMap Service.objects).map AspectObject.number).Nodup := by
        rw [h.grows.numbers]
        exact List.nodup_range'
      rw [Construction.eventsOf, hs, h.grows.events]
      exact AspectObject.filter_histories hnumbers ho
  | error => exact .own nofun nofun
  | store => exact .own nofun nofun
  | remote => exact .own nofun nofun

/-! ## Contributions -/

theorem contribution_visible (h : build kinds types extensions config = .ok p) {id : String}
    {service : Service} (hs : p.services.service? id = some service) {d : Descriptor}
    (hd : d ∈ service.contributions) : ∃ found, p.types.find? d.fullName = some found ∧
      (found ∈ Builtin.core ++ Builtin.introspection ∨ ∃ id' other,
        p.services.service? id' = some other ∧ found ∈ other.contributions) := by
  obtain ⟨made, last, hmade⟩ := made_of_build h
  have hin : service ∈ made := by
    cases (hmade.served id service).1 hs with
    | descriptors => cases hd
    | declaration hin => exact hin
  have hlisted : d ∈ Builtin.core ++ Builtin.introspection ++ made.flatMap Service.contributions :=
    List.mem_append_right _ (List.mem_flatMap.2 ⟨service, hin, hd⟩)
  obtain ⟨found, hfound⟩ : ∃ found, p.types.find? d.fullName = some found :=
    Option.isSome_iff_exists.1 (by
      rw [hmade.found, List.find?_isSome]
      exact ⟨d, hlisted, beq_self_eq_true _⟩)
  refine ⟨found, hfound, ?_⟩
  rw [hmade.found] at hfound
  rcases List.mem_append.1 (List.mem_of_find?_eq_some hfound) with hown | hcontributed
  · exact .inl hown
  · obtain ⟨other, hother, hmem⟩ := List.mem_flatMap.1 hcontributed
    exact .inr ⟨other.id, other, (hmade.served _ _).2 (.declaration hother), hmem⟩

/-! ## Requests -/

/-- An occasion on which the handle of a provider leads to a registry. -/
def Live (p : Provider) (r : TypeRegistry) (o : Occasion) : Prop := o.bindings.types? p.handle = some r

theorem answers_live (hr : p.Publishes r) {id : String} {c : AspectChain}
    (hs : p.services.service? id = some (.kind c)) {others : List Aspect}
    (hothers : List.Forall₂ (Aspect.AgreeOn (p.Live r)) c.aspects others) (world : World) (j : Journal) :
    (∀ iri, p.services.get id iri (p.env world) j =
      Service.get iri (.kind ⟨c.kind, others⟩) (p.env world) j) ∧
    ∀ request, p.services.list id request (p.env world) j =
      Service.list request (.kind ⟨c.kind, others⟩) (p.env world) j := by
  have hlive : ∀ grants j, p.Live r ⟨grants, (p.env world).bindings, j⟩ := fun _ _ => hr world
  constructor
  · intro iri
    rw [Services.get, hs]
    exact Service.get_congr hothers hlive iri j
  · intro request
    rw [Services.list, hs]
    exact Service.list_congr hothers hlive request j

theorem descriptors_ready (h : build kinds types extensions config = .ok p) (world : World) (j : Journal)
    (iri : String) :
    (p.services.get Builtin.descriptor iri (p.env world) j).1 ≠ .error .notReady := by
  intro hget
  obtain ⟨r, hr, -⟩ := published_of_build h
  by_cases hname : ∃ name, name ≠ "" ∧ iri = "kindred.Descriptor/" ++ name
  · obtain ⟨name, hname, rfl⟩ := hname
    have hanswer := congrArg (·.1) (get_of_name h hr hname world j)
    have hfault := hanswer.symm.trans hget
    dsimp only at hfault
    split at hfault <;> cases hfault
  · have hother : ∀ name, name ≠ "" → iri ≠ "kindred.Descriptor/" ++ name :=
      fun name hne hiri => hname ⟨name, hne, hiri⟩
    have hanswer := congrArg (·.1) (get_of_ne h hother world j)
    cases hanswer.symm.trans hget

theorem get_ready (h : build kinds types extensions config = .ok p) (world : World) (j : Journal)
    (id iri : String) : (p.services.get id iri (p.env world) j).1 ≠ .error .notReady := by
  intro hget
  have hanswer := hget
  unfold Services.get at hget
  cases hs : p.services.service? id with
  | none =>
    rw [hs] at hget
    cases hget
  | some service =>
    rw [hs] at hget
    cases service with
    | kind c =>
      rcases Service.get_eq_error hget with hiri | hfails
      · unfold Service.entityId at hiri
        split at hiri
        · cases hiri
        · split at hiri <;> cases hiri
      · cases hfails
    | type c handle =>
      obtain ⟨r, hr, -⟩ := published_of_build h
      obtain rfl := type_of_service h hs
      rcases (Service.getThings_eq_error_iff (types_env hr world)).1 hget with
        ⟨failed, cause, -, hfault⟩ | ⟨things, j', cause, -, -, hfault⟩ <;> cases hfault
    | introspection handle =>
      obtain ⟨rfl, -⟩ := descriptors_of_service h hs
      exact descriptors_ready h world j iri hanswer

theorem list_ready (h : build kinds types extensions config = .ok p) (world : World) (j : Journal)
    (id : String) (request : ListRequest) :
    (p.services.list id request (p.env world) j).1 ≠ .error .notReady := by
  intro hlist
  unfold Services.list at hlist
  cases hs : p.services.service? id with
  | none =>
    rw [hs] at hlist
    cases hlist
  | some service =>
    rw [hs] at hlist
    cases service with
    | kind c =>
      rcases Service.listEntities_eq_error hlist with ⟨-, hfault⟩ | hfails
      · cases hfault
      · cases hfails
    | type c handle => cases hlist
    | introspection handle =>
      obtain ⟨r, hr, -⟩ := published_of_build h
      obtain ⟨-, rfl⟩ := descriptors_of_service h hs
      change (Service.listDescriptors p.handle request (p.env world) j).1 = .error .notReady at hlist
      rw [listDescriptors_eq hr] at hlist
      dsimp only at hlist
      split at hlist <;> cases hlist

/-- **Context is given once, and the handle is live whenever a request runs.** Each connector of a kind has
an aspect of its own. Objects of extensions are created one after another, each with a number of its own,
and what happens to each before any request is that it is given what its extension opts in to: the
repository of all kinds, then the handle (`Injected`). The log has this for all objects, and nothing else.
Things are loaded by extensions that are given nothing. Every request finds the handle bound to one
registry, and what extensions do on any other occasion makes no difference to answers and accesses. That is
the registry of the provider, where every contribution has its name, unless an extension has bound the handle
to another one as it was given it. No request fails for want of a registry. -/
theorem context_injected (h : build kinds types extensions config = .ok p) :
    ∃ s chains r, construct kinds types extensions config .start = .ok (p, s) ∧
      List.Forall₂ (fun k c => p.services.service? k.id.text = some (.kind c) ∧ ∃ declared templates,
        c.aspects = declared ++ [.links templates, .timestamp, .validation] ∧
        List.Forall₂ (Injected ⟨kinds, p.handle, extensions, config⟩ s r) k.connectors declared)
        kinds.kinds chains ∧
      (chains.flatMap AspectChain.objects).map AspectObject.number = List.range s.objects ∧
      s.events = (chains.flatMap AspectChain.objects).flatMap AspectObject.history ∧
      (∀ t ∈ types.types, ∃ c, p.services.service? t.name = some (.type c p.handle) ∧
        List.Forall₂ (fun declared x => ∃ name, declared = .extension name ∧
          extensions.connectors.get? name = some x) t.connectors c.connectors) ∧
      p.Publishes r ∧ (extensions.LeaveUnbound → r = p.types) ∧
      (r = p.types ∨ ∃ c ∈ chains, ∃ o ∈ c.objects, o.extension.binds o.grants = some r) ∧
      (∀ id service, p.services.service? id = some service → ∀ d ∈ service.contributions,
        ∃ found, p.types.find? d.fullName = some found ∧
          (found ∈ Builtin.core ++ Builtin.introspection ∨ ∃ id' other,
            p.services.service? id' = some other ∧ found ∈ other.contributions)) ∧
      (∀ id c, p.services.service? id = some (.kind c) →
        ∀ others, List.Forall₂ (Aspect.AgreeOn (p.Live r)) c.aspects others → ∀ world j,
          (∀ iri, p.services.get id iri (p.env world) j =
            Service.get iri (.kind ⟨c.kind, others⟩) (p.env world) j) ∧
          ∀ request, p.services.list id request (p.env world) j =
            Service.list request (.kind ⟨c.kind, others⟩) (p.env world) j) ∧
      ∀ world j id, (∀ iri, (p.services.get id iri (p.env world) j).1 ≠ .error .notReady) ∧
        ∀ request, (p.services.list id request (p.env world) j).1 ≠ .error .notReady := by
  obtain ⟨s, hconstruct⟩ := construct_of_build h
  obtain ⟨made, last, hmade, rfl⟩ := made_of_construct hconstruct
  obtain ⟨chains, hchains, hobjects⟩ := hmade.chains
  obtain ⟨r, hr, hown⟩ := published_of_build h
  refine ⟨_, chains, r, hconstruct, forall₂_imp_mem hchains fun k _ c hc hbuilt => ⟨hbuilt.2, ?_⟩, ?_, ?_,
    fun t ht => ?_, hr, hown, ?_, fun id service hs d hd => contribution_visible h hs hd,
    fun id c hs others hothers => answers_live hr hs hothers,
    fun world j id => ⟨get_ready h world j id, list_ready h world j id⟩⟩
  · obtain ⟨-, declared, templates, hdeclared, -, haspects⟩ := hbuilt.1.aspects_eq
    refine ⟨declared, templates, haspects, forall₂_imp_mem hdeclared fun x _ a ha hyields => ?_⟩
    have hevents : (Construction.publish p.handle p.types last).2.events = last.events := rfl
    refine hmade.injected hr hevents hyields fun o ho => ?_
    rw [hobjects, List.mem_flatMap]
    refine ⟨c, hc, AspectChain.mem_objects.2 ?_⟩
    rw [haspects, ← ho]
    exact List.mem_append_left _ ha
  · rw [← hobjects, hmade.grows.numbers, List.range_eq_range']
    congr 1
    exact (hmade.grows.count.trans (Nat.zero_add _)).symm
  · rw [← hobjects]
    exact hmade.grows.events.trans (List.nil_append _)
  · obtain ⟨c, hc, hservice⟩ := service_of_type h ht
    obtain ⟨-, hconnectors⟩ := ConnectorChain.build_eq_ok hc
    exact ⟨c, hservice, (mapM_eq_ok_iff.1 hconnectors).imp fun _ _ => BuildContext.connector_eq_ok⟩
  · refine (hmade.own_or_bound hr).imp_right fun ⟨o, ho, hbinds⟩ => ?_
    rw [hobjects, List.mem_flatMap] at ho
    obtain ⟨c, hc, ho⟩ := ho
    exact ⟨c, hc, o, ho, hbinds⟩

/-! ### An aspect that looks for types that are declared later -/

/-- An aspect that opts in to everything, and says whether two types are found through its handle. -/
def prober : AspectExtension where
  name := "prober"
  repositoryAware _ := true
  providerAware _ := true
  descriptors _ := []
  augment seen _ e :=
    let sees (name : String) : Bool := seen.grants.any fun grant => match grant with
      | .provider handle _ => ((seen.bindings.types? handle).bind (·.find? name)).isSome
      | .repository _ => false
    .success { e with
      data := .object [("author", .bool (sees "demo.Author")), ("note", .bool (sees "demo.Note"))] }
  list _ _ _ before := .success before

/-- A kind whose chain has the aspect twice. -/
def probed : EntityKind :=
  { EntityKind.bare ⟨"demo", "book"⟩ with connectors := [.extension "prober", .extension "prober"] }

/-- A kind that is declared later, and contributes. -/
def annotatedAuthor : EntityKind :=
  { EntityKind.bare ⟨"demo", "author"⟩ with connectors := [.extension "annotator"] }

def probedKinds : KindRepository := ⟨[probed, annotatedAuthor]⟩

def probers : Extensions :=
  ⟨.ofList [("annotator", annotator), ("prober", prober)], .ofList [("clerk", clerk)]⟩

/-- What an object of it is given. -/
def proberGrants (p : Provider) : List Grant := [.repository probedKinds, .provider p.handle none]

theorem probers_leaveUnbound : probers.LeaveUnbound := by
  intro name x hx grants
  have hmem : (name, x) ∈ [("annotator", annotator), ("prober", prober)] :=
    SortedMap.mem_of_get?_ofList hx
  simp only [List.mem_cons, Prod.mk.injEq, List.not_mem_nil, or_false] at hmem
  rcases hmem with ⟨-, rfl⟩ | ⟨-, rfl⟩ <;> rfl

/-- Two objects have been given the same, and see what is contributed by the other kind and by a type. -/
theorem context_injected_twice :
    probers.LeaveUnbound ∧ ∃ p s c n n', build probedKinds clerks probers .standard = .ok p ∧
      construct probedKinds clerks probers .standard .start = .ok (p, s) ∧
      p.services.service? "demo.book" = some (.kind c) ∧ n ≠ n' ∧
      (∃ closing, c.aspects = .extension ⟨n, prober, proberGrants p⟩ ::
        .extension ⟨n', prober, proberGrants p⟩ :: closing) ∧
      s.eventsOf ⟨n, prober, proberGrants p⟩ = .created n :: (proberGrants p).map (.accepted n) ∧
      s.eventsOf ⟨n', prober, proberGrants p⟩ = .created n' :: (proberGrants p).map (.accepted n') ∧
      (∃ t, (p.services.get "demo.book" "demo.book" (p.env stillWorld) []).1 = .ok t ∧
        (t.value.member? "data").map Json.Value.text = some "\x7b\"author\":true,\"note\":true\x7d") ∧
      p.Publishes p.types := by
  have hanswer : ((build probedKinds clerks probers .standard).toOption.bind fun p =>
      (p.services.get "demo.book" "demo.book" (p.env stillWorld) []).1.toOption.bind fun t =>
        (t.value.member? "data").map Json.Value.text) = some "\x7b\"author\":true,\"note\":true\x7d" := by
    decide +kernel
  obtain ⟨p, hp, hanswer⟩ := Option.bind_eq_some_iff.1 hanswer
  obtain ⟨t, ht, hdata⟩ := Option.bind_eq_some_iff.1 hanswer
  have hbuild := toOption_eq_some hp
  obtain ⟨s, chains, r, hconstruct, hchains, hnumbers, -, -, hr, hown, -⟩ := context_injected hbuild
  obtain rfl := hown probers_leaveUnbound
  have hprober {a : Aspect}
      (ha : Injected ⟨probedKinds, p.handle, probers, .standard⟩ s p.types (.extension "prober") a) :
      ∃ n, a = .extension ⟨n, prober, proberGrants p⟩ ∧
        s.eventsOf ⟨n, prober, proberGrants p⟩ = .created n :: (proberGrants p).map (.accepted n) := by
    cases ha with
    | own hdeclared => exact absurd rfl (hdeclared "prober")
    | @extension _ o seen hx hseen hgrants hevents =>
      obtain rfl : seen = none := hseen.resolve_right fun hbound => hbound.2 probers_leaveUnbound
      obtain ⟨n, x, grants⟩ := o
      obtain rfl : prober = x := Option.some.inj hx
      obtain rfl : grants = proberGrants p := hgrants
      exact ⟨n, rfl, hevents⟩
  cases hchains with
  | @cons _ c _ chains hbook _ =>
    obtain ⟨hservice, declared, templates, haspects, hinjected⟩ := hbook
    cases hinjected with
    | cons hfirst hrest =>
      cases hrest with
      | cons hsecond hnone =>
        cases hnone
        obtain ⟨n, rfl, hevents⟩ := hprober hfirst
        obtain ⟨n', rfl, hevents'⟩ := hprober hsecond
        refine ⟨probers_leaveUnbound, p, s, c, n, n', hbuild, hconstruct, hservice, ?_, ⟨_, haspects⟩, hevents,
          hevents', ⟨t, toOption_eq_some ht, hdata⟩, hr⟩
        rintro rfl
        have hdistinct := hnumbers ▸ List.nodup_range
        simp [AspectChain.objects, haspects, Aspect.object?] at hdistinct

/-! ### An aspect that binds the handle -/

/-- An aspect that binds the handle to no types at all as it is given it. -/
def binder : AspectExtension where
  name := "binder"
  repositoryAware _ := false
  providerAware _ := true
  binds _ := some ∅
  descriptors _ := []
  augment _ _ e := .success e
  list _ _ _ before := .success before

/-- The finished registry of such a provider has types, and its services find none. -/
theorem binder_publishes :
    ∃ p, build ⟨[{ EntityKind.bare ⟨"demo", "book"⟩ with connectors := [.extension "binder"] }]⟩ .empty
        ⟨.ofList [("binder", binder)], ∅⟩ .standard = .ok p ∧
      p.Publishes ∅ ∧ p.types.find? Builtin.entity = some Builtin.entityDescriptor :=
  ⟨_, rfl, fun _ => rfl, rfl⟩

end Provider

end EntityCatalog
