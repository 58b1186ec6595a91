import EntityCatalog.Proofs.Provider.Comparison
import EntityCatalog.Schema.Registry
import Mathlib.Data.List.Induction
import Mathlib.Data.List.Perm.Basic
import Mathlib.Tactic.Tauto

/-!
# The order of declarations

A declaration depends on those in front of it in two ways. Its identifier must be free, which comes to the
same in every order (`Declaration.each_good_iff`). And its contributions are hidden by earlier ones of the
same names, which makes no difference where contributions of one name are the same, or hidden by a type of
the library. So a model is built in every order or in none, with the same services, and with one registry if
contributions agree (`Provider.order_irrelevant`).
-/

namespace EntityCatalog

/-! ## Good declarations -/

namespace Declaration

variable {x : Extensions}

theorem taken_append (before after : List Declaration) :
    taken (before ++ after) = taken before ++ after.map id := by
  simp [taken]

/-- A model is good exactly if each declaration is so in itself and no identifier is taken twice. -/
theorem each_good_iff {ds : List Declaration} :
    EachIn (fun before d => ¬ d.Bad x before) ds ↔ (∀ d ∈ ds, d.Buildable x) ∧ (taken ds).Nodup := by
  induction ds using List.reverseRecOn with
  | nil => simp [eachIn_nil, taken]
  | append_singleton ds d ih =>
    have hlast : EachIn (fun before e => ¬ e.Bad x (ds ++ before)) [d] ↔
        d.Buildable x ∧ d.id ∉ taken ds := by
      simp [eachIn_cons, eachIn_nil, not_bad_iff]
    rw [eachIn_append, ih, hlast, taken_append, List.map_singleton, List.nodup_append_comm,
      List.singleton_append, List.nodup_cons, List.forall_mem_append, List.forall_mem_singleton]
    tauto

theorem all_perm {kinds kinds' : KindRepository} {types types' : TypeRepository}
    (hkinds : kinds.kinds.Perm kinds'.kinds) (htypes : types.types.Perm types'.types) :
    (all kinds types).Perm (all kinds' types') := (hkinds.map kind).append (htypes.map type)

theorem each_good_perm {ds ds' : List Declaration} (h : ds.Perm ds') :
    EachIn (fun before d => ¬ d.Bad x before) ds ↔ EachIn (fun before d => ¬ d.Bad x before) ds' := by
  have htaken : (taken ds).Perm (taken ds') := (h.map id).cons _
  rw [each_good_iff, each_good_iff, htaken.nodup_iff]
  simp only [h.mem_iff]

end Declaration

/-! ## Contributions -/

/-- What an extension contributes does not depend on what it is given. -/
def Extensions.Steady (extensions : Extensions) : Prop :=
  ∀ name x, extensions.aspects.get? name = some x →
    ∀ grants grants', x.descriptors grants = x.descriptors grants'

/-- Two aspects are the same, but for objects of one extension. -/
inductive Aspect.Regranted (extensions : Extensions) : Aspect → Aspect → Prop
  | same (a : Aspect) : Regranted extensions a a
  | extension {name : String} {o o' : AspectObject}
      (hx : extensions.aspects.get? name = some o.extension) (hsame : o.extension = o'.extension) :
      Regranted extensions (.extension o) (.extension o')

section regranted
variable {extensions : Extensions} {a b : Aspect}

theorem Aspect.Regranted.name_eq (h : Regranted extensions a b) : a.name = b.name := by
  cases h with
  | same => rfl
  | extension hx hsame => exact congrArg AspectExtension.name hsame

theorem Aspect.Regranted.descriptors_eq (hsteady : extensions.Steady) (h : Regranted extensions a b) :
    a.descriptors = b.descriptors := by
  cases h with
  | same => rfl
  | @extension name o o' hx hsame =>
    rw [descriptors, descriptors, ← hsame]
    exact hsteady _ _ hx o.grants o'.grants

theorem BuildContext.Makes.regranted {cx cx' : BuildContext} {declared : Connector}
    {s s' t t' : Construction} (ha : cx.Makes declared s a s') (hb : cx'.Makes declared t b t')
    (hextensions : cx.extensions = cx'.extensions) (hconfig : cx.config = cx'.config) :
    a.Regranted cx.extensions b := by
  cases ha.alike hb hextensions with
  | own => exact .same a
  | store =>
    rw [hconfig]
    exact .same _
  | extension _ hx => exact .extension hx rfl

end regranted

namespace Provider

/-- A descriptor is contributed by the chain behind a service. -/
def Contributes (p : Provider) (d : Descriptor) : Prop :=
  ∃ id service, p.services.service? id = some service ∧ d ∈ service.contributions

/-- Contributions of one name are the same, or the name is that of a type of the library. -/
def Agreed (p : Provider) : Prop :=
  ∀ d d', p.Contributes d → p.Contributes d' → d.fullName = d'.fullName →
    d = d' ∨ ∃ b ∈ Builtin.core ++ Builtin.introspection, b.fullName = d.fullName

/-! ## Providers -/

variable {kinds kinds' : KindRepository} {types types' : TypeRepository} {extensions : Extensions}
  {config : Config} {p p' : Provider}

theorem AnswersFor.regranted {d : Declaration} {service service' : Service}
    (h : AnswersFor (context kinds extensions config) d service)
    (h' : AnswersFor (context kinds' extensions config) d service') :
    service.Beside (Aspect.Regranted extensions) service' := by
  obtain ⟨s, s', h⟩ := h
  obtain ⟨t, t', h'⟩ := h'
  have hR : (context kinds extensions config).Relates (context kinds' extensions config) (fun _ _ => True)
      (Aspect.Regranted extensions) :=
    ⟨.same, fun _ _ _ _ _ _ _ _ ha hb => ⟨ha.regranted hb rfl rfl, trivial⟩⟩
  exact (h.beside hR trivial h').1

theorem builds_perm (hds : (Declaration.all kinds types).Perm (Declaration.all kinds' types')) :
    (∃ p, build kinds types extensions config = .ok p) ↔
      ∃ p', build kinds' types' extensions config = .ok p' := by
  rw [(build_settles kinds types extensions config).ok, (build_settles kinds' types' extensions config).ok]
  exact Declaration.each_good_perm hds

section made
variable {made made' : List Service} {last last' : Construction}

theorem Made.beside_of_subset (h : Made kinds types extensions config p made last)
    (h' : Made kinds' types' extensions config p' made' last')
    (hds : Declaration.all kinds types ⊆ Declaration.all kinds' types') {service : Service}
    (hservice : service ∈ made) :
    ∃ service' ∈ made', service.Beside (Aspect.Regranted extensions) service' := by
  obtain ⟨d, hd, hanswers⟩ := h.declaration_of_service hservice
  obtain ⟨service', hservice', hanswers', -⟩ := h'.service_of_declaration (hds hd)
  exact ⟨service', hservice', hanswers.regranted hanswers'⟩

theorem Made.contributed_mono (hsteady : extensions.Steady)
    (h : Made kinds types extensions config p made last)
    (h' : Made kinds' types' extensions config p' made' last')
    (hds : Declaration.all kinds types ⊆ Declaration.all kinds' types') {d : Descriptor}
    (hd : d ∈ made.flatMap Service.contributions) : d ∈ made'.flatMap Service.contributions := by
  obtain ⟨service, hservice, hd⟩ := List.mem_flatMap.1 hd
  obtain ⟨service', hservice', hbeside⟩ := h.beside_of_subset h' hds hservice
  refine List.mem_flatMap.2 ⟨service', hservice', ?_⟩
  rwa [← hbeside.contributions_eq fun _ _ => Aspect.Regranted.descriptors_eq hsteady]

end made

theorem services_perm (h : build kinds types extensions config = .ok p)
    (h' : build kinds' types' extensions config = .ok p')
    (hds : (Declaration.all kinds types).Perm (Declaration.all kinds' types')) (id : String) :
    Option.Rel (Service.Beside (Aspect.Regranted extensions)) (p.services.service? id)
      (p'.services.service? id) := by
  obtain ⟨made, last, hmade⟩ := made_of_build h
  obtain ⟨made', last', hmade'⟩ := made_of_build h'
  refine services_beside hmade hmade' (fun _ => hmade.beside_of_subset hmade' hds.subset)
    (fun service' hservice' => ?_) id
  obtain ⟨d, hd, hanswers'⟩ := hmade'.declaration_of_service hservice'
  obtain ⟨service, hservice, hanswers, -⟩ := hmade.service_of_declaration (hds.mem_iff.2 hd)
  exact ⟨service, hservice, hanswers.regranted hanswers'⟩

theorem types_perm (h : build kinds types extensions config = .ok p)
    (h' : build kinds' types' extensions config = .ok p')
    (hds : (Declaration.all kinds types).Perm (Declaration.all kinds' types')) (hsteady : extensions.Steady)
    (hagreed : p.Agreed) : p.types = p'.types := by
  obtain ⟨made, last, hmade⟩ := made_of_build h
  obtain ⟨made', last', hmade'⟩ := made_of_build h'
  have hcontributes : ∀ d ∈ made.flatMap Service.contributions, p.Contributes d := by
    intro d hd
    obtain ⟨service, hservice, hd⟩ := List.mem_flatMap.1 hd
    exact ⟨service.id, service, (hmade.served _ _).2 (.declaration hservice), hd⟩
  have hmem (d : Descriptor) :
      d ∈ made.flatMap Service.contributions ↔ d ∈ made'.flatMap Service.contributions :=
    ⟨hmade.contributed_mono hsteady hmade' hds.subset, hmade'.contributed_mono hsteady hmade hds.symm.subset⟩
  refine TypeRegistry.ext_find? fun name => ?_
  rw [hmade.found, hmade'.found]
  exact find?_same_members hmem (fun d hd d' hd' => hagreed d d' (hcontributes d hd) (hcontributes d' hd')) name

/-- **The order of declarations makes no difference.** However the kinds and the types of a model are put in
order, a provider is built in both orders or in none. Both providers have services under the same
identifiers, with the same names in their chains. If what extensions contribute does not depend on what
they are given, and contributions of one name agree, both have the same registry, with one fingerprint. -/
theorem order_irrelevant (hkinds : kinds.kinds.Perm kinds'.kinds) (htypes : types.types.Perm types'.types)
    (extensions : Extensions) (config : Config) :
    ((∃ p, build kinds types extensions config = .ok p) ↔
      ∃ p', build kinds' types' extensions config = .ok p') ∧
    ∀ p p', build kinds types extensions config = .ok p → build kinds' types' extensions config = .ok p' →
      p.services.ids = p'.services.ids ∧ (∀ id, p.services.chain? id = p'.services.chain? id) ∧
      (extensions.Steady → p.Agreed →
        p.types = p'.types ∧ p.types.fingerprint = p'.types.fingerprint) := by
  have hds := Declaration.all_perm hkinds htypes
  refine ⟨builds_perm hds, fun p p' h h' => ⟨?_, fun id => ?_, fun hsteady hagreed => ?_⟩⟩
  · refine SortedMap.keys_eq_of_mem fun id => ?_
    have hbeside := services_perm h h' hds id
    rw [SortedMap.mem_keys_iff, SortedMap.mem_keys_iff]
    change (∃ service, p.services.service? id = some service) ↔
      ∃ service, p'.services.service? id = some service
    generalize p.services.service? id = found, p'.services.service? id = found' at hbeside ⊢
    cases hbeside <;> simp
  · have hbeside := services_perm h h' hds id
    rw [Services.chain?, Services.chain?]
    generalize p.services.service? id = found, p'.services.service? id = found' at hbeside ⊢
    cases hbeside with
    | none => rfl
    | some hbeside =>
      rw [Option.map_some, Option.map_some, hbeside.chainNames_eq fun _ _ => Aspect.Regranted.name_eq]
  · have htypes := types_perm h h' hds hsteady hagreed
    exact ⟨htypes, by rw [htypes]⟩

/-! ### Two kinds with notes -/

/-- A kind that contributes a type of notes, and a type under a name of the library. -/
def noted (name : String) : EntityKind :=
  { EntityKind.bare ⟨"demo", name⟩ with connectors := [.extension "annotator"] }

/-- Their chains, whose objects have numbers. -/
def notedChain (name : String) (n : Nat) : AspectChain :=
  ⟨noted name, [.extension ⟨n, annotator, []⟩, .links [], .timestamp, .validation]⟩

/-- What the chains of both kinds contribute. -/
def contributedNotes : List Descriptor :=
  [⟨"demo.Note", [.plain "title" 1 .string]⟩, ⟨Builtin.entity, []⟩, Builtin.timestampDescriptor]

theorem contributors_steady : contributors.Steady := by
  intro name x hx grants grants'
  have hmem : (name, x) ∈ [("annotator", annotator)] := SortedMap.mem_of_get?_ofList hx
  obtain ⟨-, rfl⟩ := Prod.mk.inj (List.mem_singleton.1 hmem)
  rfl

theorem noted_agreed (h : build ⟨[noted "author", noted "book"]⟩ .empty contributors .standard = .ok p) :
    p.Agreed := by
  have hnotes {d : Descriptor} (hd : p.Contributes d) : d ∈ contributedNotes := by
    obtain ⟨made, last, hmade⟩ := made_of_build h
    obtain ⟨id, service, hservice, hd⟩ := hd
    cases (hmade.served id service).1 hservice with
    | descriptors => cases hd
    | declaration hin =>
      obtain ⟨declared, hdeclared, hanswers⟩ := hmade.declaration_of_service hin
      obtain ⟨name, rfl⟩ : ∃ name, declared = .kind (noted name) := by
        simp only [Declaration.all, TypeRepository.empty, List.map_cons, List.map_nil, List.append_nil,
          List.mem_cons, List.not_mem_nil, or_false] at hdeclared
        rcases hdeclared with hauthor | hbook
        · exact ⟨_, hauthor⟩
        · exact ⟨_, hbook⟩
      obtain ⟨c, ⟨s, s', hc⟩, rfl⟩ := hanswers.kind_chain
      obtain rfl : notedChain name s.objects = c := congrArg Prod.fst (Except.ok.inj hc)
      exact hd
  have hall : ∀ d ∈ contributedNotes, ∀ d' ∈ contributedNotes, d.fullName = d'.fullName →
      d = d' ∨ ∃ b ∈ Builtin.core ++ Builtin.introspection, b.fullName = d.fullName := by
    decide
  exact fun d d' hd hd' => hall d (hnotes hd) d' (hnotes hd')

/-- The authors come before the books, or after them. -/
theorem order_irrelevant_noted :
    ∃ p p', build ⟨[noted "author", noted "book"]⟩ .empty contributors .standard = .ok p ∧
      build ⟨[noted "book", noted "author"]⟩ .empty contributors .standard = .ok p' ∧
      p.services.ids = p'.services.ids ∧ p.types = p'.types ∧
      p'.types.find? "demo.Note" = some ⟨"demo.Note", [.plain "title" 1 .string]⟩ := by
  obtain ⟨p, h, hnote⟩ : ∃ p, build ⟨[noted "author", noted "book"]⟩ .empty contributors .standard = .ok p ∧
      p.types.find? "demo.Note" = some ⟨"demo.Note", [.plain "title" 1 .string]⟩ := ⟨_, rfl, rfl⟩
  obtain ⟨hbuilds, hsame⟩ := order_irrelevant (List.Perm.swap (noted "book") (noted "author") [])
    (List.Perm.refl TypeRepository.empty.types) contributors .standard
  obtain ⟨p', h'⟩ := hbuilds.1 ⟨p, h⟩
  obtain ⟨hids, -, htypes⟩ := hsame p p' h h'
  have htypes := (htypes contributors_steady (noted_agreed h)).1
  exact ⟨p, p', h, h', hids, htypes, htypes ▸ hnote⟩

end Provider

end EntityCatalog
