import EntityCatalog.Proofs.Aspect.Storage
import EntityCatalog.Proofs.Chain.Simulation
import EntityCatalog.Proofs.Provider.Comparison
import EntityCatalog.Proofs.Service.Retrieval

/-!
# Strict stores

The setting that files must not be missing changes nothing but the stores, and these only when an entity
passes one that has no file for it. A strict provider is built exactly if a lenient one is, and follows it
up to the first such entity, where it fails (`Provider.strict_only_misses`).
-/

namespace EntityCatalog

/-! ## Stores -/

namespace Store

/-- A store has a place for the file of an identifier, and there is none. -/
def Lacks (s : Store) (files : FileTree) (id : EntityId) : Prop :=
  ∃ path, s.pathFor id = .ok path ∧ files.find path = .error .notFound

theorem find_of_read {files : FileTree} {path : FilePath} (h : files.read path = .error .notFound) :
    files.find path = .error .notFound := by
  rw [FileTree.read] at h
  cases hfind : files.find path with
  | error fault =>
    rw [hfind] at h
    rw [Except.error.inj h]
  | ok place =>
    rw [hfind] at h
    obtain ⟨node, above⟩ := place
    cases node with
    | file bytes =>
      simp only [bind, Except.bind] at h
      split at h <;> cases h
    | directory entries => cases h
    | other fault => exact absurd rfl ((FileTree.find_eq_ok_iff.1 hfind).2.2 fault)

theorem lacks_of_stored {s : Store} {files : FileTree} {id : EntityId}
    (h : s.stored files id = .ok none) : s.Lacks files id := by
  unfold stored at h
  split at h
  · cases h
  · next path hpath =>
    split at h
    · obtain ⟨report, -, hreport⟩ := exceptMap_eq_ok h
      cases hreport
    · next hread => exact ⟨path, hpath, find_of_read hread⟩
    · cases h

section strict
variable (root : String) (format : FileFormat)

theorem augment_strict (e : Entity) (env : Env) (j : Journal) :
    augment ⟨root, format, true⟩ e env j = augment ⟨root, format, false⟩ e env j ∨
      ∃ j', augment ⟨root, format, true⟩ e env j = (.failure e (.notFound e.id.text), j') ∧
        Lacks ⟨root, format, true⟩ env.world.files e.id := by
  have hstored : stored ⟨root, format, true⟩ env.world.files e.id =
      stored ⟨root, format, false⟩ env.world.files e.id := rfl
  have hreads : reads ⟨root, format, true⟩ e.id = reads ⟨root, format, false⟩ e.id := rfl
  rw [augment_eq, augment_eq, filled, filled, hreads, ← hstored]
  cases hreport : stored ⟨root, format, true⟩ env.world.files e.id with
  | error cause => exact .inl rfl
  | ok report =>
    cases report with
    | some report => exact .inl rfl
    | none => exact .inr ⟨_, rfl, lacks_of_stored hreport⟩

theorem visit_strict (kind : EntityKind) (stops : List Stop) (found : List EntityId) :
    visit ⟨root, format, true⟩ kind stops found = visit ⟨root, format, false⟩ kind stops found := by
  induction stops generalizing found with
  | nil => rfl
  | cons stop rest ih =>
    rw [visit, visit, ih]
    rfl

theorem list_strict (kind : EntityKind) (before : List Entity) :
    list ⟨root, format, true⟩ kind before = list ⟨root, format, false⟩ kind before := by
  have hwalk : walk ⟨root, format, true⟩ kind = walk ⟨root, format, false⟩ kind := by
    simp only [walk_eq_visit, visit_strict]
    rfl
  rw [list, list, hwalk]
  rfl

end strict

end Store

/-! ## Aspects -/

namespace Aspect

/-- Two aspects are the same, or two stores that differ in that the first is strict. -/
inductive Stricter : Aspect → Aspect → Prop
  | same (a : Aspect) : Stricter a a
  | store (root : String) (format : FileFormat) :
      Stricter (.store ⟨root, format, true⟩) (.store ⟨root, format, false⟩)

/-- A store fails for want of a file. -/
def Misses (files : FileTree) (a : Aspect) (cause : AspectError) : Prop :=
  ∃ s id, a = .store s ∧ s.Lacks files id ∧ cause = .notFound id.text

variable {a b : Aspect}

theorem Stricter.descriptors_eq (h : Stricter a b) : a.descriptors = b.descriptors := by
  cases h <;> rfl

theorem Stricter.follows (h : Stricter a b) (env : Env) :
    a.Follows (Misses env.world.files) env env b := by
  cases h with
  | same => exact ⟨rfl, fun _ _ _ => .inl rfl, fun _ _ _ _ => rfl⟩
  | store root format =>
    refine ⟨rfl, fun kind e j => ?_, fun request kind before j =>
      congrFun (congrFun (Store.list_strict root format kind before) env) j⟩
    rcases Store.augment_strict root format e env j with hsame | ⟨j', hfails, hlacks⟩
    · exact .inl hsame
    · exact .inr ⟨e, _, j', hfails, _, e.id, rfl, hlacks, rfl⟩

end Aspect

/-! ## Chains -/

section chains
variable {cx cx' : BuildContext} {kind : EntityKind}

/-- A strict context and a lenient one go in step: no other connector reads the setting. -/
theorem BuildContext.relates_stricter (hkinds : cx.kinds = cx'.kinds) (hhandle : cx.handle = cx'.handle)
    (hextensions : cx.extensions = cx'.extensions) (hstrict : cx.config.strict = true)
    (hlenient : cx'.config.strict = false) : cx.Relates cx' Eq Aspect.Stricter := by
  refine ⟨.same, ?_⟩
  rintro declared s a s' _ b t' rfl ha hb
  cases ha.alike hb hextensions with
  | own => exact ⟨.same a, rfl⟩
  | store =>
    rw [hstrict, hlenient]
    exact ⟨.store _ _, rfl⟩
  | @extension _ x =>
    have hobject : cx'.object x s = cx.object x s := by
      rw [object, object, repositoryGrants, repositoryGrants, providerGrants, providerGrants,
        repositoryGrants, repositoryGrants, hkinds, hhandle]
    have hadmitted : cx'.admitted x s = cx.admitted x s := by
      rw [admitted, admitted, bound?, bound?, repositoryGrants, repositoryGrants, hobject, hkinds, hhandle]
    rw [hobject, hadmitted]
    exact ⟨.same _, rfl⟩

theorem BuildContext.store_of_yields {declared : Connector} {s : Store}
    (h : cx.Yields declared (.store s)) : declared = .store s.root s.format := by
  obtain ⟨t, t', h⟩ := h
  cases h
  rfl

namespace AspectChain
variable {c : AspectChain}

theorem declared_of_store (hc : BuiltFor cx kind c) {s : Store} (hs : .store s ∈ c.aspects) :
    .store s.root s.format ∈ kind.connectors := by
  rcases hc.declared_or_closing hs with ⟨x, hx, hbuilt⟩ | ⟨templates, hclosing⟩ | hclosing | hclosing
  · rwa [BuildContext.store_of_yields hbuilt] at hx
  all_goals cases hclosing

end AspectChain

end chains

/-! ## Providers -/

namespace Provider

variable {kinds : KindRepository} {types : TypeRepository} {extensions : Extensions}
  {config : Config} {p p' : Provider}

theorem beside_of_strict (h : build kinds types extensions { config with strict := true } = .ok p)
    (h' : build kinds types extensions { config with strict := false } = .ok p') :
    (∀ id, Option.Rel (Service.Beside Aspect.Stricter) (p.services.service? id) (p'.services.service? id)) ∧
      p.bindings = p'.bindings := by
  obtain ⟨made, last, hmade⟩ := made_of_build h
  obtain ⟨made', last', hmade'⟩ := made_of_build h'
  have hR : (context kinds extensions { config with strict := true }).Relates
      (context kinds extensions { config with strict := false }) Eq Aspect.Stricter :=
    BuildContext.relates_stricter rfl rfl rfl rfl rfl
  obtain ⟨hbeside, rfl⟩ : List.Forall₂ (Service.Beside Aspect.Stricter) made made' ∧ last = last' :=
    hmade.run.beside (fun _ _ _ _ _ _ _ hS hd hd' => hd.beside hR hS hd') hmade'.run rfl
  have hsame := flatMap_of_forall₂ hbeside fun _ _ =>
    Service.Beside.contributions_eq fun _ _ => Aspect.Stricter.descriptors_eq
  have htypes : p.types = p'.types :=
    TypeRegistry.ext_find? fun name => by rw [hmade.found, hmade'.found, hsame]
  have hhandle : p.handle = p'.handle := hmade.handle_eq.trans hmade'.handle_eq.symm
  exact ⟨services_beside hmade hmade' (fun _ => exists_of_forall₂ hbeside)
    (fun _ => exists_of_forall₂ hbeside.flip), by rw [hmade.bindings_eq, hmade'.bindings_eq, htypes, hhandle]⟩

/-- A request to a service fails because a store that its kind declares has no file for an entity. -/
def MissesFile (kinds : KindRepository) (files : FileTree) (id : String) (f : ServiceError) : Prop :=
  ∃ k ∈ kinds.kinds, id = k.id.text ∧ ∃ root format, .store root format ∈ k.connectors ∧
    ∃ missing, Store.Lacks ⟨root, format, true⟩ files missing ∧
      f = .aspect id "fs" (.notFound missing.text)

theorem missesFile_of_excused (h : build kinds types extensions config = .ok p) {id : String}
    {kind : EntityKind} {aspects : List Aspect} (hs : p.services.service? id = some (.kind ⟨kind, aspects⟩))
    {files : FileTree} {f : ServiceError}
    (hf : AspectChain.Excused (Aspect.Misses files) kind aspects f) : MissesFile kinds files id f := by
  obtain ⟨hkind, rfl, hc⟩ := kind_of_service h hs
  obtain ⟨a, ha, cause, ⟨s, missing, rfl, hlacks, rfl⟩, rfl⟩ := hf
  exact ⟨kind, hkind, rfl, s.root, s.format, AspectChain.declared_of_store hc ha, missing, hlacks, rfl⟩

section strict
variable (h : build kinds types extensions { config with strict := true } = .ok p)
  (h' : build kinds types extensions { config with strict := false } = .ok p')
include h h'

/-- Whatever a service is asked, it goes the same way in both providers if chains do that follow each other. -/
theorem ask_strict {α : Type} {ask : Service → Run (Except ServiceError α)}
    (hask : ∀ kind aspects others env j,
      List.Forall₂ (Aspect.FollowsFor kind (Aspect.Misses env.world.files) env env) aspects others →
        ask (.kind ⟨kind, aspects⟩) env j = ask (.kind ⟨kind, others⟩) env j ∨
          ∃ f j', ask (.kind ⟨kind, aspects⟩) env j = (.error f, j') ∧
            AspectChain.Excused (Aspect.Misses env.world.files) kind aspects f)
    (world : World) (j : Journal) (id : String) :
    Option.Rel (fun service service' => ask service (p.env world) j = ask service' (p'.env world) j ∨
      ∃ f j', ask service (p.env world) j = (.error f, j') ∧ MissesFile kinds world.files id f)
      (p.services.service? id) (p'.services.service? id) := by
  obtain ⟨hservices, hbindings⟩ := beside_of_strict h h'
  have henv : p.env world = p'.env world := by rw [env, env, hbindings]
  have hrelated := hservices id
  generalize hs : p.services.service? id = found at hrelated ⊢
  generalize p'.services.service? id = found' at hrelated ⊢
  cases hrelated with
  | none => exact .none
  | some hbeside =>
    refine .some ?_
    rw [← henv]
    cases hbeside with
    | same => exact .inl rfl
    | @kind k aspects others haspects =>
      rcases hask k aspects others (p.env world) j (haspects.imp fun _ _ hab => (hab.follows _).at k) with
        hsame | ⟨f, j', hfails, hf⟩
      · exact .inl hsame
      · exact .inr ⟨f, j', hfails, missesFile_of_excused h hs hf⟩

theorem get_strict (world : World) (j : Journal) (id iri : String) :
    p.services.get id iri (p.env world) j = p'.services.get id iri (p'.env world) j ∨
      ∃ f j', p.services.get id iri (p.env world) j = (.error f, j') ∧
        MissesFile kinds world.files id f := by
  have hrelated := ask_strict h h' (fun _ _ _ _ j hfollows => Service.get_follows hfollows iri j) world j id
  rw [Services.get, Services.get]
  generalize p.services.service? id = found, p'.services.service? id = found' at hrelated ⊢
  cases hrelated with
  | none => exact .inl rfl
  | some hanswers => exact hanswers

theorem list_strict (world : World) (j : Journal) (id : String) (request : ListRequest) :
    p.services.list id request (p.env world) j = p'.services.list id request (p'.env world) j ∨
      ∃ f j', p.services.list id request (p.env world) j = (.error f, j') ∧
        MissesFile kinds world.files id f := by
  have hrelated :=
    ask_strict h h' (fun _ _ _ _ j hfollows => Service.list_follows hfollows request j) world j id
  rw [Services.list, Services.list]
  generalize p.services.service? id = found, p'.services.service? id = found' at hrelated ⊢
  cases hrelated with
  | none => exact .inl rfl
  | some hanswers => exact hanswers

end strict

/-- **Strictness only turns answers into missing files.** Of the providers that insist on files and that do
not, both are built or both fail with one error. To every request they give one answer, after the same
accesses, unless the strict one fails: it does in a store that the kind of the service declares, and names
an entity whose file is not there. So whatever the strict one answers with success, the other one does. -/
theorem strict_only_misses (kinds : KindRepository) (types : TypeRepository) (extensions : Extensions)
    (config : Config) :
    (∀ e, build kinds types extensions { config with strict := true } = .error e ↔
      build kinds types extensions { config with strict := false } = .error e) ∧
    ∀ p p', build kinds types extensions { config with strict := true } = .ok p →
      build kinds types extensions { config with strict := false } = .ok p' →
      ∀ world j id,
        (∀ iri, p.services.get id iri (p.env world) j = p'.services.get id iri (p'.env world) j ∨
          ∃ f j', p.services.get id iri (p.env world) j = (.error f, j') ∧
            MissesFile kinds world.files id f) ∧
        (∀ request, p.services.list id request (p.env world) j =
            p'.services.list id request (p'.env world) j ∨
          ∃ f j', p.services.list id request (p.env world) j = (.error f, j') ∧
            MissesFile kinds world.files id f) ∧
        (∀ iri t, (p.services.get id iri (p.env world) j).1 = .ok t →
          (p'.services.get id iri (p'.env world) j).1 = .ok t) ∧
        ∀ request es, (p.services.list id request (p.env world) j).1 = .ok es →
          (p'.services.list id request (p'.env world) j).1 = .ok es := by
  refine ⟨fun e => ?_, fun p p' h h' world j id => ⟨get_strict h h' world j id, list_strict h h' world j id,
    fun iri t ht => ?_, fun request es hes => ?_⟩⟩
  · -- what is bad about a declaration does not depend on the settings
    exact ((build_settles kinds types extensions _).error e).trans
      ((build_settles kinds types extensions _).error e).symm
  · rcases get_strict h h' world j id iri with hsame | ⟨f, j', hfails, -⟩
    · rw [← hsame, ht]
    · rw [hfails] at ht
      cases ht
  · rcases list_strict h h' world j id request with hsame | ⟨f, j', hfails, -⟩
    · rw [← hsame, hes]
    · rw [hfails] at hes
      cases hes

/-! ### A shelf with one book -/

/-- The chain of the stored books under either setting. -/
def shelfChain (strict : Bool) : AspectChain :=
  ⟨Service.storedBooks, [.store ⟨"store", .yaml, strict⟩, .store ⟨"store", .yaml, strict⟩,
    .links [], .timestamp, .validation]⟩

/-- The book on the shelf is answered by both providers, and another one by the lenient provider alone. -/
theorem strict_only_misses_shelf :
    ∃ p p', build ⟨[Service.storedBooks]⟩ .empty .empty { Config.standard with strict := true } = .ok p ∧
      build ⟨[Service.storedBooks]⟩ .empty .empty { Config.standard with strict := false } = .ok p' ∧
      (p'.services.get "demo.book" "demo.book/2" (p'.env Service.passingEnv.world) []).1 =
        .ok (.ofEntity (Service.storedBook 0)) ∧
      (∃ t, (p'.services.get "demo.book" "demo.book/1" (p'.env Service.passingEnv.world) []).1 = .ok t) ∧
      ∃ f j', p.services.get "demo.book" "demo.book/1" (p.env Service.passingEnv.world) [] = (.error f, j') ∧
        MissesFile ⟨[Service.storedBooks]⟩ Service.passingEnv.world.files "demo.book" f := by
  obtain ⟨p, h⟩ : ∃ p,
      build ⟨[Service.storedBooks]⟩ .empty .empty { Config.standard with strict := true } = .ok p := ⟨_, rfl⟩
  obtain ⟨p', h'⟩ : ∃ p',
      build ⟨[Service.storedBooks]⟩ .empty .empty { Config.standard with strict := false } = .ok p' :=
    ⟨_, rfl⟩
  obtain ⟨c, ⟨_, _, hc⟩, hs⟩ := service_of_kind h (List.mem_singleton_self Service.storedBooks)
  obtain ⟨c', ⟨_, _, hc'⟩, hs'⟩ := service_of_kind h' (List.mem_singleton_self Service.storedBooks)
  obtain rfl : shelfChain true = c := congrArg Prod.fst (Except.ok.inj hc)
  obtain rfl : shelfChain false = c' := congrArg Prod.fst (Except.ok.inj hc')
  have hsecond : Service.entityId Service.storedBooks "demo.book/2" = .ok ⟨⟨"demo", "book"⟩, ["2"]⟩ := rfl
  have hfilled : ((shelfChain true).augment (.bare ⟨⟨"demo", "book"⟩, ["2"]⟩)
      (p.env Service.passingEnv.world) []).1 = .success (Service.storedBook 0) := rfl
  have hfound : (p.services.get "demo.book" "demo.book/2" (p.env Service.passingEnv.world) []).1 =
      .ok (.ofEntity (Service.storedBook 0)) := by
    rw [show "demo.book" = Service.storedBooks.id.text from rfl, Services.get, hs]
    exact Service.get_kind (c := shelfChain true) hsecond hfilled
  have hfirst : Service.entityId Service.storedBooks "demo.book/1" = .ok ⟨⟨"demo", "book"⟩, ["1"]⟩ := rfl
  have hbare : ((shelfChain false).augment (.bare ⟨⟨"demo", "book"⟩, ["1"]⟩)
      (p'.env Service.passingEnv.world) []).1 =
        .success { Entity.bare ⟨⟨"demo", "book"⟩, ["1"]⟩ with ts := some ⟨0, 0, 0⟩ } := rfl
  have hlent : (p'.services.get "demo.book" "demo.book/1" (p'.env Service.passingEnv.world) []).1 =
      .ok (.ofEntity { Entity.bare ⟨⟨"demo", "book"⟩, ["1"]⟩ with ts := some ⟨0, 0, 0⟩ }) := by
    rw [show "demo.book" = Service.storedBooks.id.text from rfl, Services.get, hs']
    exact Service.get_kind (c := shelfChain false) hfirst hbare
  have hmissed (t : Thing) :
      (p.services.get "demo.book" "demo.book/1" (p.env Service.passingEnv.world) []).1 ≠ .ok t := by
    rw [show "demo.book" = Service.storedBooks.id.text from rfl, Services.get, hs]
    exact nofun
  obtain ⟨hget, -, hkept, -⟩ := (strict_only_misses ⟨[Service.storedBooks]⟩ .empty .empty .standard).2 p p' h h'
    Service.passingEnv.world [] "demo.book"
  refine ⟨p, p', h, h', hkept _ _ hfound, ⟨_, hlent⟩, ?_⟩
  exact (hget "demo.book/1").resolve_left fun hsame => hmissed _ (by rw [hsame, hlent])

end Provider

end EntityCatalog
