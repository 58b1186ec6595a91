import EntityCatalog.Proofs.Provider.Services

/-!
# Two models with the same declarations

Two models have the same declarations, in whatever order and with whatever settings. Then both providers
have the same services, but for what the aspects of kinds are built with. A relation that holds between the
aspects of one connector holds all along the chains of one kind (`Provider.services_beside`). If what an
aspect becomes depends on how far construction has come, a relation between the states of construction goes
along with it.
-/

namespace EntityCatalog

/-- What two contexts with the same extensions make of one connector: the same aspect, or stores that may
differ in what the settings say, or an object each of one extension. -/
inductive BuildContext.MakesAlike (cx cx' : BuildContext) (declared : Connector) (s t : Construction) :
    Aspect → Construction → Aspect → Construction → Prop
  | own {a : Aspect} (ha : ∀ o, a ≠ .extension o) : MakesAlike cx cx' declared s t a s a t
  | store (root : String) (format : FileFormat) :
      MakesAlike cx cx' declared s t (.store ⟨root, format, cx.config.strict⟩) s
        (.store ⟨root, format, cx'.config.strict⟩) t
  | extension {name : String} {x : AspectExtension} (hdeclared : declared = .extension name)
      (hx : cx.extensions.aspects.get? name = some x) :
      MakesAlike cx cx' declared s t (.extension (cx.object x s)) (cx.admitted x s)
        (.extension (cx'.object x t)) (cx'.admitted x t)

theorem BuildContext.Makes.alike {cx cx' : BuildContext} {declared : Connector} {a b : Aspect}
    {s s' t t' : Construction} (ha : cx.Makes declared s a s') (hb : cx'.Makes declared t b t')
    (hextensions : cx.extensions = cx'.extensions) : cx.MakesAlike cx' declared s t a s' b t' := by
  cases ha with
  | error =>
    cases hb
    exact .own nofun
  | store =>
    cases hb
    exact .store _ _
  | remote hr =>
    cases hb with
    | remote hr' =>
      obtain rfl := Except.ok.inj (hr.symm.trans hr')
      exact .own nofun
  | extension hx =>
    cases hb with
    | extension hx' =>
      rw [← hextensions, hx] at hx'
      obtain rfl := Option.some.inj hx'
      exact .extension rfl hx

/-- What two contexts make of one connector is in a relation, if the states are that they make it in. The
states after that are then too. -/
structure BuildContext.Relates (cx cx' : BuildContext) (S : Construction → Construction → Prop)
    (R : Aspect → Aspect → Prop) : Prop where
  refl : ∀ a, R a a
  makes : ∀ declared s a s' t b t', S s t → cx.Makes declared s a s' → cx'.Makes declared t b t' →
    R a b ∧ S s' t'

/-- Two services are the same, or those of one kind with aspects in a relation. -/
inductive Service.Beside (R : Aspect → Aspect → Prop) : Service → Service → Prop
  | same (service : Service) : Beside R service service
  | kind {k : EntityKind} {aspects others : List Aspect} (h : List.Forall₂ R aspects others) :
      Beside R (.kind ⟨k, aspects⟩) (.kind ⟨k, others⟩)

section beside
variable {S : Construction → Construction → Prop} {R : Aspect → Aspect → Prop} {s s' t t' : Construction}
  {service service' : Service}

theorem Service.Beside.id_eq (h : Beside R service service') : service.id = service'.id := by
  cases h <;> rfl

theorem Service.Beside.chainNames_eq (hR : ∀ a b, R a b → a.name = b.name)
    (h : Beside R service service') : service.chainNames = service'.chainNames := by
  cases h with
  | same => rfl
  | kind h => exact map_of_forall₂ h hR

theorem Service.Beside.contributions_eq (hR : ∀ a b, R a b → a.descriptors = b.descriptors)
    (h : Beside R service service') : service.contributions = service'.contributions := by
  cases h with
  | same => rfl
  | kind h => exact flatMap_of_forall₂ h hR

theorem AspectChain.build_beside {cx cx' : BuildContext} (hR : cx.Relates cx' S R) (hS : S s t)
    {kind : EntityKind} {c c' : AspectChain} (hc : build cx kind s = .ok (c, s'))
    (hc' : build cx' kind t = .ok (c', t')) : List.Forall₂ R c.aspects c'.aspects ∧ S s' t' := by
  obtain ⟨-, declared, templates, hdeclared, htemplates, haspects⟩ := build_eq_ok hc
  obtain ⟨-, declared', templates', hdeclared', htemplates', haspects'⟩ := build_eq_ok hc'
  obtain rfl := Except.ok.inj (htemplates.symm.trans htemplates')
  obtain ⟨hmade, hlast⟩ := hdeclared.beside hR.makes hdeclared' hS
  rw [haspects, haspects']
  exact ⟨List.rel_append hmade (List.forall₂_same.2 fun a _ => hR.refl a), hlast⟩

namespace Provider

variable {kinds kinds' : KindRepository} {types types' : TypeRepository} {extensions : Extensions}
  {config config' : Config} {p p' : Provider}

theorem Declares.beside
    (hR : (context kinds extensions config).Relates (context kinds' extensions config') S R) (hS : S s t)
    {d : Declaration} (h : Declares (context kinds extensions config) d s service s')
    (h' : Declares (context kinds' extensions config') d t service' t') :
    service.Beside R service' ∧ S s' t' := by
  cases h with
  | @kind k c _ _ hc =>
    cases h' with
    | @kind _ c' _ _ hc' =>
      obtain ⟨haspects, hlast⟩ := AspectChain.build_beside hR hS hc hc'
      obtain ⟨kind, aspects⟩ := c
      obtain ⟨kind', others⟩ := c'
      obtain rfl : kind = k := (AspectChain.build_eq_ok hc).1
      obtain rfl : kind' = kind := (AspectChain.build_eq_ok hc').1
      exact ⟨.kind haspects, hlast⟩
  | type hc =>
    cases h' with
    | type hc' =>
      -- the connectors of types are given nothing
      obtain rfl := Except.ok.inj (hc.symm.trans hc')
      exact ⟨.same _, hS⟩

theorem services_beside {made made' : List Service} {last last' : Construction}
    (h : Made kinds types extensions config p made last)
    (h' : Made kinds' types' extensions config' p' made' last')
    (hmade : ∀ service ∈ made, ∃ service' ∈ made', service.Beside R service')
    (hmade' : ∀ service' ∈ made', ∃ service ∈ made, service.Beside R service') (id : String) :
    Option.Rel (Service.Beside R) (p.services.service? id) (p'.services.service? id) := by
  have hhandle : p.handle = p'.handle := h.handle_eq.trans h'.handle_eq.symm
  cases hfound : p.services.service? id with
  | some service =>
    cases (h.served id service).1 hfound with
    | descriptors =>
      rw [(h'.served _ _).2 .descriptors, hhandle]
      exact .some (.same _)
    | declaration hin =>
      obtain ⟨service', hin', hbeside⟩ := hmade service hin
      rw [hbeside.id_eq, (h'.served _ _).2 (.declaration hin')]
      exact .some hbeside
  | none =>
    have hnone {service : Service} (hserves : Serves p.handle made id service) : False := by
      rw [(h.served id service).2 hserves] at hfound
      cases hfound
    cases hfound' : p'.services.service? id with
    | none => exact .none
    | some service' =>
      cases (h'.served id service').1 hfound' with
      | descriptors => exact (hnone .descriptors).elim
      | declaration hin' =>
        obtain ⟨service, hin, hbeside⟩ := hmade' service' hin'
        have hserves : Serves p.handle made service.id service := .declaration hin
        rw [hbeside.id_eq] at hserves
        exact (hnone hserves).elim

end Provider

end beside

end EntityCatalog
