import EntityCatalog.Chain
import EntityCatalog.Proofs.Traversal

/-!
# What a chain is made of

The chain of a kind has an aspect for every connector and the three that close it. The chain of a type has
its thing connectors and no more. Not everything can be made an aspect: a remote must have an endpoint, and
an extension must be registered. `BuildContext.Makes` says what a connector becomes and what that does to
construction: an object of an extension is created, and given what it opts in to, one thing after another.
-/

namespace EntityCatalog

/-! ## Objects -/

/-- What happens to an object while its chain is built: it is created, and accepts its grants in turn. -/
def AspectObject.history (o : AspectObject) : List Event :=
  .created o.number :: o.grants.map (.accepted o.number)

namespace Construction

theorem offerRepository_eq (kinds : KindRepository) (o : AspectObject) (s : Construction) :
    offerRepository kinds o s =
      let accepted := if o.extension.repositoryAware o.grants then [Grant.repository kinds] else []
      ({ o with grants := o.grants ++ accepted },
        { s with events := s.events ++ accepted.map (.accepted o.number) }) := by
  unfold offerRepository
  split
  · rfl
  · simp only [List.append_nil, List.map_nil]
    rfl

theorem offerProvider_eq (handle : Handle) (o : AspectObject) (s : Construction) :
    offerProvider handle o s =
      if o.extension.providerAware o.grants then
        let grants := o.grants ++ [.provider handle (s.bindings.types? handle)]
        ({ o with grants },
          { s with
            bindings := match o.extension.binds grants with
              | some types => (s.bindings.bind handle types).2
              | none => s.bindings
            events := s.events ++ [.accepted o.number (.provider handle (s.bindings.types? handle))] })
      else (o, s) := by
  unfold offerProvider
  split
  · simp only [accept, bind, StateT.bind, pure, get, getThe, MonadStateOf.get, StateT.get]
    cases o.extension.binds (o.grants ++ [.provider handle (s.bindings.types? handle)]) <;> rfl
  · rfl

end Construction

namespace BuildContext
variable (cx : BuildContext)

/-- What a new object of an extension accepts first. -/
def repositoryGrants (x : AspectExtension) : List Grant :=
  if x.repositoryAware [] then [.repository cx.kinds] else []

/-- What it accepts then. -/
def providerGrants (x : AspectExtension) (seen : Option TypeRegistry) : List Grant :=
  if x.providerAware (cx.repositoryGrants x) then [.provider cx.handle seen] else []

/-- The next object, if it is one of an extension. -/
def object (x : AspectExtension) (s : Construction) : AspectObject :=
  ⟨s.objects, x, cx.repositoryGrants x ++ cx.providerGrants x (s.bindings.types? cx.handle)⟩

/-- What an object binds the handle to as it is given it. -/
def bound? (o : AspectObject) : Option TypeRegistry :=
  if o.extension.providerAware (cx.repositoryGrants o.extension) then o.extension.binds o.grants else none

/-- Construction with one more object. -/
def admitted (x : AspectExtension) (s : Construction) : Construction where
  bindings := match cx.bound? (cx.object x s) with
    | some types => (s.bindings.bind cx.handle types).2
    | none => s.bindings
  objects := s.objects + 1
  events := s.events ++ (cx.object x s).history

theorem inject_extension (x : AspectExtension) (s : Construction) :
    cx.inject (.extension (Construction.create x s).1) (Construction.create x s).2 =
      (.extension (cx.object x s), cx.admitted x s) := by
  have hfirst : Construction.offerRepository cx.kinds (Construction.create x s).1 (Construction.create x s).2 =
      (⟨s.objects, x, cx.repositoryGrants x⟩,
        { s with
          objects := s.objects + 1
          events := s.events ++ .created s.objects :: (cx.repositoryGrants x).map (.accepted s.objects) }) := by
    rw [Construction.offerRepository_eq]
    simp only [Construction.create, List.nil_append, List.append_assoc, List.singleton_append]
    rfl
  change (fun p : AspectObject × Construction =>
    (Aspect.extension (Construction.offerProvider cx.handle p.1 p.2).1,
      (Construction.offerProvider cx.handle p.1 p.2).2)) (Construction.offerRepository cx.kinds _ _) = _
  rw [hfirst]
  dsimp only
  rw [Construction.offerProvider_eq]
  unfold admitted bound? object providerGrants AspectObject.history
  split <;> simp

/-- What a connector of a kind becomes, from one state of construction to the next. Nothing but an object
of an extension makes a difference to construction. -/
inductive Makes : Connector → Construction → Aspect → Construction → Prop
  | error {message : String} {s : Construction} : Makes (.error message) s (.error message) s
  | store {root : String} {format : FileFormat} {s : Construction} :
      Makes (.store root format) s (.store ⟨root, format, cx.config.strict⟩) s
  | remote {endpoint : String} {r : Remote} {s : Construction} (hr : Remote.ofEndpoint endpoint = .ok r) :
      Makes (.remote endpoint) s (.remote r) s
  | extension {name : String} {x : AspectExtension} {s : Construction}
      (hx : cx.extensions.aspects.get? name = some x) :
      Makes (.extension name) s (.extension (cx.object x s)) (cx.admitted x s)

variable {cx} {declared : Connector} {a : Aspect} {s s' : Construction}

theorem aspect_eq_ok_iff : cx.aspect declared s = .ok (a, s') ↔ cx.Makes declared s a s' := by
  constructor
  · intro h
    obtain ⟨fresh, mid, hcreate, hinject⟩ := bind_state_eq_ok h
    cases declared with
    | error message =>
      cases hcreate
      cases hinject
      exact .error
    | store root format =>
      cases hcreate
      cases hinject
      exact .store
    | remote endpoint =>
      rw [create] at hcreate
      cases hr : Remote.ofEndpoint endpoint with
      | error cause =>
        rw [hr] at hcreate
        cases hcreate
      | ok r =>
        rw [hr] at hcreate
        cases hcreate
        cases hinject
        exact .remote hr
    | extension name =>
      rw [create] at hcreate
      cases hx : cx.extensions.aspects.get? name with
      | none =>
        rw [hx] at hcreate
        dsimp only at hcreate
        split at hcreate <;> cases hcreate
      | some x =>
        rw [hx] at hcreate
        cases hcreate
        cases (Except.ok.inj hinject).symm.trans (cx.inject_extension x s)
        exact .extension hx
    | unset => cases hcreate
  · intro h
    cases h with
    | error => rfl
    | store => rfl
    | remote hr => rw [aspect, create, hr]; rfl
    | extension hx => rw [aspect, create, hx]; exact congrArg Except.ok (cx.inject_extension _ s)

/-- A connector becomes an aspect at some time of construction. -/
def Yields (cx : BuildContext) (declared : Connector) (a : Aspect) : Prop :=
  ∃ s s', cx.Makes declared s a s'

end BuildContext

namespace AspectChain
variable {cx : BuildContext} {kind : EntityKind} {c : AspectChain} {a : Aspect} {s s' : Construction}

theorem closing_eq_ok {aspects : List Aspect} (h : closing kind = .ok aspects) :
    ∃ templates, Template.compileAll kind = .ok templates ∧
      aspects = [.links templates, .timestamp, .validation] := by
  unfold closing at h
  split at h
  · next templates htemplates => exact ⟨templates, htemplates, (Except.ok.inj h).symm⟩
  · cases h

theorem build_eq_ok (h : build cx kind s = .ok (c, s')) :
    c.kind = kind ∧ ∃ declared templates, Threads cx.Makes kind.connectors s declared s' ∧
      Template.compileAll kind = .ok templates ∧
      c.aspects = declared ++ [.links templates, .timestamp, .validation] := by
  obtain ⟨declared, mid, hdeclared, h⟩ := bind_state_eq_ok (mapError_eq_ok h)
  obtain ⟨closed, last, hclosing, h⟩ := bind_state_eq_ok h
  obtain ⟨aspects, haspects, hlast⟩ := bind_eq_ok hclosing
  obtain ⟨templates, htemplates, rfl⟩ := closing_eq_ok haspects
  cases hlast
  cases h
  exact ⟨rfl, declared, templates, (threads_of_mapM hdeclared).imp fun _ _ _ _ =>
    BuildContext.aspect_eq_ok_iff.1, htemplates, rfl⟩

/-- A chain that is built for a kind at some time of construction. -/
def BuiltFor (cx : BuildContext) (kind : EntityKind) (c : AspectChain) : Prop :=
  ∃ s s', build cx kind s = .ok (c, s')

theorem BuiltFor.aspects_eq (h : BuiltFor cx kind c) :
    c.kind = kind ∧ ∃ declared templates, List.Forall₂ cx.Yields kind.connectors declared ∧
      Template.compileAll kind = .ok templates ∧
      c.aspects = declared ++ [.links templates, .timestamp, .validation] := by
  obtain ⟨s, s', h⟩ := h
  obtain ⟨hkind, declared, templates, hdeclared, htemplates, haspects⟩ := build_eq_ok h
  exact ⟨hkind, declared, templates, hdeclared.forall₂, htemplates, haspects⟩

theorem BuiltFor.declared_or_closing (h : BuiltFor cx kind c) (ha : a ∈ c.aspects) :
    (∃ x ∈ kind.connectors, cx.Yields x a) ∨
      (∃ templates, a = .links templates) ∨ a = .timestamp ∨ a = .validation := by
  obtain ⟨-, declared, templates, hdeclared, -, haspects⟩ := h.aspects_eq
  rw [haspects, List.mem_append] at ha
  rcases ha with ha | ha
  · exact .inl (exists_of_forall₂ hdeclared.flip ha)
  · simp only [List.mem_cons, List.not_mem_nil, or_false] at ha
    exact .inr (ha.imp_left fun hlinks => ⟨templates, hlinks⟩)

end AspectChain

theorem ConnectorChain.build_eq_ok {cx : BuildContext} {type : TypeDecl} {c : ConnectorChain}
    (h : build cx type = .ok c) :
    c.type = type ∧ type.connectors.mapM cx.connector = .ok c.connectors := by
  unfold build at h
  cases hc : type.connectors.mapM cx.connector with
  | error fault => simp [hc] at h
  | ok connectors =>
    rw [hc] at h
    cases h
    exact ⟨rfl, rfl⟩

end EntityCatalog
