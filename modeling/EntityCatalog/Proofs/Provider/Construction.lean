import EntityCatalog.Proofs.Provider.Declaration
import EntityCatalog.Provider

/-!
# Construction of a provider

Construction goes through the declarations in order, all kinds before all types. As long as they are
good, the services are those of the declarations so far and the one for descriptors
(`Services.Registered`); it ends at the first bad one.
-/

namespace EntityCatalog

/-! ## Services -/

/-- The identifiers of the services are those that are taken. -/
def Services.Registered (s : Services) (before : List Declaration) : Prop :=
  ∀ id, s.contains id = true ↔ id ∈ Declaration.taken before

section services
variable {s s' : Services} {before : List Declaration} {service : Service}

theorem Services.register_settles (hs : s.Registered before) (service : Service) :
    Settles (s.register service) (service.id ∉ Declaration.taken before)
      (fun e => service.id ∈ Declaration.taken before ∧ e = ⟨service.id, .duplicateService⟩) := by
  unfold register
  by_cases h : s.contains service.id = true
  · have htaken := (hs _).1 h
    rw [if_pos h]
    exact .report (fun hfree => hfree htaken) fun e => by simp [htaken]
  · have hfree := fun htaken => h ((hs _).2 htaken)
    rw [if_neg h]
    exact .success hfree fun e hbad => hfree hbad.1

theorem Services.Registered.register (hs : s.Registered before)
    (h : s.register service = .ok s') {d : Declaration} (hid : service.id = d.id) :
    s'.Registered (before ++ [d]) := by
  intro id
  unfold Services.register at h
  split at h
  · cases h
  · cases h
    have htaken : id ∈ Declaration.taken (before ++ [d]) ↔
        id = d.id ∨ id ∈ Declaration.taken before := by
      simp [Declaration.taken, or_comm, or_left_comm]
    rw [htaken, ← hs id, Services.contains, Services.contains, SortedMap.contains,
      SortedMap.contains, SortedMap.get?_insert, hid]
    by_cases hne : id = d.id
    · simp [hne]
    · simp [hne]

theorem Declaration.service_settles {x : Extensions} {d : Declaration} {α β : Type}
    {chain : Building BuildError α} {st : Construction}
    (hchain : Settles (chain st) (d.Buildable x) (fun e => ∃ fault, d.ChainFault x fault ∧ e = ⟨d.id, fault⟩))
    (hs : s.Registered before) {service : α → Service}
    (hid : ∀ c st', chain st = .ok (c, st') → (service c).id = d.id) (finish : α → Services → β) :
    Settles ((do let c ← chain; let services ← s.register (service c); return finish c services :
        Building BuildError β) st)
      (¬ d.Bad x before) (fun e => ∃ fault, d.Blame x before fault ∧ e = ⟨d.id, fault⟩) := by
  have hregister (made : α × Construction) (hmade : chain st = .ok made) :
      Settles ((do let services ← s.register (service made.1); return finish made.1 services :
          Building BuildError β) made.2)
        (d.id ∉ taken before) (fun e => d.id ∈ taken before ∧ e = ⟨d.id, .duplicateService⟩) := by
    rw [← hid made.1 made.2 hmade]
    exact ((Services.register_settles hs (service made.1)).returning (·, made.2)).returning
      fun services => (finish made.1 services.1, services.2)
  refine (hchain.seq hregister).congr not_bad_iff.symm fun e => ?_
  simp only [blame_iff]
  constructor
  · rintro (⟨fault, h, rfl⟩ | ⟨hd, h, rfl⟩)
    · exact ⟨fault, .inl h, rfl⟩
    · exact ⟨_, .inr ⟨hd, h, rfl⟩, rfl⟩
  · rintro ⟨fault, h | ⟨hd, h, rfl⟩, rfl⟩
    · exact .inl ⟨fault, h, rfl⟩
    · exact .inr ⟨hd, h, rfl⟩

end services

/-! ## Declarations -/

/-- The descriptors that a service's chain contributes: aspect by aspect, or connector by connector,
each in its own order. -/
def Service.contributions : Service → List Descriptor
  | .kind c => c.aspects.flatMap Aspect.descriptors
  | .type c _ => c.connectors.flatMap ThingConnector.descriptors
  | .introspection _ => []

namespace Provider
open Declaration

/-- Make the service of a declaration. -/
def declare (cx : BuildContext) (draft : Draft) : Declaration → Building BuildError Draft
  | .kind k => addKind cx draft k
  | .type t => addType cx draft t

variable {cx : BuildContext} {draft draft' : Draft} {before : List Declaration} {s s' : Construction}

theorem kind_service_id {k : EntityKind} {c : AspectChain} (h : AspectChain.BuiltFor cx k c) :
    (Service.kind c).id = (Declaration.kind k).id := by
  rw [Service.id, h.aspects_eq.1, Declaration.id]

theorem type_service_id {t : TypeDecl} {c : ConnectorChain} (h : ConnectorChain.build cx t = .ok c)
    (handle : Handle) : (Service.type c handle).id = (Declaration.type t).id := by
  rw [Service.id, (ConnectorChain.build_eq_ok h).1, Declaration.id]

theorem declare_settles (d : Declaration) (hs : draft.services.Registered before) (s : Construction) :
    Settles (declare cx draft d s) (¬ d.Bad cx.extensions before)
      (fun e => ∃ fault, d.Blame cx.extensions before fault ∧ e = ⟨d.id, fault⟩) := by
  cases d with
  | kind k =>
    exact service_settles (AspectChain.build_settles cx k s) hs (fun c s' hc => kind_service_id ⟨s, s', hc⟩)
      fun c services => (⟨services, draft.descriptors.add c.descriptors⟩ : Draft)
  | type t =>
    have hchain : Settles ((ConnectorChain.build cx t : Building BuildError ConnectorChain) s) _ _ :=
      (ConnectorChain.build_settles cx t).returning (·, s)
    refine service_settles hchain hs (fun c s' hc => ?_)
      fun c services => (⟨services, draft.descriptors.add c.descriptors⟩ : Draft)
    obtain ⟨made, hmade, heq⟩ := map_eq_ok hc
    cases heq
    exact type_service_id hmade _

/-- The service of a declaration, as construction goes on. -/
inductive Declares (cx : BuildContext) : Declaration → Construction → Service → Construction → Prop
  | kind {k : EntityKind} {c : AspectChain} {s s' : Construction}
      (h : AspectChain.build cx k s = .ok (c, s')) : Declares cx (.kind k) s (.kind c) s'
  | type {t : TypeDecl} {c : ConnectorChain} {s : Construction} (h : ConnectorChain.build cx t = .ok c) :
      Declares cx (.type t) s (.type c cx.handle) s

theorem Declares.id_eq {d : Declaration} {service : Service} (h : Declares cx d s service s') :
    service.id = d.id := by
  cases h with
  | kind hc => exact kind_service_id ⟨_, _, hc⟩
  | type hc => exact type_service_id hc cx.handle

theorem declare_eq_ok {d : Declaration} (h : declare cx draft d s = .ok (draft', s')) :
    ∃ service, Declares cx d s service s' ∧ draft.services.register service = .ok draft'.services ∧
      draft'.descriptors = draft.descriptors.add service.contributions := by
  cases d with
  | kind k =>
    obtain ⟨c, mid, hc, h⟩ := bind_state_eq_ok h
    obtain ⟨services, last, hservices, h⟩ := bind_state_eq_ok h
    obtain ⟨registered, hregister, hlast⟩ := map_eq_ok hservices
    cases hlast
    cases h
    exact ⟨_, .kind hc, hregister, rfl⟩
  | type t =>
    obtain ⟨c, mid, hbuild, h⟩ := bind_state_eq_ok h
    obtain ⟨made, hc, hmid⟩ := map_eq_ok hbuild
    cases hmid
    obtain ⟨services, last, hservices, h⟩ := bind_state_eq_ok h
    obtain ⟨registered, hregister, hlast⟩ := map_eq_ok hservices
    cases hlast
    cases h
    exact ⟨_, .type hc, hregister, rfl⟩

theorem declare_registers (d : Declaration) (hs : draft.services.Registered before)
    (h : declare cx draft d s = .ok (draft', s')) : draft'.services.Registered (before ++ [d]) := by
  obtain ⟨service, hservice, hregister, -⟩ := declare_eq_ok h
  exact hs.register hregister hservice.id_eq

theorem declareAll_settles (cx : BuildContext) (draft : Draft) (ds : List Declaration)
    (hs : draft.services.Registered before) (s : Construction) :
    Settles (ds.foldlM (declare cx) draft s)
      (EachIn (fun front d => ¬ d.Bad cx.extensions (before ++ front)) ds)
      (fun e => FirstIn (fun front d => ¬ d.Bad cx.extensions (before ++ front))
        (fun front d => ∃ fault, d.Blame cx.extensions (before ++ front) fault ∧ e = ⟨d.id, fault⟩)
        ds) := by
  rw [foldlM_state]
  exact Settles.foldlM (fun before (p : Draft × Construction) => p.1.services.Registered before)
    (fun _ d p h => declare_settles d h p.2) (fun _ d _ _ h => declare_registers d h) hs ds

theorem declareAll_registers {ds : List Declaration} (hs : draft.services.Registered before)
    (h : ds.foldlM (declare cx) draft s = .ok (draft', s')) :
    draft'.services.Registered (before ++ ds) := by
  rw [foldlM_state] at h
  exact foldlM_keeps (fun before (p : Draft × Construction) => p.1.services.Registered before)
    (fun _ d _ _ h => declare_registers d h) hs h

/-! ## Providers -/

/-- What the connectors of a model are built with. -/
def context (kinds : KindRepository) (extensions : Extensions) (config : Config) : BuildContext :=
  ⟨kinds, ⟨0⟩, extensions, config⟩

/-- The one service that no declaration makes. -/
def first : Services := ⟨SortedMap.empty.insert Builtin.descriptor (.introspection ⟨0⟩)⟩

/-- There is a handle, and nothing else. -/
def started : Construction := ⟨⟨[none]⟩, 0, []⟩

/-- What there is in the end: the provider of what the kinds and the types of a model have made, and
construction with the handle bound. -/
def finished (kinds : KindRepository) (ofKinds ofTypes : Draft) (s : Construction) :
    Provider × Construction :=
  let s' := (Construction.publish ⟨0⟩ (registry ofKinds ofTypes) s).2
  (⟨ofTypes.services, registry ofKinds ofTypes, ⟨0⟩, s'.bindings, kinds⟩, s')

section build
variable (kinds : KindRepository) (types : TypeRepository) (extensions : Extensions) (config : Config)

theorem construct_eq : construct kinds types extensions config .start = (do
    let ofKinds ← (kinds.kinds.map .kind).foldlM (declare (context kinds extensions config))
      ⟨first, ∅⟩ started
    let ofTypes ← (types.types.map .type).foldlM (declare (context kinds extensions config))
      ⟨ofKinds.1.services, ∅⟩ ofKinds.2
    return finished kinds ofKinds.1 ofTypes.1 ofTypes.2) := by
  simp only [List.foldlM_map]
  rfl

theorem build_eq : build kinds types extensions config =
    (do return (← construct kinds types extensions config .start).1) :=
  (bind_pure_comp _ _).symm

theorem first_registered : first.Registered [] := by
  intro id
  rw [first, Services.contains, SortedMap.contains, SortedMap.get?_insert]
  by_cases h : id = Builtin.descriptor <;> simp [h, taken]

theorem build_settles :
    Settles (build kinds types extensions config)
      (EachIn (fun before d => ¬ d.Bad extensions before) (all kinds types))
      (fun e => FirstIn (fun before d => ¬ d.Bad extensions before)
        (fun before d => ∃ fault, d.Blame extensions before fault ∧ e = ⟨d.id, fault⟩)
        (all kinds types)) := by
  rw [build_eq, construct_eq]
  refine Settles.returning ?_ Prod.fst
  refine ((declareAll_settles _ _ _ first_registered _).seq fun ofKinds hkinds => ?_).congr
    eachIn_append.symm fun e => firstIn_append.symm
  have hregistered : ofKinds.1.services.Registered (kinds.kinds.map .kind) :=
    declareAll_registers first_registered hkinds
  exact (declareAll_settles _ ⟨ofKinds.1.services, ∅⟩ _ hregistered _).returning fun ofTypes =>
    finished kinds ofKinds.1 ofTypes.1 ofTypes.2

/-- **Construction fails exactly if a declaration is bad, and reports the first bad one**, under its
identifier and with what is to blame on it. -/
theorem reports_first_bad :
    (∀ e, build kinds types extensions config = .error e ↔
      ∃ before d after, all kinds types = before ++ d :: after ∧
        (∀ front b back, before = front ++ b :: back → ¬ b.Bad extensions front) ∧
        d.Bad extensions before ∧ e.id = d.id ∧ d.Blame extensions before e.fault) ∧
    ((∃ e, build kinds types extensions config = .error e) ↔
      ∃ before d after, all kinds types = before ++ d :: after ∧ d.Bad extensions before) := by
  have h := build_settles kinds types extensions config
  constructor
  · intro e
    rw [h.error]
    constructor
    · rintro ⟨before, d, after, hall, hgood, fault, hblame, rfl⟩
      exact ⟨before, d, after, hall, hgood, hblame.bad, rfl, hblame⟩
    · rintro ⟨before, d, after, hall, hgood, -, hid, hblame⟩
      exact ⟨before, d, after, hall, hgood, e.fault, hblame, by rw [← hid]⟩
  · simp only [h.error]
    rw [h.bad_iff, EachIn]
    push Not
    rfl

end build

end Provider

end EntityCatalog
