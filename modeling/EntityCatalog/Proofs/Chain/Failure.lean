import EntityCatalog.Proofs.Traversal
import EntityCatalog.Proofs.World
import EntityCatalog.Service

/-!
# Failures of the chains of kinds

Whatever a chain of a kind fails with is the failure of one of its aspects (`AspectChain.FailsWith`).
The service of a kind adds only one reason of its own to that, a request that is not for it
(`Service.get_eq_error`, `Service.listEntities_eq_error`).
-/

namespace EntityCatalog

namespace AspectChain

/-- A failure of one of the aspects of a kind. -/
inductive FailsWith (kind : EntityKind) (aspects : List Aspect) : ServiceError → Prop
  | aspect {a : Aspect} (ha : a ∈ aspects) (cause : AspectError) :
      FailsWith kind aspects (failure kind a cause)

variable {kind : EntityKind} {a : Aspect} {aspects rest : List Aspect} {f : ServiceError} {env : Env}
  {j : Journal}

theorem FailsWith.cons (h : FailsWith kind rest f) : FailsWith kind (a :: rest) f := by
  obtain ⟨ha, cause⟩ := h
  exact .aspect (List.mem_cons_of_mem _ ha) cause

theorem failsWith_of_pass {e : Entity} (h : (pass kind aspects e env j).1.failure? = some f) :
    FailsWith kind aspects f := by
  induction aspects generalizing e j with
  | nil => cases h
  | cons a rest ih =>
    obtain ⟨out, hout⟩ : ∃ out, (pass kind (a :: rest) e env j).1 = .failure out f :=
      ⟨_, congrArg (Attempt.mk _) h⟩
    rw [pass] at hout
    rcases Run.bind_attempt hout with ⟨left, cause, j', -, hout⟩ | ⟨mid, j', -, hout⟩
    · cases hout
      exact .aspect List.mem_cons_self cause
    · exact (ih (congrArg Attempt.failure? hout)).cons

theorem failsWith_of_gather {request : ListRequest} {before : List Entity}
    (h : (gather kind request aspects before env j).1 = .error f) : FailsWith kind aspects f := by
  induction aspects generalizing before j with
  | nil => cases h
  | cons a rest ih =>
    rw [gather] at h
    rcases Run.bind_attempt h with ⟨left, cause, j', -, h⟩ | ⟨mid, j', -, h⟩
    · cases h
      exact .aspect List.mem_cons_self cause
    · exact (ih h).cons

theorem failsWith_of_discover {c : AspectChain} {request : ListRequest}
    (h : (c.discover request env j).1 = .error f) : FailsWith c.kind c.aspects f := by
  rw [discover] at h
  rcases Run.bind_except h with ⟨cause, j', hgather, h⟩ | ⟨reports, j', -, h⟩
  · cases h
    exact failsWith_of_gather (congrArg (·.1) hgather)
  · cases h

end AspectChain

namespace Service
open AspectChain

variable {c : AspectChain} {f : ServiceError} {env : Env} {j : Journal}

theorem aspect_of_failsWith (h : FailsWith c.kind c.aspects f) :
    ∃ name ∈ c.names, ∃ cause, f = .aspect c.kind.id.text name cause := by
  obtain ⟨ha, cause⟩ := h
  exact ⟨_, List.mem_map_of_mem ha, cause, rfl⟩

theorem entityId_eq_ok_iff {kind : EntityKind} {iri : String} {id : EntityId} :
    entityId kind iri = .ok id ↔ EntityId.parse iri = .ok id ∧ id.kind = kind.id := by
  unfold entityId
  cases EntityId.parse iri with
  | error e => simp
  | ok found =>
    dsimp only
    split
    · next hkind =>
      rw [Except.ok.injEq, Except.ok.injEq]
      exact ⟨fun h => ⟨h, h ▸ hkind⟩, fun h => h.1⟩
    · next hkind => exact ⟨nofun, fun ⟨h, hid⟩ => absurd (Except.ok.inj h ▸ hid) hkind⟩

theorem getEntity_eq_error {iri : String} (h : (getEntity c iri env j).1 = .error f) :
    entityId c.kind iri = .error f ∨ FailsWith c.kind c.aspects f := by
  unfold getEntity at h
  cases hid : entityId c.kind iri with
  | error e =>
    rw [hid] at h
    exact .inl (congrArg Except.error (Except.error.inj h))
  | ok id =>
    rw [hid] at h
    rcases Run.bind_attempt h with ⟨left, cause, j', haugment, h⟩ | ⟨e, j', -, h⟩
    · cases h
      exact .inr (failsWith_of_pass (congrArg (·.1.failure?) haugment))
    · cases h

theorem get_eq_error {iri : String} (h : (get iri (.kind c) env j).1 = .error f) :
    entityId c.kind iri = .error f ∨ FailsWith c.kind c.aspects f := by
  rw [get, Run.bind_apply, Run.pure_apply] at h
  have hentity := exceptMap_eq_error h
  exact getEntity_eq_error hentity

theorem augmentAll_eq_error {filter : SortedMap String} {found : List Entity}
    (h : (augmentAll c filter found env j).1 = .error f) : FailsWith c.kind c.aspects f := by
  induction found generalizing j with
  | nil => cases h
  | cons e rest ih =>
    rw [augmentAll] at h
    rcases Run.bind_attempt h with ⟨left, cause, j', haugment, h⟩ | ⟨out, j', -, h⟩
    · cases h
      exact failsWith_of_pass (congrArg (·.1.failure?) haugment)
    · rcases Run.bind_except h with ⟨cause, j'', hrest, h⟩ | ⟨kept, j'', -, h⟩
      · cases h
        exact ih (congrArg (·.1) hrest)
      · cases h

theorem listEntities_eq_error {request : ListRequest}
    (h : (listEntities c request env j).1 = .error f) :
    request.kind ≠ c.kind.id ∧ f = .invalidRequest (.misdirected request.kind c.kind.id.text) ∨
      FailsWith c.kind c.aspects f := by
  unfold listEntities at h
  split at h
  · next hkind => exact .inl ⟨hkind, (Except.error.inj h).symm⟩
  · rcases Run.bind_except h with ⟨cause, j', hdiscover, h⟩ | ⟨found, j', -, h⟩
    · cases h
      exact .inr (failsWith_of_discover (congrArg (·.1) hdiscover))
    · exact .inr (augmentAll_eq_error h)

end Service

end EntityCatalog
