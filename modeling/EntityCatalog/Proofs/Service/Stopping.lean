import EntityCatalog.Proofs.Chain.Complete
import EntityCatalog.Proofs.Chain.Failure
import EntityCatalog.Proofs.Chain.Grouping
import EntityCatalog.Proofs.Chain.Stopping

/-!
# Requests that end at a failure

A request to the service of a kind fails where its chain stops first: on the entity that is asked for, in
discovery, or on the first entity of a listing that does not pass. The answer and the journal are those of
that aspect (`stops_at_first_failure`). An error connector makes an aspect that fails on everything, so that
the service of its kind never succeeds. What reaches the first of them ends there.
-/

namespace EntityCatalog

/-! ## Error connectors -/

namespace AspectChain

variable {k : EntityKind} {cx : BuildContext} {c : AspectChain} {message : String}

/-- An error connector becomes an aspect of its own behind those of the connectors in front of it. -/
theorem aspects_of_error (hc : BuiltFor cx k c) {front back : List Connector}
    (hsplit : k.connectors = front ++ .error message :: back) :
    ∃ earlier later, c.aspects = earlier ++ .error message :: later ∧
      List.Forall₂ cx.Yields front earlier := by
  obtain ⟨-, declared, templates, hdeclared, -, haspects⟩ := hc.aspects_eq
  rw [hsplit] at hdeclared
  obtain ⟨earlier, rest, rfl, hearlier, hrest⟩ := forall₂_append_left hdeclared
  cases hrest with
  | @cons _ a _ later ha =>
    obtain ⟨s, s', hmakes⟩ := ha
    cases hmakes
    refine ⟨earlier, later ++ [.links templates, .timestamp, .validation], ?_, hearlier⟩
    rw [haspects, List.append_assoc, List.cons_append]

theorem mem_aspects_of_error (hc : BuiltFor cx k c) (h : .error message ∈ k.connectors) :
    .error message ∈ c.aspects := by
  obtain ⟨front, back, hsplit⟩ := List.append_of_mem h
  obtain ⟨earlier, later, haspects, -⟩ := aspects_of_error hc hsplit
  rw [haspects]
  exact List.mem_append_right _ List.mem_cons_self

end AspectChain

/-! ## Requests -/

namespace Service
open AspectChain
open Run (Steps StopsAt)

/-- The step of an entity of a listing: it passes the chain or fails. -/
def passing (c : AspectChain) (e : Entity) (_ : Unit) : Run (Attempt ServiceError Unit) := do
  return ⟨(), (← c.augment e).failure?⟩

variable {c : AspectChain} {f : ServiceError} {env : Env} {j j' : Journal}

theorem augmentAll_eq_error_iff {filter : SortedMap String} {found : List Entity} :
    augmentAll c filter found env j = (.error f, j') ↔
      ∃ e, StopsAt (passing c) env found () j e () f j' := by
  induction found generalizing j with
  | nil =>
    constructor
    · intro h
      cases h
    · rintro ⟨e, h⟩
      exact absurd h Run.not_stopsAt_nil
  | cons first rest ih =>
    cases haugment : c.augment first env j with
    | mk attempt j₁ =>
      obtain ⟨out, _ | own⟩ := attempt
      · have hstep : passing c first () env j = (.success (), j₁) := by
          rw [passing, Run.bind_apply, haugment]
          rfl
        simp only [Run.stopsAt_of_success hstep, ← ih]
        rw [augmentAll_of_success haugment]
        obtain ⟨_ | kept, j₂⟩ := augmentAll c filter rest env j₁
        · rfl
        · constructor <;> intro h <;> cases h
      · have hstep : passing c first () env j = (.failure () own, j₁) := by
          rw [passing, Run.bind_apply, haugment]
          rfl
        rw [augmentAll_of_failure haugment]
        constructor
        · intro h
          cases h
          exact ⟨first, (Run.stopsAt_of_failure hstep).2 ⟨rfl, rfl, rfl, rfl⟩⟩
        · rintro ⟨e, h⟩
          obtain ⟨-, -, rfl, rfl⟩ := (Run.stopsAt_of_failure hstep).1 h
          rfl

/-! ## Answers -/

theorem get_refused {iri : String} {own : ServiceError} (h : entityId c.kind iri = .error own) :
    get iri (.kind c) env j = (.error own, j) := by
  rw [get, Run.bind_apply, getEntity, h]
  rfl

theorem get_addressed {iri : String} {id : EntityId} (h : entityId c.kind iri = .ok id) :
    get iri (.kind c) env j = (match (c.augment (.bare id) env j).1 with
      | ⟨_, some own⟩ => .error own
      | ⟨e, none⟩ => .ok (.ofEntity e), (c.augment (.bare id) env j).2) := by
  rw [get, Run.bind_apply, getEntity, h]
  dsimp only
  rw [Run.bind_apply]
  obtain ⟨⟨out, _ | own⟩, j₁⟩ := c.augment (.bare id) env j <;> rfl

theorem get_eq_error_iff {iri : String} : get iri (.kind c) env j = (.error f, j') ↔
    entityId c.kind iri = .error f ∧ j' = j ∨
      ∃ id left, entityId c.kind iri = .ok id ∧ c.augment (.bare id) env j = (.failure left f, j') := by
  cases hid : entityId c.kind iri with
  | error own =>
    rw [get_refused hid]
    simp [eq_comm]
  | ok id =>
    rw [get_addressed hid]
    simp only [Except.ok.injEq, reduceCtorEq, false_and, false_or, exists_and_left, exists_eq_left']
    obtain ⟨⟨out, _ | own⟩, j₁⟩ := c.augment (.bare id) env j
    · simp [Attempt.failure]
    · simp [Attempt.failure]

theorem list_misdirected {request : ListRequest} (h : request.kind ≠ c.kind.id) :
    list request (.kind c) env j =
      (.error (.invalidRequest (.misdirected request.kind c.kind.id.text)), j) := by
  rw [list, listEntities, if_pos h]
  rfl

theorem list_directed {request : ListRequest} (h : request.kind = c.kind.id) :
    list request (.kind c) env j = (match (c.discover request env j).1 with
      | .error own => (.error own, (c.discover request env j).2)
      | .ok found => augmentAll c request.filter found env (c.discover request env j).2) := by
  rw [list, listEntities, if_neg (not_not.2 h), Run.bind_apply]
  cases (c.discover request env j).1 <;> rfl

theorem list_eq_error_iff {request : ListRequest} : list request (.kind c) env j = (.error f, j') ↔
    request.kind ≠ c.kind.id ∧ f = .invalidRequest (.misdirected request.kind c.kind.id.text) ∧ j' = j ∨
      request.kind = c.kind.id ∧ (c.discover request env j = (.error f, j') ∨
        ∃ found j₁ e, c.discover request env j = (.ok found, j₁) ∧
          StopsAt (passing c) env found () j₁ e () f j') := by
  by_cases hkind : request.kind = c.kind.id
  · rw [list_directed hkind]
    obtain ⟨own | found, j₁⟩ := c.discover request env j
    · simp [hkind]
    · simp [hkind, augmentAll_eq_error_iff]
  · rw [list_misdirected hkind]
    simp [hkind, eq_comm]

/-! ## Error connectors -/

section error
variable {k : EntityKind} {cx : BuildContext} {message : String}

theorem not_get_ok (h : .error message ∈ c.aspects) (iri : String) (thing : Thing) :
    (get iri (.kind c) env j).1 ≠ .ok thing := by
  cases hid : entityId c.kind iri with
  | error own =>
    rw [get_refused hid]
    simp
  | ok id =>
    rw [get_addressed hid]
    cases haugment : c.augment (.bare id) env j with
    | mk attempt j₁ =>
      obtain ⟨out, _ | own⟩ := attempt
      · have hsteps := augment_eq_success_iff.1 haugment
        exact absurd hsteps (Run.not_steps_of_mem h fun e j => ⟨e, .injected message, j, rfl⟩)
      · simp

theorem not_list_ok (h : .error message ∈ c.aspects) (request : ListRequest) (es : List Entity) :
    (list request (.kind c) env j).1 ≠ .ok es := by
  intro hlist
  obtain ⟨found, j₁, hdiscover, -⟩ := listEntities_eq_ok hlist
  obtain ⟨reports, hsteps, -⟩ := discover_eq_ok_iff.1 hdiscover
  exact Run.not_steps_of_mem h (fun before j => ⟨before, .injected message, j, rfl⟩) hsteps

end error

/-- **A chain stops at its first failure, and no request gets past an error connector.** Passing an entity
and discovery end with the first aspect that fails, with its error and the journal that it leaves. A request
fails so, or because it is not for the kind and then nothing is looked at. If a connector of the kind is an
error connector, no request succeeds, and one that is for the kind and on which the aspects in front of that
connector succeed is answered with its message. -/
theorem stops_at_first_failure {k : EntityKind} {cx : BuildContext} {c : AspectChain}
    (hc : AspectChain.BuiltFor cx k c) (env : Env) (j : Journal) :
    (∀ e left f j', c.augment e env j = (.failure left f, j') ↔ ∃ failed cause,
      StopsAt (augmenting k) env c.aspects e j failed left cause j' ∧
        f = .aspect k.id.text failed.name cause) ∧
    (∀ request f j', c.discover request env j = (.error f, j') ↔ ∃ failed left cause,
      StopsAt (listing k request) env c.aspects [] j failed left cause j' ∧
        f = .aspect k.id.text failed.name cause) ∧
    (∀ iri f j', get iri (.kind c) env j = (.error f, j') ↔
      entityId k iri = .error f ∧ j' = j ∨
      ∃ id left, entityId k iri = .ok id ∧ c.augment (.bare id) env j = (.failure left f, j')) ∧
    (∀ request f j', list request (.kind c) env j = (.error f, j') ↔
      request.kind ≠ k.id ∧ f = .invalidRequest (.misdirected request.kind k.id.text) ∧ j' = j ∨
      request.kind = k.id ∧ (c.discover request env j = (.error f, j') ∨
        ∃ found j₁ e, c.discover request env j = (.ok found, j₁) ∧
          StopsAt (passing c) env found () j₁ e () f j')) ∧
    (∀ message, .error message ∈ k.connectors →
      (∀ iri thing, (get iri (.kind c) env j).1 ≠ .ok thing) ∧
      ∀ request es, (list request (.kind c) env j).1 ≠ .ok es) ∧
    ∀ front message back, k.connectors = front ++ .error message :: back →
      ∃ earlier later, c.aspects = earlier ++ .error message :: later ∧
      List.Forall₂ cx.Yields front earlier ∧
      (∀ iri id mid j', entityId k iri = .ok id → Steps (augmenting k) env earlier (.bare id) j mid j' →
        get iri (.kind c) env j = (.error (.aspect k.id.text "error" (.injected message)), j')) ∧
      ∀ request mid j', request.kind = k.id → Steps (listing k request) env earlier [] j mid j' →
        list request (.kind c) env j = (.error (.aspect k.id.text "error" (.injected message)), j') := by
  obtain rfl : c.kind = k := hc.aspects_eq.1
  refine ⟨fun _ _ _ _ => augment_eq_failure_iff, fun _ _ _ => discover_eq_error_iff,
    fun _ _ _ => get_eq_error_iff, fun _ _ _ => list_eq_error_iff, fun message hmessage => ?_,
    fun front message back hsplit => ?_⟩
  · have hmem := mem_aspects_of_error hc hmessage
    exact ⟨not_get_ok hmem, not_list_ok hmem⟩
  · obtain ⟨earlier, later, haspects, hearlier⟩ := aspects_of_error hc hsplit
    refine ⟨earlier, later, haspects, hearlier, ?_, ?_⟩
    · intro iri id mid j' hid hsteps
      have hstops : StopsAt (augmenting c.kind) env c.aspects (.bare id) j (.error message) mid
          (.injected message) j' := ⟨earlier, later, mid, j', haspects, hsteps, rfl⟩
      exact get_eq_error_iff.2 (.inr ⟨id, mid, hid,
        augment_eq_failure_iff.2 ⟨.error message, .injected message, hstops, rfl⟩⟩)
    · intro request mid j' hkind hsteps
      have hstops : StopsAt (listing c.kind request) env c.aspects [] j (.error message) mid
          (.injected message) j' := ⟨earlier, later, mid, j', haspects, hsteps, rfl⟩
      exact list_eq_error_iff.2 (.inr ⟨hkind, .inl
        (discover_eq_error_iff.2 ⟨.error message, mid, .injected message, hstops, rfl⟩)⟩)

/-! ### A kind with two error connectors -/

def refusing : EntityKind :=
  { books with connectors :=
      [.extension "catalog", .error "first", .extension "catalog", .error "second"] }

def refusingContext : BuildContext :=
  { bookContext with extensions := ⟨.ofList [("catalog", catalog)], ∅⟩ }

/-- The catalog in front of the first error connector is asked, the one behind it is not. -/
theorem stops_at_first_failure_errors :
    ∃ c, AspectChain.BuiltFor refusingContext refusing c ∧
      get "demo.book/1" (.kind c) quietEnv [] =
        (.error (.aspect "demo.book" "error" (.injected "first")), [.ask "catalog"]) ∧
      list (.all ⟨"demo", "book"⟩) (.kind c) quietEnv [] =
        (.error (.aspect "demo.book" "error" (.injected "first")), [.ask "catalog"]) ∧
      ∀ iri thing, (get iri (.kind c) quietEnv []).1 ≠ .ok thing := by
  obtain ⟨c, hc⟩ : ∃ c, AspectChain.BuiltFor refusingContext refusing c := ⟨_, .start, _, rfl⟩
  obtain ⟨-, -, -, -, hnever, hfirst⟩ := stops_at_first_failure hc quietEnv []
  obtain ⟨earlier, later, -, hearlier, hget, hlist⟩ :=
    hfirst [.extension "catalog"] "first" [.extension "catalog", .error "second"] rfl
  obtain ⟨o, rfl, ho⟩ : ∃ o : AspectObject, earlier = [.extension o] ∧ o.extension = catalog := by
    obtain ⟨a, rest, ⟨s, s', hmakes⟩, hrest, rfl⟩ := List.forall₂_cons_left_iff.1 hearlier
    cases hrest
    cases hmakes with
    | extension hx => exact ⟨_, rfl, (Option.some.inj hx).symm⟩
  obtain ⟨n, x, grants⟩ := o
  obtain rfl : x = catalog := ho
  have hmem : .error "first" ∈ refusing.connectors := by simp [refusing]
  exact ⟨c, hc, hget "demo.book/1" ⟨⟨"demo", "book"⟩, ["1"]⟩ _ _ rfl (.next rfl .none),
    hlist (.all ⟨"demo", "book"⟩) _ _ rfl (.next rfl .none), (hnever "first" hmem).1⟩

end Service

end EntityCatalog
