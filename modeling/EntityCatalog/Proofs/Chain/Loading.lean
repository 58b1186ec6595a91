import EntityCatalog.Chain
import EntityCatalog.Proofs.World

/-!
# Loading things

The connectors of a type are asked one after another, and each loads on top of what is there: it may
put things in, replace them or take them out. `Loads` says what a sequence of connectors comes to when
none of them fails, `Fails` which one fails first. A chain loads exactly what `Loads` says and reports
exactly what `Fails` says.
-/

namespace EntityCatalog.ConnectorChain

/-- Connectors load one after another and none fails: which things and which journal that starts from,
and what it leads to. -/
inductive Loads (type : TypeDecl) (iri : String) :
    List ThingConnector → SortedMap Thing → Journal → SortedMap Thing → Journal → Prop
  | none {things : SortedMap Thing} {j : Journal} : Loads type iri [] things j things j
  | next {c : ThingConnector} {rest : List ThingConnector} {before mid after : SortedMap Thing}
      {j j' : Journal} (hload : c.load j iri type before = .success mid)
      (hrest : Loads type iri rest mid (j ++ [.ask c.name]) after j') :
      Loads type iri (c :: rest) before j after j'

/-- A connector is the first to fail: those in front of it load. -/
def Fails (type : TypeDecl) (iri : String) (connectors : List ThingConnector)
    (before : SortedMap Thing) (j : Journal) (failed : ThingConnector) (cause : AspectError) : Prop :=
  ∃ front back mid j' left, connectors = front ++ failed :: back ∧
    Loads type iri front before j mid j' ∧ failed.load j' iri type mid = .failure left cause

variable {type : TypeDecl} {iri : String} {connectors rest : List ThingConnector}
  {c failed : ThingConnector} {before mid after left : SortedMap Thing} {j j' : Journal} {env : Env}
  {cause : AspectError}

theorem not_fails_nil : ¬ Fails type iri [] before j failed cause := by
  rintro ⟨front, back, mid, j', left, h, -⟩
  cases front <;> cases h

theorem fails_cons_of_success (hload : c.load j iri type before = .success mid) :
    Fails type iri (c :: rest) before j failed cause ↔
      Fails type iri rest mid (j ++ [.ask c.name]) failed cause := by
  constructor
  · rintro ⟨front, back, mid', j', left, h, hfront, hfail⟩
    cases hfront with
    | none =>
      cases h
      rw [hload] at hfail
      cases hfail
    | next hload' hrest =>
      cases h
      rw [hload] at hload'
      cases hload'
      exact ⟨_, back, mid', j', left, rfl, hrest, hfail⟩
  · rintro ⟨front, back, mid', j', left, rfl, hfront, hfail⟩
    exact ⟨c :: front, back, mid', j', left, rfl, .next hload hfront, hfail⟩

theorem fails_cons_of_failure {own : AspectError} (hload : c.load j iri type before = .failure left own) :
    Fails type iri (c :: rest) before j failed cause ↔ failed = c ∧ cause = own := by
  constructor
  · rintro ⟨front, back, mid', j', left', h, hfront, hfail⟩
    cases hfront with
    | none =>
      cases h
      rw [hload] at hfail
      cases hfail
      exact ⟨rfl, rfl⟩
    | next hload' hrest =>
      cases h
      rw [hload] at hload'
      cases hload'
  · rintro ⟨rfl, rfl⟩
    exact ⟨[], rest, before, j, left, rfl, .none, hload⟩

/-! ## Chains -/

theorem loadFrom_of_success (hload : c.load j iri type before = .success mid) :
    loadFrom type iri (c :: rest) before env j =
      loadFrom type iri rest mid env (j ++ [.ask c.name]) := by
  simp only [loadFrom, Run.bind_apply, Run.note_apply, Run.journal, hload, Attempt.success]

theorem loadFrom_of_failure (hload : c.load j iri type before = .failure left cause) :
    loadFrom type iri (c :: rest) before env j =
      (.error (.aspect type.name c.name cause), j ++ [.ask c.name]) := by
  simp only [loadFrom, Run.bind_apply, Run.note_apply, Run.journal, hload, Attempt.failure,
    Run.pure_apply]

theorem loadFrom_eq_ok_iff : loadFrom type iri connectors before env j = (.ok after, j') ↔
    Loads type iri connectors before j after j' := by
  constructor
  · intro h
    induction connectors generalizing before j with
    | nil =>
      cases h
      exact .none
    | cons c rest ih =>
      cases hload : c.load j iri type before with
      | mk mid failure? =>
        cases failure? with
        | some cause =>
          rw [loadFrom_of_failure hload] at h
          cases h
        | none =>
          rw [loadFrom_of_success hload] at h
          exact .next hload (ih h)
  · intro h
    induction h with
    | none => rfl
    | next hload _ ih => rw [loadFrom_of_success hload, ih]

theorem loadFrom_eq_error_iff {e : ServiceError} :
    (loadFrom type iri connectors before env j).1 = .error e ↔ ∃ failed cause,
      Fails type iri connectors before j failed cause ∧ e = .aspect type.name failed.name cause := by
  induction connectors generalizing before j with
  | nil =>
    constructor
    · intro h
      cases h
    · rintro ⟨failed, cause, h, -⟩
      exact absurd h not_fails_nil
  | cons c rest ih =>
    cases hload : c.load j iri type before with
    | mk left failure? =>
      cases failure? with
      | none =>
        rw [loadFrom_of_success hload, ih]
        simp only [fails_cons_of_success hload]
      | some own =>
        rw [loadFrom_of_failure hload]
        simp only [fails_cons_of_failure hload, Except.error.injEq]
        constructor
        · rintro rfl
          exact ⟨c, own, ⟨rfl, rfl⟩, rfl⟩
        · rintro ⟨failed, cause, ⟨rfl, rfl⟩, rfl⟩
          rfl

theorem load_eq_ok_iff {chain : ConnectorChain} : chain.load iri env j = (.ok after, j') ↔
    Loads chain.type iri chain.connectors ∅ j after j' :=
  loadFrom_eq_ok_iff

theorem load_eq_error_iff {chain : ConnectorChain} {e : ServiceError} :
    (chain.load iri env j).1 = .error e ↔ ∃ failed cause,
      Fails chain.type iri chain.connectors ∅ j failed cause ∧
        e = .aspect chain.type.name failed.name cause :=
  loadFrom_eq_error_iff

end EntityCatalog.ConnectorChain
