import EntityCatalog.Chain

/-!
# Where a chain stops

Passing an entity and gathering reports both go through the aspects one after another, each from what the
one before has left, and stop at the first that fails (`Run.walk`). `Run.Steps` says what a walk comes to
when nothing fails on it, and `Run.StopsAt` what is the first to fail. Both say what the journal is in the
end: what stands behind a failure has no part in it.
-/

namespace EntityCatalog

/-! ## Walks -/

namespace Run

section walk
variable {α ε σ : Type}

/-- Steps succeed one after another: from which state and journal, and what that leads to. -/
inductive Steps (step : α → σ → Run (Attempt ε σ)) (env : Env) :
    List α → σ → Journal → σ → Journal → Prop
  | none {s : σ} {j : Journal} : Steps step env [] s j s j
  | next {a : α} {rest : List α} {s mid s' : σ} {j j₁ j' : Journal}
      (hstep : step a s env j = (.success mid, j₁)) (hrest : Steps step env rest mid j₁ s' j') :
      Steps step env (a :: rest) s j s' j'

/-- A step is the first to fail: those in front of it succeed, and what it leaves is the state and the
journal in the end. -/
def StopsAt (step : α → σ → Run (Attempt ε σ)) (env : Env) (l : List α) (s : σ) (j : Journal)
    (failed : α) (left : σ) (cause : ε) (j' : Journal) : Prop :=
  ∃ front back mid j₁, l = front ++ failed :: back ∧ Steps step env front s j mid j₁ ∧
    step failed mid env j₁ = (.failure left cause, j')

/-- Take one step after another, up to the first that fails. -/
def walk (step : α → σ → Run (Attempt ε σ)) : List α → σ → Run (Attempt (α × ε) σ)
  | [], s => return .success s
  | a :: rest, s => do
    match ← step a s with
    | ⟨s, some cause⟩ => return .failure s (a, cause)
    | ⟨s, none⟩ => walk step rest s

variable {step : α → σ → Run (Attempt ε σ)} {env : Env} {a failed : α} {l rest : List α}
  {s mid left s' : σ} {j j₁ j' : Journal} {cause own : ε}

theorem Steps.keeps {I : σ → Prop} (h : Steps step env l s j s' j')
    (hkeep : ∀ a ∈ l, ∀ s mid j j₁, step a s env j = (.success mid, j₁) → I s → I mid) (hs : I s) :
    I s' := by
  induction h with
  | none => exact hs
  | next hstep _ ih =>
    rw [List.forall_mem_cons] at hkeep
    exact ih hkeep.2 (hkeep.1 _ _ _ _ hstep hs)

theorem walk_of_success (h : step a s env j = (.success mid, j₁)) :
    walk step (a :: rest) s env j = walk step rest mid env j₁ := by
  rw [walk, Run.bind_apply, h]
  rfl

theorem walk_of_failure (h : step a s env j = (.failure left cause, j')) :
    walk step (a :: rest) s env j = (.failure left (a, cause), j') := by
  rw [walk, Run.bind_apply, h]
  rfl

theorem not_stopsAt_nil : ¬ StopsAt step env [] s j failed left cause j' := by
  rintro ⟨front, back, mid, j₁, h, -⟩
  cases front <;> cases h

theorem stopsAt_of_success (h : step a s env j = (.success mid, j₁)) :
    StopsAt step env (a :: rest) s j failed left cause j' ↔
      StopsAt step env rest mid j₁ failed left cause j' := by
  constructor
  · rintro ⟨front, back, last, j₂, hsplit, hsteps, hfails⟩
    cases hsteps with
    | none =>
      cases hsplit
      cases h.symm.trans hfails
    | next hstep hrest =>
      cases hsplit
      cases h.symm.trans hstep
      exact ⟨_, back, last, j₂, rfl, hrest, hfails⟩
  · rintro ⟨front, back, last, j₂, rfl, hsteps, hfails⟩
    exact ⟨a :: front, back, last, j₂, rfl, .next h hsteps, hfails⟩

theorem stopsAt_of_failure {left' : σ} {j₂ : Journal} (h : step a s env j = (.failure left own, j')) :
    StopsAt step env (a :: rest) s j failed left' cause j₂ ↔
      failed = a ∧ left' = left ∧ cause = own ∧ j₂ = j' := by
  constructor
  · rintro ⟨front, back, last, j₁, hsplit, hsteps, hfails⟩
    cases hsteps with
    | none =>
      cases hsplit
      cases h.symm.trans hfails
      exact ⟨rfl, rfl, rfl, rfl⟩
    | next hstep hrest =>
      cases hsplit
      cases h.symm.trans hstep
  · rintro ⟨rfl, rfl, rfl, rfl⟩
    exact ⟨[], rest, s, j, rfl, .none, h⟩

theorem walk_eq_success_iff :
    walk step l s env j = (.success s', j') ↔ Steps step env l s j s' j' := by
  constructor
  · intro h
    induction l generalizing s j with
    | nil =>
      cases h
      exact .none
    | cons a rest ih =>
      cases hstep : step a s env j with
      | mk attempt j₁ =>
        obtain ⟨mid, _ | cause⟩ := attempt
        · exact .next hstep (ih ((walk_of_success hstep).symm.trans h))
        · cases (walk_of_failure hstep).symm.trans h
  · intro h
    induction h with
    | none => rfl
    | next hstep _ ih => exact (walk_of_success hstep).trans ih

theorem walk_eq_failure_iff : walk step l s env j = (.failure left (failed, cause), j') ↔
    StopsAt step env l s j failed left cause j' := by
  induction l generalizing s j with
  | nil =>
    constructor
    · intro h
      cases h
    · intro h
      exact absurd h not_stopsAt_nil
  | cons a rest ih =>
    cases hstep : step a s env j with
    | mk attempt j₁ =>
      obtain ⟨mid, _ | own⟩ := attempt
      · rw [walk_of_success hstep, stopsAt_of_success hstep]
        exact ih
      · rw [walk_of_failure hstep, stopsAt_of_failure hstep]
        constructor
        · intro h
          cases h
          exact ⟨rfl, rfl, rfl, rfl⟩
        · rintro ⟨rfl, rfl, rfl, rfl⟩
          rfl

theorem not_steps_of_mem (hmem : a ∈ l)
    (hfails : ∀ s j, ∃ left cause j', step a s env j = (.failure left cause, j')) :
    ¬ Steps step env l s j s' j' := by
  intro h
  induction h with
  | none => cases hmem
  | @next b rest s mid s' j j₁ j' hstep hrest ih =>
    rcases List.mem_cons.1 hmem with rfl | hmem
    · obtain ⟨left, cause, j₂, hfailure⟩ := hfails s j
      cases hstep.symm.trans hfailure
    · exact ih hmem

end walk

end Run

/-! ## Passing and gathering -/

namespace AspectChain
open Run (Steps StopsAt walk walk_eq_success_iff walk_eq_failure_iff)

/-- The step of an aspect on an entity. -/
def augmenting (kind : EntityKind) (a : Aspect) (e : Entity) : Run (Attempt AspectError Entity) :=
  a.augment kind e

/-- The step of an aspect on the reports so far. -/
def listing (kind : EntityKind) (request : ListRequest) (a : Aspect) (before : List Entity) :
    Run (Attempt AspectError (List Entity)) :=
  a.list request kind before

section chain
variable {kind : EntityKind} {env : Env} {c : AspectChain} {f : ServiceError} {j j' : Journal}

theorem pass_eq (aspects : List Aspect) (e : Entity) (j : Journal) : pass kind aspects e env j =
    (⟨(walk (augmenting kind) aspects e env j).1.left,
      (walk (augmenting kind) aspects e env j).1.failure?.map fun p => failure kind p.1 p.2⟩,
      (walk (augmenting kind) aspects e env j).2) := by
  induction aspects generalizing e j with
  | nil => rfl
  | cons a rest ih =>
    rw [pass, walk, Run.bind_apply, Run.bind_apply, augmenting]
    obtain ⟨⟨left, _ | cause⟩, j'⟩ := a.augment kind e env j
    · exact ih left j'
    · rfl

theorem gather_eq (request : ListRequest) (aspects : List Aspect) (reports : List Entity) (j : Journal) :
    gather kind request aspects reports env j =
      (match (walk (listing kind request) aspects reports env j).1 with
        | ⟨_, some p⟩ => .error (failure kind p.1 p.2)
        | ⟨reports, none⟩ => .ok reports,
        (walk (listing kind request) aspects reports env j).2) := by
  induction aspects generalizing reports j with
  | nil => rfl
  | cons a rest ih =>
    rw [gather, walk, Run.bind_apply, Run.bind_apply, listing]
    obtain ⟨⟨left, _ | cause⟩, j'⟩ := a.list request kind reports env j
    · exact ih left j'
    · rfl

theorem augment_eq_success_iff {e out : Entity} : c.augment e env j = (.success out, j') ↔
    Steps (augmenting c.kind) env c.aspects e j out j' := by
  rw [augment, pass_eq, ← walk_eq_success_iff]
  obtain ⟨⟨left, _ | p⟩, j₁⟩ := walk (augmenting c.kind) c.aspects e env j <;>
    simp [Attempt.success]

theorem augment_eq_failure_iff {e left : Entity} : c.augment e env j = (.failure left f, j') ↔
    ∃ failed cause, StopsAt (augmenting c.kind) env c.aspects e j failed left cause j' ∧
      f = failure c.kind failed cause := by
  rw [augment, pass_eq]
  simp only [← walk_eq_failure_iff]
  obtain ⟨⟨last, _ | ⟨a, own⟩⟩, j₁⟩ := walk (augmenting c.kind) c.aspects e env j
  · simp [Attempt.failure]
  · constructor
    · intro h
      cases h
      exact ⟨a, own, rfl, rfl⟩
    · rintro ⟨failed, cause, h, rfl⟩
      cases h
      rfl

theorem discover_eq (request : ListRequest) : c.discover request env j =
    ((gather c.kind request c.aspects [] env j).1.map group,
      (gather c.kind request c.aspects [] env j).2) := rfl

theorem discover_eq_error_iff {request : ListRequest} : c.discover request env j = (.error f, j') ↔
    ∃ failed left cause,
      StopsAt (listing c.kind request) env c.aspects [] j failed left cause j' ∧
      f = failure c.kind failed cause := by
  rw [discover_eq, gather_eq]
  simp only [← walk_eq_failure_iff]
  obtain ⟨⟨last, _ | ⟨a, own⟩⟩, j₁⟩ :=
    walk (listing c.kind request) c.aspects [] env j
  · simp [Attempt.failure, Except.map]
  · constructor
    · intro h
      cases h
      exact ⟨a, last, own, rfl, rfl⟩
    · rintro ⟨failed, left, cause, h, rfl⟩
      cases h
      rfl

theorem discover_eq_ok_iff {request : ListRequest} {found : List Entity} :
    c.discover request env j = (.ok found, j') ↔ ∃ reports,
      Steps (listing c.kind request) env c.aspects [] j reports j' ∧ found = group reports := by
  rw [discover_eq, gather_eq]
  simp only [← walk_eq_success_iff]
  obtain ⟨⟨last, _ | p⟩, j₁⟩ := walk (listing c.kind request) c.aspects [] env j
  · constructor
    · intro h
      cases h
      exact ⟨last, rfl, rfl⟩
    · rintro ⟨reports, h, rfl⟩
      cases h
      rfl
  · simp [Attempt.success, Except.map]

end chain

end AspectChain

end EntityCatalog
