import EntityCatalog.Aspect
import EntityCatalog.Proofs.Aspect.Storage
import EntityCatalog.Proofs.Document.Payload

/-!
# What stores and remotes say

Stores and remotes are asked about an identifier, whatever is known of its entity so far. The entity takes in
what they answer, or stays as it is (`Aspect.augment_of_source`).
-/

namespace EntityCatalog

/-- What becomes of an entity with the answer of somebody who was asked about it. -/
def Entity.informed (e : Entity) : Except AspectError (Option Entity) → Attempt AspectError Entity
  | .error cause => .failure e cause
  | .ok none => .success e
  | .ok (some report) => .success (e.merge report)

theorem Entity.informed_id (e : Entity) (answer : Except AspectError (Option Entity)) :
    (e.informed answer).left.id = e.id := by
  obtain cause | _ | report := answer <;> rfl

variable {env : Env} {j j' : Journal} {id : EntityId}

/-! ## Stores -/

namespace Store

variable (s : Store)

/-- What a store says about an entity. A strict one has to know of it. -/
def answer (id : EntityId) : Run (Except AspectError (Option Entity)) := do
  match ← s.report? id with
  | .ok none => if s.strict then return .error (.notFound id.text) else return .ok none
  | known => return known

theorem augment_eq_informed (e : Entity) :
    s.augment e = do return e.informed (← s.answer e.id) := by
  funext env j
  rw [augment, answer, Run.bind_apply, Run.bind_apply, Run.bind_apply]
  obtain ⟨cause | _ | report, j'⟩ := s.report? e.id env j
  · rfl
  · dsimp only
    split <;> rfl
  · rfl

variable {s}

theorem ordered_of_answer {report : Entity} (h : s.answer id env j = (.ok (some report), j')) :
    report.data.Ordered := by
  rw [answer, Run.bind_apply, report?_eq] at h
  dsimp only at h
  generalize hstored : s.stored env.world.files id = stored at h
  obtain cause | _ | known := stored
  · cases h
  · dsimp only at h
    split at h <;> cases h
  · cases h
    unfold Store.stored at hstored
    split at hstored
    · cases hstored
    · split at hstored
      · obtain ⟨read, hparse, hread⟩ := exceptMap_eq_ok hstored
        cases hread
        exact ordered_of_parse hparse
      · cases hstored
      · cases hstored

end Store

/-! ## Remotes -/

namespace Remote

variable (r : Remote)

/-- What a remote says about an entity. It need not know of it. -/
def answer (id : EntityId) : Run (Except AspectError (Option Entity)) := do
  match ← r.post "get" (.object [("id", id.encode)]) with
  | .error cause => return .error cause
  | .ok none => return .ok none
  | .ok (some body) => return (reportOn id body).map some

theorem augment_eq_informed (e : Entity) :
    r.augment e = do return e.informed (← r.answer e.id) := by
  funext env j
  rw [augment, answer, Run.bind_apply, Run.bind_apply, Run.bind_apply]
  obtain ⟨cause | _ | body, j'⟩ := r.post "get" (.object [("id", e.id.encode)]) env j
  · rfl
  · rfl
  · dsimp only
    cases reportOn e.id body <;> rfl

variable {r}

theorem answer_of_reply {status : Nat} {body : String}
    (hreply : env.world.remote j.posts ⟨r.url "get", .object [("id", id.encode)]⟩ = some ⟨status, body⟩)
    (hstatus : Status.isSuccess status = true) : r.answer id env j =
      ((reportOn id body).map some, j ++ [.post ⟨r.url "get", .object [("id", id.encode)]⟩]) := by
  have hfound : status ≠ Status.notFound := by
    rintro rfl
    cases hstatus
  rw [answer, Run.bind_apply, post, Run.bind_apply, Run.post_apply, hreply]
  dsimp only
  rw [if_neg hfound, if_pos hstatus]
  rfl

theorem ordered_of_answer {report : Entity} (h : r.answer id env j = (.ok (some report), j')) :
    report.data.Ordered := by
  rw [answer] at h
  obtain ⟨body?, j₁, -, h⟩ := Run.bind_ok (congrArg (·.1) h) fun _ _ h => by cases h
  cases body? with
  | none => cases h
  | some body =>
    obtain ⟨read, hread, hreport⟩ := exceptMap_eq_ok h
    cases hreport
    exact ordered_of_reportOn hread

end Remote

/-! ## Aspects -/

namespace Aspect

/-- An aspect that is asked about an identifier: a store or a remote. -/
inductive Source : Aspect → Prop
  | store (s : Store) : Source (.store s)
  | remote (r : Remote) : Source (.remote r)

/-- What an aspect says about an entity; those that are not asked say nothing. -/
def answer (id : EntityId) : Aspect → Run (Except AspectError (Option Entity))
  | store s => s.answer id
  | remote r => r.answer id
  | _ => return .ok none

variable {a : Aspect}

theorem augment_of_source (h : a.Source) (kind : EntityKind) (e : Entity) :
    a.augment kind e = do return e.informed (← a.answer e.id) := by
  cases h with
  | store s => exact s.augment_eq_informed e
  | remote r => exact r.augment_eq_informed e

theorem Source.ordered_of_answer (h : a.Source) {report : Entity}
    (hanswer : a.answer id env j = (.ok (some report), j')) : report.data.Ordered := by
  cases h with
  | store s => exact Store.ordered_of_answer hanswer
  | remote r => exact Remote.ordered_of_answer hanswer

end Aspect

end EntityCatalog
