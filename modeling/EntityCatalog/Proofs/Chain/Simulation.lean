import EntityCatalog.Service
import Mathlib.Data.List.Forall2

/-!
# Two chains side by side

Two chains are asked the same, each in its own environment and both from the same journal. If each aspect of
the first does what its counterpart in the second does, so does the chain. An aspect of the first may also
fail on an entity with an excuse, where its counterpart goes on in some other way. Then the first request on
which that happens fails with that excuse, and all before it is answered alike
(`Service.get_follows`, `Service.list_follows`).

In particular two chains that differ only in what their extensions do on other occasions than those that
come up give the same answers and leave the same journal (`Service.get_congr`, `Service.list_congr`).
-/

namespace EntityCatalog

/-- An aspect does in one environment what another does in another one, unless it fails on an entity with an
excuse. -/
structure Aspect.Follows (excuse : Aspect → AspectError → Prop) (env env' : Env) (a b : Aspect) : Prop where
  name : a.name = b.name
  augment : ∀ kind e j, a.augment kind e env j = b.augment kind e env' j ∨
    ∃ left cause j', a.augment kind e env j = (.failure left cause, j') ∧ excuse a cause
  list : ∀ request kind before j, a.list request kind before env j = b.list request kind before env' j

/-- The same for entities of one kind. -/
structure Aspect.FollowsFor (kind : EntityKind) (excuse : Aspect → AspectError → Prop) (env env' : Env)
    (a b : Aspect) : Prop where
  name : a.name = b.name
  augment : ∀ e j, a.augment kind e env j = b.augment kind e env' j ∨
    ∃ left cause j', a.augment kind e env j = (.failure left cause, j') ∧ excuse a cause
  list : ∀ request before j, a.list request kind before env j = b.list request kind before env' j

/-- No failure is excused. -/
def Aspect.never (_ : Aspect) (_ : AspectError) : Prop := False

section follows
variable {excuse : Aspect → AspectError → Prop} {env env' : Env} {kind : EntityKind} {a b : Aspect}
  {aspects others rest : List Aspect} {f : ServiceError}

theorem Aspect.Follows.at (h : Follows excuse env env' a b) (kind : EntityKind) :
    FollowsFor kind excuse env env' a b :=
  ⟨h.name, h.augment kind, fun request => h.list request kind⟩

theorem Aspect.FollowsFor.failure_eq (h : FollowsFor kind excuse env env' a b) :
    AspectChain.failure kind a = AspectChain.failure kind b := by
  funext cause
  rw [AspectChain.failure, AspectChain.failure, h.name]

theorem Aspect.follows_extension {n n' : Nat} {x y : AspectExtension} {grants grants' : List Grant}
    (hname : x.name = y.name)
    (haugment : ∀ j, x.augment ⟨grants, env.bindings, j⟩ = y.augment ⟨grants', env'.bindings, j⟩)
    (hlist : ∀ j, x.list ⟨grants, env.bindings, j⟩ = y.list ⟨grants', env'.bindings, j⟩) :
    Follows excuse env env' (.extension ⟨n, x, grants⟩) (.extension ⟨n', y, grants'⟩) := by
  refine ⟨hname, fun kind e j => .inl ?_, fun request kind before j => ?_⟩
  · change (x.augment ⟨grants, env.bindings, j⟩ kind e, j ++ [.ask x.name]) =
      (y.augment ⟨grants', env'.bindings, j⟩ kind e, j ++ [.ask y.name])
    rw [haugment, hname]
  · change (x.list ⟨grants, env.bindings, j⟩ request kind before, j ++ [.ask x.name]) =
      (y.list ⟨grants', env'.bindings, j⟩ request kind before, j ++ [.ask y.name])
    rw [hlist, hname]

namespace AspectChain

/-- A request fails because an aspect does, with an excuse. -/
def Excused (excuse : Aspect → AspectError → Prop) (kind : EntityKind) (aspects : List Aspect)
    (f : ServiceError) : Prop :=
  ∃ a ∈ aspects, ∃ cause, excuse a cause ∧ f = failure kind a cause

theorem Excused.cons (h : Excused excuse kind rest f) : Excused excuse kind (a :: rest) f := by
  obtain ⟨b, hb, cause, hcause, rfl⟩ := h
  exact ⟨b, List.mem_cons_of_mem _ hb, cause, hcause, rfl⟩

theorem not_excused_never : ¬ Excused Aspect.never kind aspects f := by
  rintro ⟨a, -, cause, hcause, -⟩
  exact hcause

/-! ## Chains -/

theorem pass_follows (h : List.Forall₂ (Aspect.FollowsFor kind excuse env env') aspects others)
    (e : Entity) (j : Journal) :
    pass kind aspects e env j = pass kind others e env' j ∨
      ∃ left f j', pass kind aspects e env j = (.failure left f, j') ∧ Excused excuse kind aspects f := by
  induction h generalizing e j with
  | nil => exact .inl rfl
  | @cons a b aspects others hab _ ih =>
    rw [pass, pass, Run.bind_apply, Run.bind_apply]
    rcases hab.augment e j with hsame | ⟨left, cause, j', hfails, hcause⟩
    · rw [hsame, hab.failure_eq]
      obtain ⟨⟨left, _ | cause⟩, j'⟩ := b.augment kind e env' j
      · rcases ih left j' with hrest | ⟨out, f, j₁, hrest, hf⟩
        · exact .inl hrest
        · exact .inr ⟨out, f, j₁, hrest, hf.cons⟩
      · exact .inl rfl
    · rw [hfails]
      exact .inr ⟨left, failure kind a cause, j', rfl, a, List.mem_cons_self, cause, hcause, rfl⟩

theorem gather_follows (h : List.Forall₂ (Aspect.FollowsFor kind excuse env env') aspects others)
    (request : ListRequest) (reports : List Entity) (j : Journal) :
    gather kind request aspects reports env j = gather kind request others reports env' j := by
  induction h generalizing reports j with
  | nil => rfl
  | @cons a b aspects others hab _ ih =>
    rw [gather, gather, Run.bind_apply, Run.bind_apply, hab.list, hab.failure_eq]
    obtain ⟨⟨left, _ | cause⟩, j'⟩ := b.list request kind reports env' j
    · exact ih left j'
    · rfl

end AspectChain

/-! ## Services -/

namespace Service
open AspectChain

theorem augmentAll_follows (h : List.Forall₂ (Aspect.FollowsFor kind excuse env env') aspects others)
    (filter : SortedMap String) (found : List Entity) (j : Journal) :
    augmentAll ⟨kind, aspects⟩ filter found env j = augmentAll ⟨kind, others⟩ filter found env' j ∨
      ∃ f j', augmentAll ⟨kind, aspects⟩ filter found env j = (.error f, j') ∧
        Excused excuse kind aspects f := by
  induction found generalizing j with
  | nil => exact .inl rfl
  | cons e rest ih =>
    rw [augmentAll, augmentAll, Run.bind_apply, Run.bind_apply, augment, augment]
    rcases pass_follows h e j with hsame | ⟨left, f, j', hfails, hf⟩
    · rw [hsame]
      obtain ⟨⟨out, _ | f⟩, j'⟩ := pass kind others e env' j
      · dsimp only
        rw [Run.bind_apply, Run.bind_apply]
        rcases ih j' with hrest | ⟨f, j₁, hrest, hf⟩
        · rw [hrest]
          obtain ⟨_ | kept, j₁⟩ := augmentAll ⟨kind, others⟩ filter rest env' j' <;> exact .inl rfl
        · rw [hrest]
          exact .inr ⟨f, j₁, rfl, hf⟩
      · exact .inl rfl
    · rw [hfails]
      exact .inr ⟨f, j', rfl, hf⟩

theorem get_follows (h : List.Forall₂ (Aspect.FollowsFor kind excuse env env') aspects others)
    (iri : String) (j : Journal) :
    get iri (.kind ⟨kind, aspects⟩) env j = get iri (.kind ⟨kind, others⟩) env' j ∨
      ∃ f j', get iri (.kind ⟨kind, aspects⟩) env j = (.error f, j') ∧ Excused excuse kind aspects f := by
  rw [get, get, Run.bind_apply, Run.bind_apply, getEntity, getEntity]
  dsimp only
  cases entityId kind iri with
  | error own => exact .inl rfl
  | ok id =>
    dsimp only
    rw [Run.bind_apply, Run.bind_apply, augment, augment]
    rcases pass_follows h (.bare id) j with hsame | ⟨left, f, j', hfails, hf⟩
    · rw [hsame]
      obtain ⟨⟨out, _ | f⟩, j'⟩ := pass kind others (.bare id) env' j <;> exact .inl rfl
    · rw [hfails]
      exact .inr ⟨f, j', rfl, hf⟩

theorem list_follows (h : List.Forall₂ (Aspect.FollowsFor kind excuse env env') aspects others)
    (request : ListRequest) (j : Journal) :
    list request (.kind ⟨kind, aspects⟩) env j = list request (.kind ⟨kind, others⟩) env' j ∨
      ∃ f j', list request (.kind ⟨kind, aspects⟩) env j = (.error f, j') ∧
        Excused excuse kind aspects f := by
  rw [list, list, listEntities, listEntities]
  dsimp only
  split
  · exact .inl rfl
  · rw [Run.bind_apply, Run.bind_apply, discover, discover, Run.bind_apply, Run.bind_apply]
    dsimp only
    rw [gather_follows h]
    obtain ⟨_ | reports, j'⟩ := gather kind request others [] env' j
    · exact .inl rfl
    · exact augmentAll_follows h request.filter (group reports) j'

theorem get_same (h : List.Forall₂ (Aspect.Follows Aspect.never env env') aspects others) (iri : String)
    (j : Journal) : get iri (.kind ⟨kind, aspects⟩) env j = get iri (.kind ⟨kind, others⟩) env' j :=
  (get_follows (h.imp fun _ _ hab => hab.at kind) iri j).resolve_right
    fun ⟨_, _, _, hf⟩ => not_excused_never hf

theorem list_same (h : List.Forall₂ (Aspect.Follows Aspect.never env env') aspects others)
    (request : ListRequest) (j : Journal) :
    list request (.kind ⟨kind, aspects⟩) env j = list request (.kind ⟨kind, others⟩) env' j :=
  (list_follows (h.imp fun _ _ hab => hab.at kind) request j).resolve_right
    fun ⟨_, _, _, hf⟩ => not_excused_never hf

end Service

end follows

/-! ## What extensions are asked about

An extension answers from the occasion on which it is asked. In a run, every occasion shows what the
extension was given when its chain was built, and the bindings of the environment. -/

/-- Two extensions of one name do the same on some occasions. -/
structure AspectExtension.AgreeOn (live : Occasion → Prop) (x y : AspectExtension) : Prop where
  name : x.name = y.name
  augment : ∀ o, live o → x.augment o = y.augment o
  list : ∀ o, live o → x.list o = y.list o

/-- Two aspects do the same, apart from what extensions do on occasions that do not come up: those with
other grants than the aspect has, and those that are not live. -/
inductive Aspect.AgreeOn (live : Occasion → Prop) : Aspect → Aspect → Prop
  | same (a : Aspect) : AgreeOn live a a
  | extension {n : Nat} {x y : AspectExtension} {grants : List Grant}
      (h : x.AgreeOn (fun o => o.grants = grants ∧ live o) y) :
      AgreeOn live (.extension ⟨n, x, grants⟩) (.extension ⟨n, y, grants⟩)

section congr
variable {live : Occasion → Prop} {a b : Aspect} {aspects others : List Aspect} {kind : EntityKind}
  {env : Env}

theorem Aspect.AgreeOn.follows (h : AgreeOn live a b)
    (hlive : ∀ grants j, live ⟨grants, env.bindings, j⟩) : a.Follows never env env b := by
  cases h with
  | same => exact ⟨rfl, fun _ _ _ => .inl rfl, fun _ _ _ _ => rfl⟩
  | @extension _ x y grants hx =>
    exact follows_extension hx.name (fun j => hx.augment _ ⟨rfl, hlive grants j⟩)
      fun j => hx.list _ ⟨rfl, hlive grants j⟩

namespace Service

theorem get_congr (h : List.Forall₂ (Aspect.AgreeOn live) aspects others)
    (hlive : ∀ grants j, live ⟨grants, env.bindings, j⟩) (iri : String) (j : Journal) :
    get iri (.kind ⟨kind, aspects⟩) env j = get iri (.kind ⟨kind, others⟩) env j :=
  get_same (h.imp fun _ _ hab => hab.follows hlive) iri j

theorem list_congr (h : List.Forall₂ (Aspect.AgreeOn live) aspects others)
    (hlive : ∀ grants j, live ⟨grants, env.bindings, j⟩) (request : ListRequest) (j : Journal) :
    list request (.kind ⟨kind, aspects⟩) env j = list request (.kind ⟨kind, others⟩) env j :=
  list_same (h.imp fun _ _ hab => hab.follows hlive) request j

end Service

end congr

end EntityCatalog
