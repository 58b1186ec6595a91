import EntityCatalog.Proofs.Aspect.Discovery
import EntityCatalog.Proofs.Chain.Simulation

/-!
# What aspects see

The aspects of the library look at the world and at nothing else (`Aspect.worldOnly_list`), and stores at
nothing but files (`Store.filesOnly_list`). What a handle is bound to is seen by extensions alone, and by a
sealed one only through a handle that it was given. Hence an aspect that was given no handle does the same
in all environments with one world (`Aspect.follows_of_world`).
-/

namespace EntityCatalog

open Run (WorldOnly FilesOnly worldOnly_pure worldOnly_now filesOnly_pure filesOnly_note filesOnly_probe
  filesOnly_enter)

/-! ## Stores -/

namespace Store

variable (s : Store) (kind : EntityKind)

theorem filesOnly_augment (e : Entity) : FilesOnly (s.augment e) := by
  intro env env' j hfiles
  rw [augment_eq, augment_eq, hfiles]

theorem filesOnly_visit (stops : List Stop) (found : List EntityId) : FilesOnly (s.visit kind stops found) := by
  induction stops generalizing found with
  | nil => exact filesOnly_pure _
  | cons stop rest ih =>
    rw [visit]
    refine (filesOnly_note _).bind fun _ => ?_
    cases stop.path.fault? with
    | some fault => exact filesOnly_pure _
    | none => exact ih _

theorem filesOnly_walk : FilesOnly (s.walk kind) := by
  rw [walk_eq_visit]
  refine (filesOnly_enter _).bind fun directory => ?_
  cases directory with
  | error fault => cases fault <;> exact filesOnly_pure _
  | ok node =>
    cases node with
    | directory entries => exact s.filesOnly_visit kind _ _
    | file _ | other _ => exact filesOnly_pure _

theorem filesOnly_single : FilesOnly (s.single kind) := by
  rw [single]
  cases s.pathFor ⟨kind.id, []⟩ with
  | error e => exact filesOnly_pure _
  | ok path =>
    refine (filesOnly_probe path).bind fun present => ?_
    obtain fault | _ | _ := present <;> exact filesOnly_pure _

theorem filesOnly_list (before : List Entity) : FilesOnly (s.list kind before) := by
  rw [list_eq]
  refine FilesOnly.bind ?_ fun ids => ?_
  · by_cases h : kind.paths = []
    · rw [search_of_no_paths h]
      exact s.filesOnly_single kind
    · rw [search_of_paths h]
      exact s.filesOnly_walk kind
  · cases ids <;> exact filesOnly_pure _

end Store

/-! ## Remotes -/

namespace Remote

variable (r : Remote)

theorem worldOnly_post (route : String) (body : Json.Value) : WorldOnly (r.post route body) := by
  rw [post]
  refine (Run.worldOnly_post _).bind fun reply? => ?_
  cases reply? with
  | none => exact worldOnly_pure _
  | some reply =>
    dsimp only
    split
    · exact worldOnly_pure _
    · split <;> exact worldOnly_pure _

theorem worldOnly_augment (e : Entity) : WorldOnly (r.augment e) := by
  rw [augment]
  refine (r.worldOnly_post _ _).bind fun body? => ?_
  match body? with
  | .error failure => exact worldOnly_pure _
  | .ok none => exact worldOnly_pure _
  | .ok (some body) => exact worldOnly_pure _

theorem worldOnly_list (request : ListRequest) (kind : EntityKind) (before : List Entity) :
    WorldOnly (r.list request kind before) := by
  rw [list]
  refine (r.worldOnly_post _ _).bind fun body? => ?_
  match body? with
  | .error failure => exact worldOnly_pure _
  | .ok none => exact worldOnly_pure _
  | .ok (some body) => exact worldOnly_pure _

end Remote

/-! ## Extensions -/

/-- An extension finds the same on two occasions: it was given the same, the same has happened, and the
handles that it was given lead to the same. -/
structure Occasion.LooksLike (o o' : Occasion) : Prop where
  grants : o.grants = o'.grants
  journal : o.journal = o'.journal
  bound : ∀ handle known, .provider handle known ∈ o.grants →
    o.bindings.types? handle = o'.bindings.types? handle

/-- An extension is a function of what it is asked and of what it finds. -/
structure AspectExtension.Sealed (x : AspectExtension) : Prop where
  augment : ∀ o o' : Occasion, o.LooksLike o' → x.augment o = x.augment o'
  list : ∀ o o' : Occasion, o.LooksLike o' → x.list o = x.list o'

/-! ## Aspects -/

namespace Aspect

/-- An aspect of the library. -/
def BuiltIn (a : Aspect) : Prop := ∀ o, a ≠ .extension o

theorem worldOnly_stamp (e : Entity) : WorldOnly (stamp e) := by
  rw [stamp]
  cases e.ts with
  | some t => exact worldOnly_pure _
  | none => exact worldOnly_now.bind fun _ => worldOnly_pure _

theorem worldOnly_augment {a : Aspect} (h : a.BuiltIn) (kind : EntityKind) (e : Entity) :
    WorldOnly (a.augment kind e) := by
  cases a with
  | store s => exact (s.filesOnly_augment e).worldOnly
  | remote r => exact r.worldOnly_augment e
  | timestamp => exact (worldOnly_stamp e).bind fun _ => worldOnly_pure _
  | extension o => exact absurd rfl (h o)
  | _ => exact worldOnly_pure _

theorem worldOnly_list {a : Aspect} (h : a.BuiltIn) (request : ListRequest) (kind : EntityKind)
    (before : List Entity) : WorldOnly (a.list request kind before) := by
  cases a with
  | store s => exact (s.filesOnly_list kind before).worldOnly
  | remote r => exact r.worldOnly_list request kind before
  | extension o => exact absurd rfl (h o)
  | _ => exact worldOnly_pure _

/-- An aspect cannot look at any handle: it is one of the library, or it was given none. -/
inductive Secluded : Aspect → Prop
  | builtIn {a : Aspect} (h : a.BuiltIn) : Secluded a
  | extension {o : AspectObject} (h : o.extension.Sealed)
      (hgrants : ∀ handle known, .provider handle known ∉ o.grants) : Secluded (.extension o)

/-- Two aspects are the same, but for the numbers of objects. -/
inductive Renumbered : Aspect → Aspect → Prop
  | same (a : Aspect) : Renumbered a a
  | extension {n n' : Nat} {x : AspectExtension} {grants : List Grant} :
      Renumbered (.extension ⟨n, x, grants⟩) (.extension ⟨n', x, grants⟩)

theorem follows_of_world {a b : Aspect} (h : a.Secluded) (hab : a.Renumbered b) {env env' : Env}
    (hworld : env.world = env'.world) : a.Follows never env env' b := by
  cases h with
  | builtIn h =>
    cases hab with
    | same => exact ⟨rfl, fun kind e j => .inl (worldOnly_augment h kind e env env' j hworld),
        fun request kind before j => worldOnly_list h request kind before env env' j hworld⟩
    | extension => exact absurd rfl (h _)
  | @extension o h hgrants =>
    have hsame (j : Journal) : Occasion.LooksLike ⟨o.grants, env.bindings, j⟩ ⟨o.grants, env'.bindings, j⟩ :=
      ⟨rfl, rfl, fun handle known hgrant => absurd hgrant (hgrants handle known)⟩
    have haugment (j : Journal) := h.augment _ _ (hsame j)
    have hlist (j : Journal) := h.list _ _ (hsame j)
    cases hab with
    | same => exact follows_extension rfl haugment hlist
    | extension => exact follows_extension rfl haugment hlist

end Aspect

end EntityCatalog
