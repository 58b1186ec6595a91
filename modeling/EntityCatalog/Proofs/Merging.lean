import EntityCatalog.Proofs.Document.Payload
import EntityCatalog.Proofs.SortedMap

/-!
# Entities merged one after another

Merging many reports into an entity leaves, in every part, what the last of them says that says something
about it (`Entity.lastWins_foldl`). For the timestamp, each link and each relation this is meant literally.
Free data is not so simple: null says nothing, an object says something about each of its members, and any
other value says everything at once, so that what came before it is gone (`Value.Settled`). One more report
keeps this up (`Entity.LastWins.merge`), and there is only one such entity (`Entity.LastWins.unique`).
-/

namespace EntityCatalog

open Json (Value)

theorem getLast?_filterMap_concat {α β : Type} (f : α → Option β) (l : List α) (a : α) :
    ((l ++ [a]).filterMap f).getLast? = (f a).or (l.filterMap f).getLast? := by
  rw [List.filterMap_append, List.getLast?_append, List.filterMap_cons, List.filterMap_nil]
  cases f a <;> rfl

/-! ## Free data -/

namespace Json.Value

/-- A value that is taken or left as a whole: neither null nor an object. -/
def Whole (v : Value) : Prop := v ≠ .null ∧ ∀ members, v ≠ .object members

def members? : Value → Option (List (String × Value))
  | object members => some members
  | _ => none

/-- What objects make of a value that is not one itself: without any it stays, else there is an object in
its place, and each member is that of the last of them that has it. -/
inductive Over (base : Value) (objects : List (List (String × Value))) : Value → Prop
  | stays (hnone : objects = []) : Over base objects base
  | object {members : List (String × Value)} (hsome : objects ≠ []) (hascending : Assoc.Ascending members)
      (hlast : ∀ name, Assoc.get? name members = (objects.filterMap (Assoc.get? name)).getLast?) :
      Over base objects (.object members)

/-- What payloads come to that follow one another: the objects behind the last whole value, over that value,
or over null if there is none. -/
inductive Settled : List Value → Value → Prop
  | parts {payloads : List Value} {out : Value} (hpart : ∀ v ∈ payloads, ¬ v.Whole)
      (hover : Over .null (payloads.filterMap members?) out) : Settled payloads out
  | whole {before after : List Value} {v out : Value} (hwhole : v.Whole) (hpart : ∀ w ∈ after, ¬ w.Whole)
      (hover : Over v (after.filterMap members?) out) : Settled (before ++ v :: after) out

variable {base out out' v : Value} {objects : List (List (String × Value))} {payloads : List Value}

theorem not_whole_iff : ¬ v.Whole ↔ v = .null ∨ ∃ members, v = .object members := by
  cases v <;> simp [Whole]

theorem ne_object_null (members : List (String × Value)) : null ≠ object members := by simp

theorem Over.push (h : Over base objects out) (hbase : ∀ members, base ≠ .object members)
    {theirs : List (String × Value)} (htheirs : Assoc.Ascending theirs) :
    Over base (objects ++ [theirs]) (Entity.mergeData out (.object theirs)) := by
  have hsome : objects ++ [theirs] ≠ [] := by simp
  cases h with
  | stays hnone =>
    have hreplaced : Entity.mergeData base (.object theirs) = .object theirs := by
      cases base with
      | object members => exact absurd rfl (hbase members)
      | _ => rfl
    rw [hreplaced, hnone]
    refine .object (by simp) htheirs fun name => ?_
    rw [getLast?_filterMap_concat]
    exact (Option.or_none).symm
  | object _ hascending hlast =>
    refine .object hsome (Assoc.ascending_insertAll theirs hascending) fun name => ?_
    rw [getLast?_filterMap_concat, Assoc.get?_insertAll htheirs, hlast]

theorem Settled.merge (h : Settled payloads out) (hv : v.Ordered) :
    Settled (payloads ++ [v]) (Entity.mergeData out v) := by
  have hpart_concat {l : List Value} {w : Value} (hl : ∀ x ∈ l, ¬ x.Whole) (hw : ¬ w.Whole) :
      ∀ x ∈ l ++ [w], ¬ x.Whole := by
    rw [List.forall_mem_append, List.forall_mem_singleton]
    exact ⟨hl, hw⟩
  by_cases hwhole : v.Whole
  · have htaken : Entity.mergeData out v = v := by
      cases v with
      | null => exact absurd rfl hwhole.1
      | object members => exact absurd rfl (hwhole.2 members)
      | _ => rfl
    rw [htaken]
    exact .whole hwhole (by simp) (.stays rfl)
  · have hover {base : Value} {l : List Value} (hbase : ∀ members, base ≠ .object members)
        (hl : Over base (l.filterMap members?) out) :
        Over base ((l ++ [v]).filterMap members?) (Entity.mergeData out v) := by
      rw [List.filterMap_append]
      rcases not_whole_iff.1 hwhole with rfl | ⟨theirs, rfl⟩
      · have hnone : [Value.null].filterMap members? = [] := rfl
        rwa [hnone, List.append_nil]
      · exact hl.push hbase hv
    cases h with
    | parts hpart hl => exact .parts (hpart_concat hpart hwhole) (hover ne_object_null hl)
    | whole hw hpart hl =>
      rw [List.append_assoc]
      exact .whole hw (hpart_concat hpart hwhole) (hover hw.2 hl)

theorem Over.unique (h : Over base objects out) (h' : Over base objects out') : out = out' := by
  cases h with
  | stays hnone =>
    cases h' with
    | stays => rfl
    | object hsome => exact absurd hnone hsome
  | object hsome hascending hlast =>
    cases h' with
    | stays hnone => exact absurd hnone hsome
    | object _ hascending' hlast' =>
      refine congrArg Value.object (Assoc.eq_of_get?_eq hascending hascending' fun name => ?_)
      rw [hlast, hlast']

theorem whole_split {before before' after after' : List Value} {v v' : Value} (hv : v.Whole) (hv' : v'.Whole)
    (hafter : ∀ w ∈ after, ¬ w.Whole) (hafter' : ∀ w ∈ after', ¬ w.Whole)
    (h : before ++ v :: after = before' ++ v' :: after') : v = v' ∧ after = after' := by
  rcases List.append_eq_append_iff.1 h with ⟨between, -, hsplit⟩ | ⟨between, -, hsplit⟩
  · cases between with
    | nil => exact List.cons.inj hsplit
    | cons w between =>
      obtain ⟨-, rfl⟩ := List.cons.inj hsplit
      exact absurd hv' (hafter v' (by simp))
  · cases between with
    | nil => exact (List.cons.inj hsplit).imp Eq.symm Eq.symm
    | cons w between =>
      obtain ⟨-, rfl⟩ := List.cons.inj hsplit
      exact absurd hv (hafter' v (by simp))

theorem Settled.unique (h : Settled payloads out) (h' : Settled payloads out') : out = out' := by
  generalize hsame : payloads = payloads' at h'
  cases h with
  | parts hpart hover =>
    cases h' with
    | parts _ hover' => exact hover.unique (hsame ▸ hover')
    | whole hwhole => exact absurd hwhole (hpart _ (by simp [hsame]))
  | whole hwhole hafter hover =>
    cases h' with
    | parts hpart => exact absurd hwhole (hpart _ (by simp [← hsame]))
    | whole hwhole' hafter' hover' =>
      obtain ⟨rfl, rfl⟩ := whole_split hwhole hwhole' hafter hafter' hsame
      exact hover.unique hover'

end Json.Value

/-! ## Entities -/

namespace Entity

/-- Each part of an entity is what the last of some entities says that says something about it. -/
structure LastWins (told : List Entity) (out : Entity) : Prop where
  ts : out.ts = (told.filterMap (·.ts)).getLast?
  links : ∀ name, out.links.get? name = (told.filterMap (·.links.get? name)).getLast?
  related : ∀ name, out.related.get? name = (told.filterMap (·.related.get? name)).getLast?
  data : Value.Settled (told.map (·.data)) out.data

variable {told rest : List Entity} {e out out' report : Entity}

theorem lastWins_bare (id : EntityId) : LastWins [] (bare id) :=
  ⟨rfl, fun _ => rfl, fun _ => rfl, .parts (by simp) (.stays rfl)⟩

theorem LastWins.merge (h : LastWins told out) (hreport : report.data.Ordered) :
    LastWins (told ++ [report]) (out.merge report) := by
  constructor
  · rw [getLast?_filterMap_concat, ← h.ts]
    rfl
  · intro name
    rw [getLast?_filterMap_concat, ← h.links]
    exact SortedMap.get?_override _ _ _
  · intro name
    rw [getLast?_filterMap_concat, ← h.related]
    exact SortedMap.get?_override _ _ _
  · rw [List.map_append]
    exact h.data.merge hreport

theorem LastWins.foldl (h : LastWins told out) (hrest : ∀ e ∈ rest, e.data.Ordered) :
    LastWins (told ++ rest) (rest.foldl Entity.merge out) := by
  induction rest generalizing told out with
  | nil => rwa [List.append_nil]
  | cons e rest ih =>
    rw [List.forall_mem_cons] at hrest
    rw [List.foldl_cons, List.append_cons]
    exact ih (h.merge hrest.1) hrest.2

theorem LastWins.unique (h : LastWins told out)
    (h' : LastWins told out') (hid : out.id = out'.id) : out = out' := by
  have hts := h.ts.trans h'.ts.symm
  have hlinks := SortedMap.ext_get? fun name => (h.links name).trans (h'.links name).symm
  have hrelated := SortedMap.ext_get? fun name => (h.related name).trans (h'.related name).symm
  have hdata := h.data.unique h'.data
  cases out
  cases out'
  cases hid
  cases hts
  cases hlinks
  cases hrelated
  cases hdata
  rfl

/-! ## What merging leaves as it is -/

theorem foldl_merge_id (e : Entity) (rest : List Entity) : (rest.foldl merge e).id = e.id := by
  induction rest generalizing e with
  | nil => rfl
  | cons report rest ih => exact ih (e.merge report)

theorem bare_merge (id : EntityId) (e : Entity) : (bare id).merge e = { e with id } := by
  obtain ⟨own, ts, links, related, data⟩ := e
  have hts : ts.or none = ts := Option.or_none
  have hdata : mergeData .null data = data := by
    cases data <;> rfl
  rw [merge]
  dsimp only [bare]
  rw [hts, hdata, SortedMap.empty_override, SortedMap.empty_override]

theorem merge_bare (e : Entity) (id : EntityId) : e.merge (bare id) = e := rfl

theorem mergeData_self {v : Value} (h : v.Ordered) : mergeData v v = v := by
  cases v with
  | object members =>
    refine congrArg Value.object (Assoc.eq_of_get?_eq (Assoc.ascending_insertAll members h) h fun name => ?_)
    rw [Assoc.get?_insertAll h, Option.or_self]
  | _ => rfl

theorem mergeData_again {v w : Value} (hv : v.Ordered) (hw : w.Ordered) :
    mergeData (mergeData v w) w = mergeData v w := by
  cases w with
  | object theirs =>
    cases v with
    | object mine =>
      have hboth := Assoc.ascending_insertAll theirs hv
      refine congrArg Value.object
        (Assoc.eq_of_get?_eq (Assoc.ascending_insertAll theirs hboth) hboth fun name => ?_)
      rw [Assoc.get?_insertAll hw, Assoc.get?_insertAll hw, ← Option.or_assoc, Option.or_self]
    | _ => exact mergeData_self hw
  | _ => cases v <;> rfl

theorem merge_self (h : e.data.Ordered) : e.merge e = e := by
  rw [merge, Option.or_self, SortedMap.override_self, SortedMap.override_self, mergeData_self h]

theorem merge_again (he : e.data.Ordered) (hreport : report.data.Ordered) :
    (e.merge report).merge report = e.merge report := by
  rw [merge, merge]
  dsimp only
  rw [← Option.or_assoc, Option.or_self, SortedMap.override_override, SortedMap.override_override,
    mergeData_again he hreport]

theorem lastWins_foldl (hall : ∀ x ∈ e :: rest, x.data.Ordered) :
    LastWins (e :: rest) (rest.foldl merge e) := by
  rw [List.forall_mem_cons] at hall
  have hfirst : LastWins [e] e := by
    have hmerged := (lastWins_bare e.id).merge hall.1
    rwa [bare_merge] at hmerged
  exact hfirst.foldl hall.2

end Entity

end EntityCatalog
