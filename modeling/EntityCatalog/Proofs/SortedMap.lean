import EntityCatalog.Proofs.Traversal
import EntityCatalog.SortedMap
import Mathlib.Data.List.Nodup

/-!
# Sorted maps as sets of pairs

The entries of a sorted map are exactly the pairs that lookups give, and their keys are distinct. The
first bad entry is the bad one with the least key (`firstAt_entries_iff`).
-/

namespace EntityCatalog

universe u

variable {α : Type u}

theorem Assoc.mem_of_get? {k : String} {v : α} {l : List (String × α)} (h : get? k l = some v) :
    (k, v) ∈ l := by
  induction l with
  | nil => cases h
  | cons p rest ih =>
    obtain ⟨j, w⟩ := p
    rw [get?] at h
    split at h
    · next hk =>
      cases h
      simp [hk]
    · exact List.mem_cons_of_mem _ (ih h)

theorem Assoc.get?_of_mem {k : String} {v : α} {l : List (String × α)} (hl : Ascending l)
    (h : (k, v) ∈ l) : get? k l = some v := by
  induction l with
  | nil => cases h
  | cons p rest ih =>
    obtain ⟨j, w⟩ := p
    rw [get?]
    rcases List.mem_cons.1 h with h | h
    · cases h
      simp
    · have hlt : j < k := (List.pairwise_cons.1 hl).1 _ h
      have hne : k ≠ j := by
        rintro rfl
        exact String.lt_irrefl k hlt
      simp [hne, ih hl.of_cons h]

theorem Assoc.get?_insertAll {new : List (String × α)} (hnew : Ascending new) (k : String)
    (l : List (String × α)) : get? k (insertAll l new) = (get? k new).or (get? k l) := by
  induction new generalizing l with
  | nil => rfl
  | cons p rest ih =>
    obtain ⟨j, w⟩ := p
    have hrest : get? j rest = none := get?_eq_none_of_lt (List.pairwise_cons.1 hnew).1
    have hstep : get? k (insertAll l ((j, w) :: rest)) = _ := ih hnew.of_cons (insert j w l)
    rw [hstep, get?]
    by_cases h : k = j
    · subst h
      rw [hrest, get?_insert_self, if_pos rfl]
      rfl
    · rw [get?_insert_ne h, if_neg h]

theorem Assoc.mem_of_mem_insertAll {new l : List (String × α)} {p : String × α}
    (h : p ∈ insertAll l new) : p ∈ new ∨ p ∈ l := by
  induction new generalizing l with
  | nil => exact .inr h
  | cons q rest ih =>
    have hq : p ∈ insertAll (insert q.1 q.2 l) rest := h
    rcases ih hq with hp | hp
    · exact .inl (List.mem_cons_of_mem _ hp)
    · rcases mem_insert hp with rfl | hp
      · exact .inl List.mem_cons_self
      · exact .inr hp

namespace SortedMap

theorem ofList_entries (m : SortedMap α) : ofList m.entries = m := by
  apply ext_get?
  intro k
  have hget : (ofList m.entries).get? k = (m.get? k).or ((empty : SortedMap α).get? k) :=
    Assoc.get?_insertAll m.ascending k []
  rw [hget, get?_empty, Option.or_none]

theorem get?_override (m n : SortedMap α) (k : String) :
    (m.override n).get? k = (n.get? k).or (m.get? k) :=
  Assoc.get?_insertAll n.ascending k m.entries

theorem override_self (m : SortedMap α) : m.override m = m :=
  ext_get? fun k => by rw [get?_override, Option.or_self]

theorem override_override (m n : SortedMap α) : (m.override n).override n = m.override n :=
  ext_get? fun k => by rw [get?_override, get?_override, ← Option.or_assoc, Option.or_self]

theorem empty_override (m : SortedMap α) : (∅ : SortedMap α).override m = m := ofList_entries m

theorem mem_of_get?_ofList {l : List (String × α)} {k : String} {v : α}
    (h : (ofList l).get? k = some v) : (k, v) ∈ l := by
  have hmem : (k, v) ∈ (ofList l).entries := Assoc.mem_of_get? h
  rcases Assoc.mem_of_mem_insertAll hmem with hmem | hmem
  · exact hmem
  · cases hmem

theorem isEmpty_eq_true_iff {m : SortedMap α} : m.isEmpty = true ↔ m = ∅ := by
  constructor
  · intro h
    have hentries : m.entries = [] := List.isEmpty_iff.1 h
    obtain ⟨l, hl⟩ := m
    cases hentries
    rfl
  · rintro rfl
    rfl

theorem mem_entries_iff (m : SortedMap α) {k : String} {v : α} :
    (k, v) ∈ m.entries ↔ m.get? k = some v :=
  ⟨Assoc.get?_of_mem m.ascending, Assoc.mem_of_get?⟩

theorem mem_values_iff (m : SortedMap α) {v : α} : v ∈ m.values ↔ ∃ k, m.get? k = some v := by
  simp [values, ← mem_entries_iff]

theorem contains_eq_true_iff (m : SortedMap α) {k : String} :
    m.contains k = true ↔ ∃ v, m.get? k = some v := Option.isSome_iff_exists

theorem contains_eq_false_iff (m : SortedMap α) {k : String} :
    m.contains k = false ↔ m.get? k = none := Option.isSome_eq_false_iff.trans Option.isNone_iff_eq_none

theorem keys_ascending (m : SortedMap α) : m.keys.Pairwise (· < ·) := List.pairwise_map.2 m.ascending

theorem keys_nodup (m : SortedMap α) : m.keys.Nodup := by
  refine m.keys_ascending.imp fun {a b} hab => ?_
  rintro rfl
  exact String.lt_irrefl a hab

theorem mem_keys_iff (m : SortedMap α) {k : String} : k ∈ m.keys ↔ ∃ v, m.get? k = some v := by
  simp [keys, ← mem_entries_iff]

theorem keys_eq_of_mem {m m' : SortedMap α} (h : ∀ k, k ∈ m.keys ↔ k ∈ m'.keys) : m.keys = m'.keys := by
  have hperm : m.keys.Perm m'.keys := (List.perm_ext_iff_of_nodup m.keys_nodup m'.keys_nodup).2 h
  refine hperm.eq_of_pairwise (fun a b _ _ hab hba => ?_) m.keys_ascending m'.keys_ascending
  exact absurd hba (Assoc.not_lt_of_lt hab)

theorem firstAt_entries_iff {β : Type} (m : SortedMap β) {good bad : String × β → Prop} :
    FirstAt good (fun _ => bad) 0 m.entries ↔ ∃ k v, m.get? k = some v ∧ bad (k, v) ∧
      ∀ j < k, ∀ w, m.get? j = some w → good (j, w) := by
  have hsorted := m.ascending
  simp only [← mem_entries_iff]
  constructor
  · rintro ⟨before, ⟨k, v⟩, after, h, hgood, hbad⟩
    rw [h] at hsorted ⊢
    refine ⟨k, v, by simp, hbad, fun j hj w hw => ?_⟩
    obtain ⟨-, htail, -⟩ := List.pairwise_append.1 hsorted
    rcases List.mem_append.1 hw with hw | hw
    · exact hgood _ hw
    · -- what is not in front of the entry has no smaller key
      rcases List.mem_cons.1 hw with hw | hw
      · cases hw
        exact absurd hj (String.lt_irrefl k)
      · exact absurd hj (Assoc.not_lt_of_lt ((List.pairwise_cons.1 htail).1 _ hw))
  · rintro ⟨k, v, hkv, hbad, hfirst⟩
    obtain ⟨before, after, h⟩ := List.append_of_mem hkv
    rw [h] at hsorted hfirst ⊢
    refine ⟨before, (k, v), after, rfl, fun p hp => ?_, hbad⟩
    have hlt : p.1 < k := (List.pairwise_append.1 hsorted).2.2 p hp (k, v) (by simp)
    exact hfirst p.1 hlt p.2 (by simp [hp])

end SortedMap

end EntityCatalog
