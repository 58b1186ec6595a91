import EntityCatalog.Text
import Mathlib.Data.List.Basic

/-!
# Cutting undoes joining

A text is cut at its last separator into the only two parts that give it back and of which the
second is free of separators (`splitLast_eq_some_iff`). Cut at every separator, it falls into the only
parts that give it back and are all free of separators (`splitAll_eq_iff`).
-/

namespace EntityCatalog.Text

variable {sep : Char} {cs before after head : List Char} {rest : List (List Char)}

/-! ## At the last separator -/

theorem splitLast_eq_none_iff : splitLast sep cs = none ↔ sep ∉ cs := by
  induction cs with
  | nil => simp [splitLast]
  | cons c cs ih =>
    rw [splitLast, List.mem_cons, not_or, ← ih]
    cases splitLast sep cs with
    | some p => simp
    | none => simp [eq_comm]

theorem splitLast_append (before : List Char) (hafter : sep ∉ after) :
    splitLast sep (before ++ sep :: after) = some (before, after) := by
  induction before with
  | nil => simp [splitLast, splitLast_eq_none_iff.2 hafter]
  | cons c before ih => rw [List.cons_append, splitLast, ih]

theorem join_of_splitLast (h : splitLast sep cs = some (before, after)) :
    before ++ sep :: after = cs ∧ sep ∉ after := by
  induction cs generalizing before with
  | nil => cases h
  | cons c cs ih =>
    rw [splitLast] at h
    cases hcs : splitLast sep cs with
    | none =>
      rw [hcs] at h
      by_cases hc : c = sep
      · rw [if_pos hc] at h
        cases h
        exact ⟨by rw [hc, List.nil_append], splitLast_eq_none_iff.1 hcs⟩
      · simp [hc] at h
    | some p =>
      rw [hcs] at h
      cases h
      obtain ⟨hjoin, hafter⟩ := ih hcs
      exact ⟨by rw [List.cons_append, hjoin], hafter⟩

theorem splitLast_eq_some_iff :
    splitLast sep cs = some (before, after) ↔ before ++ sep :: after = cs ∧ sep ∉ after :=
  ⟨join_of_splitLast, fun ⟨hjoin, hafter⟩ => hjoin ▸ splitLast_append before hafter⟩

/-! ## At every separator -/

theorem splitAll_fst (sep : Char) (cs : List Char) :
    (splitAll sep cs).1 = cs.takeWhile (· ≠ sep) := by
  induction cs with
  | nil => rfl
  | cons c cs ih => by_cases h : c = sep <;> simp [splitAll, h, ih]

/-- What comes behind a separator does not matter to the first part. -/
theorem splitAll_around (sep : Char) (before after : List Char) :
    splitAll sep (before ++ sep :: after) = ((splitAll sep before).1,
      (splitAll sep before).2 ++ (splitAll sep after).1 :: (splitAll sep after).2) := by
  induction before with
  | nil => simp [splitAll]
  | cons c before ih => by_cases h : c = sep <;> simp [splitAll, h, ih]

theorem join_splitAll (sep : Char) (cs : List Char) :
    (splitAll sep cs).1 ++ (splitAll sep cs).2.flatMap (sep :: ·) = cs := by
  induction cs with
  | nil => rfl
  | cons c cs ih =>
    rw [splitAll]
    by_cases h : c = sep
    · simpa [h] using ih
    · simpa [h] using ih

theorem not_mem_of_mem_splitAll {p : List Char}
    (hp : p ∈ (splitAll sep cs).1 :: (splitAll sep cs).2) : sep ∉ p := by
  induction cs generalizing p with
  | nil =>
    have hp : p = [] := by simpa [splitAll] using hp
    simp [hp]
  | cons c cs ih =>
    rw [splitAll] at hp
    by_cases h : c = sep
    · rw [if_pos h] at hp
      rcases List.mem_cons.1 hp with rfl | hp
      · simp
      · exact ih hp
    · rw [if_neg h] at hp
      rcases List.mem_cons.1 hp with rfl | hp
      · simp only [List.mem_cons, not_or]
        exact ⟨Ne.symm h, ih (by simp)⟩
      · exact ih (by simp [hp])

theorem splitAll_append (hhead : sep ∉ head) (cs : List Char) :
    splitAll sep (head ++ sep :: cs) = (head, (splitAll sep cs).1 :: (splitAll sep cs).2) := by
  induction head with
  | nil => simp [splitAll]
  | cons c head ih =>
    rw [List.mem_cons, not_or] at hhead
    rw [List.cons_append, splitAll, ih hhead.2, if_neg (Ne.symm hhead.1)]

theorem splitAll_of_not_mem (h : sep ∉ cs) : splitAll sep cs = (cs, []) := by
  induction cs with
  | nil => rfl
  | cons c cs ih =>
    rw [List.mem_cons, not_or] at h
    rw [splitAll, ih h.2, if_neg (Ne.symm h.1)]

theorem splitAll_join (hhead : sep ∉ head) (hrest : ∀ p ∈ rest, sep ∉ p) :
    splitAll sep (head ++ rest.flatMap (sep :: ·)) = (head, rest) := by
  induction rest generalizing head with
  | nil => simpa using splitAll_of_not_mem hhead
  | cons p rest ih =>
    have hp : sep ∉ p := hrest p List.mem_cons_self
    rw [List.flatMap_cons, List.cons_append, splitAll_append hhead,
      ih hp fun q hq => hrest q (List.mem_cons_of_mem p hq)]

theorem splitAll_eq_iff : splitAll sep cs = (head, rest) ↔
    head ++ rest.flatMap (sep :: ·) = cs ∧ ∀ p ∈ head :: rest, sep ∉ p := by
  constructor
  · intro h
    have hjoin := join_splitAll sep cs
    have hfree : ∀ p ∈ (splitAll sep cs).1 :: (splitAll sep cs).2, sep ∉ p := fun p hp =>
      not_mem_of_mem_splitAll hp
    rw [h] at hjoin hfree
    exact ⟨hjoin, hfree⟩
  · rintro ⟨rfl, hfree⟩
    exact splitAll_join (hfree head List.mem_cons_self) fun p hp =>
      hfree p (List.mem_cons_of_mem head hp)

theorem splitAll_join_toList {head : String} {rest : List String} (hhead : sep ∉ head.toList)
    (hrest : ∀ p ∈ rest, sep ∉ p.toList) :
    splitAll sep (head.toList ++ (rest.map String.toList).flatMap (sep :: ·)) =
      (head.toList, rest.map String.toList) :=
  splitAll_join hhead (List.forall_mem_map.2 hrest)

end EntityCatalog.Text
