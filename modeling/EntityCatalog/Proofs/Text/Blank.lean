import EntityCatalog.Text
import Mathlib.Data.List.DropRight
import Mathlib.Data.List.Infix

/-!
# Cutting off the ends

What is left when the characters of one sort are cut off the front of a text, and those of another off its end,
is told by its own ends alone: it is the only part between such characters that neither begins nor ends with
one (`cut_eq_iff`).
-/

namespace EntityCatalog.Text

variable {p q : Char → Bool} {cs kept part : List Char}

theorem occursIn_iff : occursIn part cs = true ↔ part <:+: cs := by
  induction cs with
  | nil => rw [occursIn, List.isEmpty_iff, List.infix_nil]
  | cons c cs ih => rw [occursIn, Bool.or_eq_true, List.isPrefixOf_iff_prefix, ih, List.infix_cons_iff]

theorem dropWhile_eq_iff : cs.dropWhile p = kept ↔
    (∃ before, cs = before ++ kept ∧ ∀ c ∈ before, p c = true) ∧ ∀ c ∈ kept.head?, p c = false := by
  constructor
  · rintro rfl
    refine ⟨⟨cs.takeWhile p, List.takeWhile_append_dropWhile.symm, fun c hc => ?_⟩, fun c hc => ?_⟩
    · exact List.mem_takeWhile_imp hc
    · have hfirst := List.head?_dropWhile_not p cs
      rw [hc] at hfirst
      exact hfirst
  · rintro ⟨⟨before, rfl, hbefore⟩, hkept⟩
    rw [List.dropWhile_append_of_pos hbefore]
    cases kept with
    | nil => rfl
    | cons c kept => exact List.dropWhile_cons_of_neg (by simp [hkept c rfl])

theorem dropEndWhile_eq_iff : dropEndWhile p cs = kept ↔
    (∃ after, cs = kept ++ after ∧ ∀ c ∈ after, p c = true) ∧ ∀ c ∈ kept.getLast?, p c = false := by
  rw [dropEndWhile, List.reverse_eq_iff, dropWhile_eq_iff, List.head?_reverse]
  refine and_congr_left fun _ => ⟨?_, ?_⟩
  · rintro ⟨before, hjoin, hbefore⟩
    refine ⟨before.reverse, ?_, fun c hc => hbefore c (List.mem_reverse.1 hc)⟩
    rw [← List.reverse_reverse cs, hjoin, List.reverse_append, List.reverse_reverse]
  · rintro ⟨after, rfl, hafter⟩
    exact ⟨after.reverse, List.reverse_append, fun c hc => hafter c (List.mem_reverse.1 hc)⟩

/-- What is cut off the front must be so at the end too, where nothing else is left. -/
theorem cut_eq_iff (hpq : ∀ c, p c = true → q c = true) : dropEndWhile q (cs.dropWhile p) = kept ↔
    ∃ before after, cs = before ++ kept ++ after ∧ (∀ c ∈ before, p c = true) ∧ (∀ c ∈ after, q c = true) ∧
      (∀ c ∈ kept.head?, p c = false) ∧ ∀ c ∈ kept.getLast?, q c = false := by
  constructor
  · intro h
    obtain ⟨⟨after, hrest, hafter⟩, hlast⟩ := dropEndWhile_eq_iff.1 h
    obtain ⟨⟨before, hjoin, hbefore⟩, hfirst⟩ := dropWhile_eq_iff.1 hrest
    refine ⟨before, after, by rw [hjoin, List.append_assoc], hbefore, hafter, fun c hc => ?_, hlast⟩
    exact hfirst c (List.mem_head?_append_of_mem_head? hc)
  · rintro ⟨before, after, rfl, hbefore, hafter, hfirst, hlast⟩
    rw [dropEndWhile_eq_iff]
    refine ⟨?_, hlast⟩
    rcases eq_or_ne kept [] with rfl | hkept
    · -- nothing is left in front of the end, where all is cut off
      refine ⟨_, (List.nil_append _).symm, fun c hc => ?_⟩
      have hc := (List.dropWhile_suffix p).subset hc
      rw [List.append_nil] at hc
      exact (List.mem_append.1 hc).elim (fun hc => hpq c (hbefore c hc)) (hafter c)
    · have hcut : (before ++ kept ++ after).dropWhile p = kept ++ after := by
        refine dropWhile_eq_iff.2 ⟨⟨before, List.append_assoc _ _ _, hbefore⟩, ?_⟩
        rwa [List.head?_append_of_ne_nil _ hkept]
      exact ⟨after, hcut, hafter⟩

theorem trim_eq_iff : trim cs = kept ↔
    ∃ before after, cs = before ++ kept ++ after ∧ (∀ c ∈ before, isBlank c = true) ∧
      (∀ c ∈ after, isBlank c = true) ∧ (∀ c ∈ kept.head?, isBlank c = false) ∧
      ∀ c ∈ kept.getLast?, isBlank c = false :=
  cut_eq_iff fun _ => id

end EntityCatalog.Text
