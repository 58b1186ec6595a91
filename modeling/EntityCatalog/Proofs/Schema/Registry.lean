import EntityCatalog.Proofs.SortedMap
import EntityCatalog.Schema.Registry

/-!
# Lookups in a registry

A registry that was added to, or merged, looks a name up in its parts, one after another, and the
first that has the name answers.
-/

namespace EntityCatalog

/-- In two lists with the same members, the first of a name is the same if all of a name are, or if something
in front of both has the name. -/
theorem find?_same_members {own ds ds' : List Descriptor} (hmem : ∀ d, d ∈ ds ↔ d ∈ ds')
    (hagree : ∀ d ∈ ds, ∀ d' ∈ ds, d.fullName = d'.fullName →
      d = d' ∨ ∃ b ∈ own, b.fullName = d.fullName) (name : String) :
    (own ++ ds).find? (·.fullName == name) = (own ++ ds').find? (·.fullName == name) := by
  rw [List.find?_append, List.find?_append]
  cases hown : own.find? (·.fullName == name) with
  | some b => rw [Option.some_or, Option.some_or]
  | none =>
    rw [Option.none_or, Option.none_or]
    cases hfound : ds.find? (·.fullName == name) with
    | none =>
      rw [eq_comm, List.find?_eq_none]
      exact fun d hd => List.find?_eq_none.1 hfound d ((hmem d).2 hd)
    | some d =>
      have hd := List.mem_of_find?_eq_some hfound
      have hname := List.find?_some hfound
      cases hfound' : ds'.find? (·.fullName == name) with
      | none => exact absurd hname (List.find?_eq_none.1 hfound' d ((hmem d).1 hd))
      | some d' =>
        have hd' := (hmem d').2 (List.mem_of_find?_eq_some hfound')
        have hname' := List.find?_some hfound'
        rw [beq_iff_eq] at hname hname'
        rcases hagree d hd d' hd' (hname.trans hname'.symm) with rfl | ⟨b, hb, hbname⟩
        · rfl
        · refine absurd ?_ (List.find?_eq_none.1 hown b hb)
          rw [beq_iff_eq, hbname, hname]

namespace TypeRegistry

variable (r s : TypeRegistry) (name : String)

theorem find?_empty : empty.find? name = none := rfl

theorem find?_add (ds : List Descriptor) :
    (r.add ds).find? name = (r.find? name).or (ds.find? (·.fullName == name)) := by
  induction ds generalizing r with
  | nil => exact (Option.or_none).symm
  | cons d ds ih =>
    rw [add, List.foldl_cons, ← add, ih, find?_insert, Option.or_assoc, List.find?_cons]
    by_cases h : name = d.fullName
    · simp [h]
    · have hne : (d.fullName == name) = false := beq_eq_false_iff_ne.2 (Ne.symm h)
      simp [h, hne]

theorem find?_ofList (ds : List Descriptor) :
    (ofList ds).find? name = ds.find? (·.fullName == name) := by
  rw [ofList, find?_add, find?_empty, Option.none_or]

theorem mem_descriptors_iff {d : Descriptor} : d ∈ s.descriptors ↔ s.find? d.fullName = some d := by
  rw [descriptors, SortedMap.mem_values_iff]
  constructor
  · rintro ⟨j, hj⟩
    rwa [find?, s.named j d hj]
  · intro h
    exact ⟨_, h⟩

theorem find?_descriptors : s.descriptors.find? (·.fullName == name) = s.find? name := by
  cases h : s.descriptors.find? (·.fullName == name) with
  | none =>
    rw [List.find?_eq_none] at h
    refine (Option.eq_none_iff_forall_ne_some.2 fun d hd => ?_).symm
    have hname : d.fullName = name := s.named name d hd
    exact h d ((s.mem_descriptors_iff).2 (by rwa [hname])) (by simp [hname])
  | some d =>
    have hname : d.fullName = name := by simpa using List.find?_some h
    have hd := (s.mem_descriptors_iff).1 (List.mem_of_find?_eq_some h)
    rw [← hname, hd]

theorem find?_merge : (r.merge s).find? name = (r.find? name).or (s.find? name) := by
  rw [merge, find?_add, find?_descriptors]

end TypeRegistry

end EntityCatalog
