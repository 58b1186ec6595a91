import EntityCatalog.Proofs.Aspect.Filling
import EntityCatalog.Proofs.SortedMap
import EntityCatalog.Service

/-!
# What a filter asks for

`Satisfies kind filter e` reads a filter as a conjunction of its entries, each about a path segment or
about a member of the data. It is what the services test (`matchesFilter_iff`).
-/

namespace EntityCatalog.Service

open Json (Value)

/-- An entity has the wanted value under a key. A key that names a path segment is about that segment
and about nothing else; null is no value. -/
inductive Has (kind : EntityKind) (e : Entity) (key wanted : String) : Prop
  | segment {i : Nat} (hi : kind.PathAt key i) (hv : e.id.paths[i]? = some wanted)
  | text (hk : key ∉ kind.paths) (hv : e.data.member? key = some (.string wanted))
  | other {v : Value} (hk : key ∉ kind.paths) (hv : e.data.member? key = some v)
      (hs : ∀ s, v ≠ .string s) (hn : v ≠ .null) (ht : v.text = wanted)

def Satisfies (kind : EntityKind) (filter : SortedMap String) (e : Entity) : Prop :=
  ∀ key wanted, filter.get? key = some wanted → Has kind e key wanted

variable {kind : EntityKind} {e : Entity} {key wanted : String}

theorem fits_iff {v? : Option Value} :
    fits wanted v? = true ↔ v? = some (.string wanted) ∨
      ∃ v, v? = some v ∧ (∀ s, v ≠ .string s) ∧ v ≠ .null ∧ v.text = wanted := by
  unfold fits
  split
  · simp
  · simp
  · simp
  · next v hs hn =>
    simp_all

theorem has_iff_of_segment {i : Nat} (hi : kind.PathAt key i) :
    Has kind e key wanted ↔ e.id.paths[i]? = some wanted := by
  constructor
  · rintro (⟨hj, hv⟩ | ⟨hk, -⟩ | ⟨hk, -⟩)
    · rwa [hi.unique hj]
    · exact absurd hi.mem hk
    · exact absurd hi.mem hk
  · exact .segment hi

theorem has_iff_of_not_mem (hk : key ∉ kind.paths) :
    Has kind e key wanted ↔ fits wanted (e.data.member? key) = true := by
  rw [fits_iff]
  constructor
  · rintro (⟨hi, -⟩ | ⟨-, hv⟩ | ⟨-, hv, hs, hn, ht⟩)
    · exact absurd hi.mem hk
    · exact .inl hv
    · exact .inr ⟨_, hv, hs, hn, ht⟩
  · rintro (hv | ⟨v, hv, hs, hn, ht⟩)
    · exact .text hk hv
    · exact .other hk hv hs hn ht

theorem matchesFilter_iff {filter : SortedMap String} :
    matchesFilter kind filter e = true ↔ Satisfies kind filter e := by
  unfold matchesFilter Satisfies
  rw [List.all_eq_true]
  simp only [← SortedMap.mem_entries_iff, Prod.forall]
  refine forall_congr' fun key => forall_congr' fun wanted => imp_congr_right fun _ => ?_
  cases hi : kind.pathIndex? key with
  | none => exact (has_iff_of_not_mem (EntityKind.pathIndex?_eq_none_iff.1 hi)).symm
  | some i =>
    rw [has_iff_of_segment (EntityKind.pathIndex?_eq_some_iff.1 hi)]
    exact beq_iff_eq

end EntityCatalog.Service
