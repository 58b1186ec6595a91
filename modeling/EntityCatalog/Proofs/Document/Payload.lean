import EntityCatalog.Aspect.Remote
import EntityCatalog.Aspect.Store
import EntityCatalog.Proofs.Document.Record

/-!
# Free data as it is read

The members of an object stand in ascending order of their names, one member a name (`Value.Ordered`).
Whatever a document says, the data that is read from it is in that form, in JSON and in YAML
(`Doc.ordered_data`, `Yaml.Tree.ordered_data`). Hence so is the data of every entity that is read.
-/

namespace EntityCatalog

open Json (Value)

/-- The members of an object are in ascending order of their names. -/
def Json.Value.Ordered : Value → Prop
  | .object members => Assoc.Ascending members
  | _ => True

instance (v : Value) : Decidable v.Ordered :=
  match v with
  | .object members => inferInstanceAs (Decidable (members.Pairwise fun a b => a.1 < b.1))
  | .null | .bool _ | .number _ | .string _ | .array _ => .isTrue trivial

theorem Json.Value.ordered_ofMembers (members : List (String × Value)) : (ofMembers members).Ordered :=
  Assoc.ascending_insertAll members .nil

namespace Document

/-- All free data that nodes give is in order. -/
def OrderedData (ν : Type) [Source ν] : Prop :=
  ∀ (n : ν) (v : Value), Source.data n = .ok v → v.Ordered

/-! ## JSON -/

theorem Doc.ordered_data : OrderedData Doc := by
  intro d v h
  replace h : d.toValue = .ok v := h
  cases d with
  | number n =>
    cases n with
    | none => cases h
    | some n =>
      cases h
      trivial
  | array items =>
    obtain ⟨values, -, rfl⟩ := map_eq_ok h
    trivial
  | object members =>
    obtain ⟨values, -, rfl⟩ := map_eq_ok h
    exact Value.ordered_ofMembers values
  | cut => cases h
  | null | bool _ | string _ =>
    cases h
    trivial

/-! ## YAML -/

namespace Yaml

theorem ordered_integerValue {s : String} {v : Value} (h : integerValue s = .ok v) : v.Ordered := by
  unfold integerValue at h
  split at h
  · split at h
    · cases h
      trivial
    · split at h <;> cases h
  · cases h

theorem ordered_realValue {s : String} {v : Value} (h : realValue s = some v) : v.Ordered := by
  unfold realValue at h
  split at h <;> cases h <;> trivial

theorem ordered_plainValue {s : String} {v : Value} (h : plainValue s = .ok v) : v.Ordered := by
  unfold plainValue at h
  split at h
  · cases h
    trivial
  · split at h
    · cases h
      trivial
    · split at h
      · next hinteger =>
        cases h
        exact ordered_integerValue hinteger
      · cases h
      · split at h
        · cases h
          trivial
        · cases h
          cases hreal : realValue s with
          | none => trivial
          | some v => exact ordered_realValue hreal

theorem CoreTag.ordered_value {core : CoreTag} {s : String} {v : Value} (h : core.value s = .ok v) :
    v.Ordered := by
  cases core with
  | bool =>
    rw [value] at h
    split at h <;> cases h
    trivial
  | int =>
    rw [value] at h
    split at h <;> cases h
    next hinteger => exact ordered_integerValue hinteger
  | float =>
    rw [value] at h
    split at h <;> cases h
    next hreal => exact ordered_realValue hreal
  | null =>
    rw [value] at h
    split at h <;> cases h
    trivial

theorem ordered_scalarValue {s : String} {tag : Option String} {style : Style} {v : Value}
    (h : scalarValue s tag style = .ok v) : v.Ordered := by
  unfold scalarValue at h
  split at h
  · split at h
    · cases h
    · exact CoreTag.ordered_value h
    · cases h
      trivial
  · split at h
    · split at h
      · next hplain =>
        cases h
        exact ordered_plainValue hplain
      · cases h
    · cases h
      trivial

theorem run_bind_eq_ok {σ ε α β : Type} {x : StateT σ (Except ε) α} {f : α → StateT σ (Except ε) β}
    {s s' : σ} {b : β} (h : (x >>= f).run s = .ok (b, s')) :
    ∃ a mid, x.run s = .ok (a, mid) ∧ (f a).run mid = .ok (b, s') := by
  rw [StateT.run_bind] at h
  obtain ⟨⟨a, mid⟩, hx, h⟩ := bind_eq_ok h
  exact ⟨a, mid, hx, h⟩

theorem ordered_contentOf {marks : List Mark} {part? : Option (Node → StateT Nat (Except Fault) Value)}
    {n : Node} {left left' : Nat} {v : Value}
    (h : (contentOf marks part? n).run left = .ok (v, left')) : v.Ordered := by
  cases n with
  | scalar s tag style =>
    obtain ⟨w, hw, hv⟩ := bind_eq_ok h
    cases hv
    exact ordered_scalarValue hw
  | void =>
    cases h
    trivial
  | sequence tag items =>
    cases part? with
    | none => cases h
    | some part =>
      rw [contentOf] at h
      dsimp only at h
      split at h
      · cases h
      · obtain ⟨values, mid, -, h⟩ := run_bind_eq_ok h
        cases h
        trivial
  | mapping tag entries =>
    cases part? with
    | none => cases h
    | some part =>
      rw [contentOf] at h
      dsimp only at h
      split at h
      · cases h
      · obtain ⟨members, mid, -, h⟩ := run_bind_eq_ok h
        cases h
        exact Value.ordered_ofMembers members
  | _ => cases h

theorem ordered_valueOf {marks : List Mark} {depth : Nat} {n : Node} {left left' : Nat} {v : Value}
    (h : (valueOf marks depth n).run left = .ok (v, left')) : v.Ordered := by
  cases depth with
  | zero =>
    obtain ⟨target, mid, -, h⟩ := run_bind_eq_ok h
    exact ordered_contentOf h
  | succ depth =>
    obtain ⟨target, mid, -, h⟩ := run_bind_eq_ok h
    exact ordered_contentOf h

theorem Tree.ordered_data : OrderedData Tree := by
  intro t v h
  obtain ⟨⟨w, left⟩, hrun, rfl⟩ := exceptMap_eq_ok h
  exact ordered_valueOf hrun

end Yaml

end Document

/-! ## Entities -/

section entities
open Document
variable {ν : Type} [Source ν] {e : Entity}

theorem Entity.bodyFields_keep (hdata : OrderedData ν) :
    ∀ field ∈ bodyFields (ν := ν), field.Keeps (·.data.Ordered) := by
  simp only [bodyFields, List.forall_mem_cons, List.not_mem_nil, false_imp_iff, implies_true, and_true]
  exact ⟨Field.keeps_of_put fun _ _ h => h, Field.keeps_of_put fun _ _ h => h,
    Field.keeps_of_put fun _ _ h => h,
    Field.Establishes.keeps (Field.establishes_of_put fun n data _ hread => hdata n data hread)⟩

theorem Entity.ordered_of_decode (hdata : OrderedData ν) {n : ν} (h : decode n = .ok e) :
    e.data.Ordered := by
  refine readRecord_keeps (P := (·.data.Ordered)) ?_ trivial h
  rw [List.forall_mem_cons]
  exact ⟨Field.keeps_of_put fun _ _ h => h, bodyFields_keep hdata⟩

theorem Entity.ordered_of_decodeStored (hdata : OrderedData ν) {id : EntityId} {n : ν}
    (h : decodeStored id n = .ok e) : e.data.Ordered :=
  readRecord_keeps (P := (·.data.Ordered)) (bodyFields_keep hdata) trivial h

theorem ListResponse.ordered_of_decode (hdata : OrderedData ν) {r : ListResponse} {n : ν}
    (h : decode n = .ok r) : ∀ e ∈ r.entities, e.data.Ordered := by
  refine readRecord_keeps (P := fun r : ListResponse => ∀ e ∈ r.entities, e.data.Ordered) ?_
    (by intro e he; cases he) h
  rw [List.forall_mem_singleton]
  refine Field.Establishes.keeps (Field.establishes_of_put fun n entities _ hread e he => ?_)
  obtain ⟨item, hitem⟩ := mem_readList hread he
  exact Entity.ordered_of_decode hdata hitem

theorem Store.ordered_of_parse {s : Store} {id : EntityId} {path : FilePath} {text : String}
    (h : s.parse id path text = .ok e) : e.data.Ordered := by
  rw [parse] at h
  split at h
  · cases h
    trivial
  · dsimp only at h
    have hreport := mapError_eq_ok h
    split at hreport
    · obtain ⟨t, ht⟩ := Yaml.Tree.read_of_decode hreport
      exact Entity.ordered_of_decodeStored Yaml.Tree.ordered_data ht
    · obtain ⟨d, hd⟩ := Doc.read_of_decode hreport
      exact Entity.ordered_of_decodeStored Doc.ordered_data hd

theorem Remote.ordered_of_reportOn {id : EntityId} {body : String} (h : reportOn id body = .ok e) :
    e.data.Ordered := by
  obtain ⟨report, hreceive, h⟩ := bind_eq_ok h
  split at h
  · cases h
  · cases h
    obtain ⟨d, hd⟩ := Doc.read_of_decode (mapError_eq_ok hreceive)
    exact Entity.ordered_of_decode Doc.ordered_data hd

end entities

end EntityCatalog
