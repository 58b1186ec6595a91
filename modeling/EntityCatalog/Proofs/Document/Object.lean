import EntityCatalog.Entity
import EntityCatalog.Proofs.Document.Record
import EntityCatalog.Proofs.SortedMap

/-!
# Reading objects

A record is read from an object member by member: `Fills` says what the members make of a record, one
after another. A record is read from an object without repeated names exactly if its members fill it
(`readRecord_of_fills`, `fills_of_readRecord`), and what a member has put into the record stays there
(`Fills.component`).

Members that are written only when there is something to write make no difference when they are left
out, as long as the record has the same there already (`Fills.map`). Lists and maps are read back if all
their parts are.
-/

namespace EntityCatalog.Document

open Json (Value)

/-! ## Members -/

theorem Field.read_put {ν ρ α : Type} {name : String} {required : Bool} {read : ν → Except Fault α}
    {put : α → ρ → ρ} {n : ν} {a : α} (h : read n = .ok a) (r : ρ) :
    (⟨name, required, fun n r => (read n).map fun a => put a r⟩ : Field ν ρ).read n r =
      .ok (put a r) := by
  dsimp only
  rw [h]
  rfl

/-- Members are read into a record one after another, each by the field of its name. -/
inductive Fills {ρ : Type} (fields : List (Field Value ρ)) : List (String × Value) → ρ → ρ → Prop
  | none {r : ρ} : Fills fields [] r r
  | next {name : String} {v : Value} {rest : List (String × Value)} {field : Field Value ρ}
      {r mid r' : ρ} (hfield : fields.find? (·.name == name) = some field)
      (hread : field.read v r = .ok mid) (hrest : Fills fields rest mid r') :
      Fills fields ((name, v) :: rest) r r'

/-- The members of an object as the nodes that a reader is given. -/
def nodes (members : List (String × Value)) : List (Value × Value) :=
  members.map fun p => (.string p.1, p.2)

theorem positions?_object (members : List (String × Value)) :
    Source.positions? (Value.object members) = none := rfl

theorem entries_object (members : List (String × Value)) :
    Source.entries (Value.object members) = .ok (nodes members) := rfl

section fills
variable {ρ γ : Type} {fields : List (Field Value ρ)} {members rest : List (String × Value)}
  {name : String} {field : Field Value ρ} {r mid r' : ρ}

theorem Fills.member {v : Value} (hfield : fields.find? (·.name == name) = some field)
    (hread : field.read v r = .ok r') : Fills fields [(name, v)] r r' :=
  .next hfield hread .none

theorem Fills.append (h : Fills fields members r mid) (h' : Fills fields rest mid r') :
    Fills fields (members ++ rest) r r' := by
  induction h with
  | none => exact h'
  | next hfield hread _ ih => exact .next hfield hread (ih h')

theorem Fills.map {α : Type} {write : α → Value} {m : SortedMap α}
    (hfield : fields.find? (·.name == name) = some field)
    (hread : field.read (.ofMap write m) r = .ok r') (hleft : m = ∅ → r' = r) :
    Fills fields (Entity.mapMember name write m) r r' := by
  by_cases hm : m.isEmpty = true
  · rw [Entity.mapMember, if_pos hm, hleft (SortedMap.isEmpty_eq_true_iff.1 hm)]
    exact .none
  · rw [Entity.mapMember, if_neg hm]
    exact .member hfield hread

theorem Fills.exists (h : ∀ p ∈ members, ∃ field, fields.find? (·.name == p.1) = some field ∧
    ∀ r, ∃ r', field.read p.2 r = .ok r') (r : ρ) : ∃ r', Fills fields members r r' := by
  induction members generalizing r with
  | nil => exact ⟨r, .none⟩
  | cons p rest ih =>
    rw [List.forall_mem_cons] at h
    obtain ⟨⟨field, hfield, hread⟩, hrest⟩ := h
    obtain ⟨mid, hmid⟩ := hread r
    obtain ⟨r', hr'⟩ := ih hrest mid
    exact ⟨r', .next hfield hmid hr'⟩

/-- A part of the record that only one field touches is what the member of that name puts there, or what
was there if there is no such member. -/
theorem Fills.component {part : ρ → γ} (hnames : (members.map (·.1)).Nodup)
    (hfield : fields.find? (·.name == name) = some field)
    (hothers : ∀ other ∈ fields, other.name ≠ name → ∀ v r r', other.read v r = .ok r' → part r' = part r)
    (h : Fills fields members r r') :
    (∀ v, Assoc.get? name members = some v → ∃ before after, field.read v before = .ok after ∧
      part r' = part after) ∧
    (Assoc.get? name members = .none → part r' = part r) := by
  induction h with
  | none =>
    constructor
    · intro v hv
      cases hv
    · intro _
      rfl
  | @next j v rest found r mid r' hfound hread hrest ih =>
    rw [List.map_cons, List.nodup_cons] at hnames
    obtain ⟨hfirst, hdistinct⟩ := hnames
    obtain ⟨ihthere, ihabsent⟩ := ih hdistinct
    have hname : found.name = j := by simpa using List.find?_some hfound
    by_cases hj : name = j
    · subst hj
      have habsent : Assoc.get? name rest = .none := by
        rw [Option.eq_none_iff_forall_ne_some]
        intro w hw
        exact hfirst (List.mem_map.2 ⟨(name, w), Assoc.mem_of_get? hw, rfl⟩)
      have hsame : found = field := Option.some.inj (hfound.symm.trans hfield)
      rw [Assoc.get?, if_pos rfl]
      constructor
      · intro w hw
        obtain rfl := Option.some.inj hw
        exact ⟨r, mid, hsame ▸ hread, ihabsent habsent⟩
      · intro hnone
        cases hnone
    · have hkept : part mid = part r :=
        hothers found (List.mem_of_find?_eq_some hfound) (hname ▸ Ne.symm hj) v r mid hread
      rw [Assoc.get?, if_neg hj]
      exact ⟨ihthere, fun habsent => (ihabsent habsent).trans hkept⟩

/-! ## Objects -/

variable {closed : Bool} {blank : ρ} {seen seen' : List String}

theorem readEntries_of_fills (h : Fills fields members r r') (hnames : (members.map (·.1)).Nodup)
    (hnew : ∀ name ∈ members.map (·.1), name ∉ seen) :
    readEntries fields closed (nodes members) seen r =
      .ok ((members.map (·.1)).reverse ++ seen, r') := by
  induction h generalizing seen with
  | none => rfl
  | @next name v rest field r mid r' hfield hread hrest ih =>
    rw [List.map_cons, List.nodup_cons] at hnames
    rw [List.map_cons, List.forall_mem_cons] at hnew
    obtain ⟨hfirst, hdistinct⟩ := hnames
    have hlater : ∀ j ∈ rest.map (·.1), j ∉ name :: seen := by
      intro j hj hmem
      rcases List.mem_cons.1 hmem with rfl | hmem
      · exact hfirst hj
      · exact hnew.2 j hj hmem
    have hstep : readEntries fields closed (nodes ((name, v) :: rest)) seen r =
        readEntries fields closed (nodes rest) (name :: seen) mid := by
      rw [nodes, List.map_cons, readEntries]
      simp only [Source.text, bind, Except.bind, hfield, if_neg hnew.1, hread]
      rfl
    rw [hstep, ih hdistinct hlater, List.map_cons, List.reverse_cons, List.append_assoc]
    rfl

theorem fills_of_readEntries (h : readEntries fields true (nodes members) seen r = .ok (seen', r')) :
    Fills fields members r r' := by
  induction members generalizing seen r with
  | nil =>
    cases h
    exact .none
  | cons p rest ih =>
    obtain ⟨name, v⟩ := p
    rw [nodes, List.map_cons, readEntries] at h
    obtain ⟨found, hfound, h⟩ := bind_eq_ok h
    obtain rfl : name = found := Except.ok.inj hfound
    dsimp only at h
    split at h
    · next field hfield =>
      split at h
      · cases h
      · obtain ⟨mid, hread, h⟩ := bind_eq_ok h
        exact .next hfield hread (ih h)
    · cases h

theorem readRecord_of_fills (h : Fills fields members blank r) (hnames : (members.map (·.1)).Nodup)
    (hrequired : ∀ field ∈ fields, field.required = true → field.name ∈ members.map (·.1)) :
    readRecord fields closed blank (.object members) = .ok r := by
  have hentries : readEntries fields closed (nodes members) [] blank =
      .ok ((members.map (·.1)).reverse ++ [], r) :=
    readEntries_of_fills h hnames (by simp)
  rw [List.append_nil] at hentries
  have hmissing : ∀ field ∈ fields,
      ¬ (field.required && !(members.map (·.1)).reverse.contains field.name) = true := by
    intro field hfield hmissing
    rw [Bool.and_eq_true] at hmissing
    have hmem := hrequired field hfield hmissing.1
    simp [List.mem_reverse, hmem] at hmissing
  rw [readRecord, positions?_object]
  simp only [bind, Except.bind, entries_object, hentries, List.find?_eq_none.2 hmissing]
  rfl

theorem fills_of_readRecord (h : readRecord fields true blank (.object members) = .ok r) :
    Fills fields members blank r := by
  rw [readRecord, positions?_object, entries_object] at h
  obtain ⟨entries, hnodes, h⟩ := bind_eq_ok h
  obtain rfl := Except.ok.inj hnodes
  obtain ⟨⟨seen, last⟩, hentries, h⟩ := bind_eq_ok h
  dsimp only at h
  split at h
  · cases h
  · cases h
    exact fills_of_readEntries hentries

end fills

/-! ## Texts and values that may be left open -/

theorem text_eq_ok_iff {v : Value} {s : String} : Source.text v = .ok s ↔ v = .string s := by
  cases v <;> simp [Source.text]

section open_values
variable {α : Type} {read : Value → Except Fault α} {v : Value}

theorem readOptional_null : readOptional read Value.null = .ok none := rfl

theorem readOptional_of_ne (h : v ≠ .null) : readOptional read v = (read v).map some := by
  have hsome : Source.optional v = .ok (some v) := by
    cases v with
    | null => exact absurd rfl h
    | _ => rfl
  rw [readOptional, hsome]
  cases hread : read v <;> simp [bind, Except.bind, hread, Except.map, pure, Except.pure]

theorem readOptional_eq_ok_iff {a : Option α} : readOptional read v = .ok a ↔
    v = .null ∧ a = none ∨ v ≠ .null ∧ ∃ b, read v = .ok b ∧ a = some b := by
  by_cases hv : v = .null
  · subst hv
    simp [readOptional_null, eq_comm]
  · rw [readOptional_of_ne hv]
    cases hread : read v <;> simp [Except.map, hv, eq_comm]

end open_values

/-! ## Names of members -/

theorem names_optionalMember (name : String) (v : Option Value) :
    ((optionalMember name v).map (·.1)).Sublist [name] := by
  cases v with
  | none => exact List.nil_sublist _
  | some w => exact List.Sublist.refl _

theorem names_mapMember {α : Type} (name : String) (write : α → Value) (m : SortedMap α) :
    ((Entity.mapMember name write m).map (·.1)).Sublist [name] := by
  unfold Entity.mapMember
  split
  · exact List.nil_sublist _
  · exact List.Sublist.refl _

/-! ## Lists and maps -/

section parts
variable {α : Type} {read : Value → Except Fault α} {write : α → Value}

theorem readList_array {l : List α} (h : ∀ a ∈ l, read (write a) = .ok a) :
    readList read (.array (l.map write)) = .ok l := by
  have hitems : readList read (.array (l.map write)) = (l.map write).mapM read := rfl
  rw [hitems, mapM_eq_ok_iff, List.forall₂_map_left_iff, List.forall₂_same]
  exact h

theorem readMap_object {m : SortedMap α} (h : ∀ k a, m.get? k = some a → read (write a) = .ok a) :
    readMap read (.ofMap write m) = .ok m := by
  have hpairs : (nodes (m.entries.map fun p => (p.1, write p.2))).mapM (fun p : Value × Value => do
      let key ← Source.text p.1
      return (key, ← read p.2)) = .ok m.entries := by
    rw [mapM_eq_ok_iff, nodes, List.map_map, List.forall₂_map_left_iff, List.forall₂_same]
    rintro ⟨k, a⟩ hp
    have hread := h k a (m.mem_entries_iff.1 hp)
    simp only [Function.comp_apply, Source.text, bind, Except.bind, hread]
    rfl
  simp only [readMap, Value.ofMap, entries_object, bind, Except.bind, pure, Except.pure] at hpairs ⊢
  rw [hpairs]
  dsimp only
  rw [SortedMap.ofList_entries]

theorem get?_readMap {ν : Type} [Source ν] {read : ν → Except Fault α} {n : ν} {m : SortedMap α}
    (h : readMap read n = .ok m) {k : String} {a : α} (hk : m.get? k = some a) :
    ∃ v, read v = .ok a := by
  obtain ⟨entries, -, h⟩ := bind_eq_ok h
  obtain ⟨pairs, hpairs, rfl⟩ := map_eq_ok h
  obtain ⟨⟨key, v⟩, -, hpair⟩ := exists_mem_of_mem_mapM hpairs (SortedMap.mem_of_get?_ofList hk)
  obtain ⟨name, -, hpair⟩ := bind_eq_ok hpair
  obtain ⟨b, hb, hpair⟩ := map_eq_ok hpair
  cases hpair
  exact ⟨v, hb⟩

end parts

end EntityCatalog.Document
