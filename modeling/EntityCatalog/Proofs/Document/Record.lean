import EntityCatalog.Document.JsonText
import EntityCatalog.Document.Yaml.Reader
import EntityCatalog.Proofs.Traversal

/-!
# What is known of a record that was read

A record starts out blank, and each field that is read changes it. A property that all fields keep up
holds in the end if it holds of the blank record (`readRecord_keeps`), and whatever the blank record is
if a field that must be there brings it about (`readRecord_required`).
-/

namespace EntityCatalog.Document

/-! ## Fields -/

section field
variable {ν ρ α : Type} {P : ρ → Prop} {read : ν → Except Fault α} {put : α → ρ → ρ}

/-- What a field does to a record keeps a property up. -/
def Field.Keeps (field : Field ν ρ) (P : ρ → Prop) : Prop :=
  ∀ n r r', field.read n r = .ok r' → P r → P r'

/-- A property holds of every record once a field has been read. -/
def Field.Establishes (field : Field ν ρ) (P : ρ → Prop) : Prop :=
  ∀ n r r', field.read n r = .ok r' → P r'

theorem Field.Establishes.keeps {field : Field ν ρ} (h : field.Establishes P) : field.Keeps P :=
  fun n r r' hread _ => h n r r' hread

theorem Field.keeps_of_put {name : String} {required : Bool} (h : ∀ a r, P r → P (put a r)) :
    (⟨name, required, fun n r => (read n).map fun a => put a r⟩ : Field ν ρ).Keeps P := by
  intro n r r' hread hr
  obtain ⟨a, -, rfl⟩ := exceptMap_eq_ok hread
  exact h a r hr

theorem Field.establishes_of_put {name : String} {required : Bool}
    (h : ∀ n a r, read n = .ok a → P (put a r)) :
    (⟨name, required, fun n r => (read n).map fun a => put a r⟩ : Field ν ρ).Establishes P := by
  intro n r r' hread
  obtain ⟨a, ha, rfl⟩ := exceptMap_eq_ok hread
  exact h n a r ha

end field

/-! ## Records without names -/

section positions
variable {ν ρ : Type} {fields : List (Field ν ρ)} {P : ρ → Prop} {nodes : List ν} {r r' : ρ}

theorem readPositions_keeps (hkeep : ∀ field ∈ fields, field.Keeps P) (hr : P r)
    (h : readPositions fields nodes r = .ok r') : P r' := by
  induction fields generalizing nodes r with
  | nil =>
    cases nodes with
    | nil =>
      cases h
      exact hr
    | cons n rest => cases h
  | cons field fields ih =>
    rw [List.forall_mem_cons] at hkeep
    cases nodes with
    | nil =>
      rw [readPositions] at h
      split at h
      · cases h
      · exact ih hkeep.2 hr h
    | cons n rest =>
      rw [readPositions] at h
      obtain ⟨mid, hread, h⟩ := bind_eq_ok h
      exact ih hkeep.2 (hkeep.1 n r mid hread hr) h

theorem readPositions_required (hkeep : ∀ field ∈ fields, field.Keeps P) {needed : Field ν ρ}
    (hmem : needed ∈ fields) (hrequired : needed.required = true) (hneeded : needed.Establishes P)
    (h : readPositions fields nodes r = .ok r') : P r' := by
  induction fields generalizing nodes r with
  | nil => cases hmem
  | cons field fields ih =>
    rw [List.forall_mem_cons] at hkeep
    cases nodes with
    | nil =>
      rw [readPositions] at h
      split at h
      · cases h
      · next hoptional =>
        rcases List.mem_cons.1 hmem with rfl | hmem
        · exact absurd hrequired hoptional
        · exact ih hkeep.2 hmem h
    | cons n rest =>
      rw [readPositions] at h
      obtain ⟨mid, hread, hrest⟩ := bind_eq_ok h
      rcases List.mem_cons.1 hmem with rfl | hmem
      · exact readPositions_keeps hkeep.2 (hneeded n r mid hread) hrest
      · exact ih hkeep.2 hmem hrest

end positions

/-! ## Records -/

section record
variable {ν ρ : Type} [Source ν] {fields : List (Field ν ρ)} {closed : Bool} {P : ρ → Prop}
  {blank r r' : ρ} {n : ν}

/-- What the names of the fields that were read tell about the record. -/
theorem readEntries_invariant {Q : List String → ρ → Prop}
    (hfield : ∀ name field, fields.find? (·.name == name) = some field →
      ∀ n seen r r', field.read n r = .ok r' → Q seen r → Q (name :: seen) r')
    {entries : List (ν × ν)} {seen seen' : List String} (hQ : Q seen r)
    (h : readEntries fields closed entries seen r = .ok (seen', r')) : Q seen' r' := by
  induction entries generalizing seen r with
  | nil =>
    cases h
    exact hQ
  | cons entry rest ih =>
    obtain ⟨k, v⟩ := entry
    rw [readEntries] at h
    obtain ⟨name, -, h⟩ := bind_eq_ok h
    dsimp only at h
    split at h
    · next field hfound =>
      split at h
      · cases h
      · obtain ⟨mid, hread, h⟩ := bind_eq_ok h
        exact ih (hfield name field hfound v seen r mid hread hQ) h
    · split at h
      · cases h
      · obtain ⟨_, -, h⟩ := bind_eq_ok h
        exact ih hQ h

theorem readRecord_eq_ok (h : readRecord fields closed blank n = .ok r) :
    (∃ nodes, readPositions fields nodes blank = .ok r) ∨
      ∃ entries seen, readEntries fields closed entries [] blank = .ok (seen, r) ∧
        ∀ field ∈ fields, field.required = true → field.name ∈ seen := by
  unfold readRecord at h
  split at h
  · next nodes _ => exact .inl ⟨nodes, h⟩
  · obtain ⟨entries, -, h⟩ := bind_eq_ok h
    obtain ⟨⟨seen, last⟩, hentries, h⟩ := bind_eq_ok h
    dsimp only at h
    split at h
    · cases h
    · next hnone =>
      cases h
      refine .inr ⟨entries, seen, hentries, fun field hfield hrequired => ?_⟩
      simpa [hrequired] using List.find?_eq_none.1 hnone field hfield

theorem readRecord_keeps (hkeep : ∀ field ∈ fields, field.Keeps P) (hblank : P blank)
    (h : readRecord fields closed blank n = .ok r) : P r := by
  rcases readRecord_eq_ok h with ⟨nodes, hnodes⟩ | ⟨entries, seen, hentries, -⟩
  · exact readPositions_keeps hkeep hblank hnodes
  · exact readEntries_invariant (Q := fun _ => P) (fun _ field hfound n _ r r' hread hr =>
      hkeep field (List.mem_of_find?_eq_some hfound) n r r' hread hr) hblank hentries

theorem readRecord_required (hkeep : ∀ field ∈ fields, field.Keeps P) {needed : Field ν ρ}
    (hfind : fields.find? (·.name == needed.name) = some needed) (hrequired : needed.required = true)
    (hneeded : needed.Establishes P) (h : readRecord fields closed blank n = .ok r) : P r := by
  have hmem := List.mem_of_find?_eq_some hfind
  rcases readRecord_eq_ok h with ⟨nodes, hnodes⟩ | ⟨entries, seen, hentries, hseen⟩
  · exact readPositions_required hkeep hmem hrequired hneeded hnodes
  · -- as soon as the name has been met, the property holds
    refine readEntries_invariant (Q := fun seen r => needed.name ∈ seen → P r)
      (fun name field hfound n seen r r' hread hr hmet => ?_)
      (fun hmet => absurd hmet List.not_mem_nil) hentries (hseen needed hmem hrequired)
    rcases List.mem_cons.1 hmet with rfl | hmet
    · rw [hfind] at hfound
      obtain rfl := Option.some.inj hfound
      exact hneeded n r r' hread
    · exact hkeep field (List.mem_of_find?_eq_some hfound) n r r' hread (hr hmet)

end record

/-! ## Lists -/

theorem mem_readList {ν α : Type} [Source ν] {read : ν → Except Fault α} {n : ν} {l : List α}
    (h : readList read n = .ok l) {a : α} (ha : a ∈ l) : ∃ item, read item = .ok a := by
  obtain ⟨items, -, h⟩ := bind_eq_ok h
  obtain ⟨item, -, hitem⟩ := exists_mem_of_mem_mapM h ha
  exact ⟨item, hitem⟩

/-! ## Whole texts -/

theorem Doc.read_of_decode {α : Type} {read : Doc → Except Fault α} {text : String} {a : α}
    (h : Doc.decode read text = .ok a) : ∃ d, read d = .ok a := by
  rw [Doc.decode] at h
  generalize parse text = parsed at h
  obtain ⟨d, complete⟩ := parsed
  obtain ⟨found, hread, h⟩ := bind_eq_ok h
  cases complete with
  | false => cases h
  | true =>
    cases h
    exact ⟨d, hread⟩

theorem Yaml.Tree.read_of_decode {α : Type} {read : Tree → Except Fault α} {text : String} {a : α}
    (h : Tree.decode read text = .ok a) : ∃ t, read t = .ok a := by
  rw [Tree.decode] at h
  generalize parse text = parsed at h
  obtain ⟨t, sound⟩ := parsed
  obtain ⟨found, hread, h⟩ := bind_eq_ok h
  cases sound with
  | false => cases h
  | true =>
    cases h
    exact ⟨t, hread⟩

end EntityCatalog.Document
