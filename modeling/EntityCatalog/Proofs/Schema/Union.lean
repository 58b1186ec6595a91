import EntityCatalog.Proofs.Schema.Registry
import EntityCatalog.Schema.Registry
import Mathlib.Tactic.Tauto

/-!
# Registries as unions

Under construction, a registry is a table that descriptors are entered into by their own names, also when they
come from another table (`TypeRegistry.Drafted`). Merging is then a union in which the first registry has
precedence. It does not matter how a list of additions is cut into pieces, and two registries may change places
exactly if they agree (`TypeRegistry.left_biased_union`).
-/

namespace EntityCatalog.TypeRegistry

/-! ## Tables -/

/-- Enter a descriptor under its name, unless that is taken, into a table of which nothing else is known. -/
def enter (t : SortedMap Descriptor) (d : Descriptor) : SortedMap Descriptor :=
  if t.contains d.fullName then t else t.insert d.fullName d

/-- The tables that come about by additions and merging. From the other table, only the values are taken. -/
inductive Drafted : SortedMap Descriptor → Prop
  | new : Drafted ∅
  | add {t : SortedMap Descriptor} (ht : Drafted t) (ds : List Descriptor) : Drafted (ds.foldl enter t)
  | merge {t u : SortedMap Descriptor} (ht : Drafted t) (hu : Drafted u) : Drafted (u.values.foldl enter t)

variable (r s t : TypeRegistry)

theorem table_insert (d : Descriptor) : (r.insert d).table = enter r.table d := by
  unfold insert enter
  by_cases h : r.contains d.fullName
  · rw [if_pos h]
    exact (if_pos h).symm
  · rw [if_neg h]
    exact (if_neg h).symm

theorem table_add (ds : List Descriptor) : (r.add ds).table = ds.foldl enter r.table := by
  induction ds generalizing r with
  | nil => rfl
  | cons d ds ih => rw [add, List.foldl_cons, ← add, ih, table_insert, List.foldl_cons]

theorem ofList_descriptors : ofList r.descriptors = r :=
  ext_find? fun name => by rw [find?_ofList, find?_descriptors]

theorem drafted_iff (u : SortedMap Descriptor) : Drafted u ↔ ∃ r : TypeRegistry, r.table = u := by
  constructor
  · intro h
    induction h with
    | new => exact ⟨empty, rfl⟩
    | add _ ds ih =>
      obtain ⟨r, rfl⟩ := ih
      exact ⟨r.add ds, r.table_add ds⟩
    | merge _ _ ih ih' =>
      obtain ⟨r, rfl⟩ := ih
      obtain ⟨s, rfl⟩ := ih'
      exact ⟨r.merge s, r.table_add s.descriptors⟩
  · rintro ⟨r, rfl⟩
    rw [← r.ofList_descriptors, ofList, table_add]
    exact .add .new r.descriptors

theorem Drafted.named {u : SortedMap Descriptor} (h : Drafted u) {name : String} {d : Descriptor}
    (hd : (name, d) ∈ u.entries) : d.fullName = name := by
  obtain ⟨r, rfl⟩ := (drafted_iff u).1 h
  exact r.named name d (r.table.mem_entries_iff.1 hd)

/-! ## Merging -/

theorem merge_assoc : (r.merge s).merge t = r.merge (s.merge t) :=
  ext_find? fun name => by rw [find?_merge, find?_merge, find?_merge, find?_merge, Option.or_assoc]

theorem merge_self : r.merge r = r :=
  ext_find? fun name => by rw [find?_merge, Option.or_self]

theorem empty_merge : empty.merge r = r :=
  ext_find? fun name => by rw [find?_merge, find?_empty, Option.none_or]

theorem merge_empty : r.merge empty = r := rfl

theorem find?_merge_of_some {name : String} {d : Descriptor} (hd : r.find? name = some d) :
    (r.merge s).find? name = some d := by
  rw [find?_merge, hd, Option.some_or]

theorem find?_merge_of_none {name : String} (hd : r.find? name = none) :
    (r.merge s).find? name = s.find? name := by
  rw [find?_merge, hd, Option.none_or]

theorem merge_comm_iff : r.merge s = s.merge r ↔
    ∀ name d e, r.find? name = some d → s.find? name = some e → d = e := by
  constructor
  · intro h name d e hd he
    have hfound := find?_merge_of_some r s hd
    rw [h, find?_merge_of_some s r he] at hfound
    exact (Option.some.inj hfound).symm
  · intro h
    refine ext_find? fun name => ?_
    rw [find?_merge, find?_merge]
    cases hd : r.find? name with
    | none => rw [Option.none_or, Option.or_none]
    | some d =>
      cases he : s.find? name with
      | none => rfl
      | some e => rw [Option.some_or, Option.some_or, h name d e hd he]

/-! ## Additions -/

theorem merge_ofList (ds : List Descriptor) : r.merge (ofList ds) = r.add ds :=
  ext_find? fun name => by rw [find?_merge, find?_ofList, find?_add]

theorem add_flatten (pieces : List (List Descriptor)) :
    r.add pieces.flatten = (pieces.map ofList).foldl merge r := by
  rw [List.foldl_map]
  simp only [merge_ofList]
  exact List.foldl_flatten

theorem add_same_members {ds es : List Descriptor} (hmem : ∀ d, d ∈ ds ↔ d ∈ es)
    (hagree : ∀ d ∈ ds, ∀ d' ∈ ds, d.fullName = d'.fullName → d = d') : r.add ds = r.add es := by
  refine ext_find? fun name => ?_
  have hfirst := find?_same_members hmem
    (fun d hd d' hd' hname => Or.inl (hagree d hd d' hd' hname) : ∀ d ∈ ds, ∀ d' ∈ ds,
      d.fullName = d'.fullName → d = d' ∨ ∃ b ∈ ([] : List Descriptor), b.fullName = d.fullName) name
  rw [List.nil_append, List.nil_append] at hfirst
  rw [find?_add, find?_add, hfirst]

/-- **A registry under construction is a left-biased union.** In every table that comes about by additions and
merging, a descriptor stands under its own name, and the registries are just these tables. Merging is
associative and idempotent, and the empty registry is neutral. A name resolves as in the first registry if that
has it, and else as in the second. However a list is cut into pieces, adding it comes to merging the registries
of the pieces. Two registries may change places exactly if they agree on all names that both have. So
descriptors of which those of one name are the same make one registry, with one fingerprint, in whatever order
and however often they are added. -/
theorem left_biased_union (r s t : TypeRegistry) :
    ((∀ ds, (r.add ds).table = ds.foldl enter r.table) ∧
      (r.merge s).table = s.table.values.foldl enter r.table ∧
      (∀ u, Drafted u ↔ ∃ made : TypeRegistry, made.table = u) ∧
      ∀ u name d, Drafted u → (name, d) ∈ u.entries → d.fullName = name) ∧
    ((r.merge s).merge t = r.merge (s.merge t) ∧ r.merge r = r ∧ empty.merge r = r ∧ r.merge empty = r) ∧
    (∀ name, (∀ d, r.find? name = some d → (r.merge s).find? name = some d) ∧
      (r.find? name = none → (r.merge s).find? name = s.find? name)) ∧
    (∀ pieces : List (List Descriptor), r.add pieces.flatten = (pieces.map ofList).foldl merge r) ∧
    (r.merge s = s.merge r ↔ ∀ name d e, r.find? name = some d → s.find? name = some e → d = e) ∧
    ∀ ds es : List Descriptor, (∀ d, d ∈ ds ↔ d ∈ es) →
      (∀ d ∈ ds, ∀ d' ∈ ds, d.fullName = d'.fullName → d = d') →
      r.add ds = r.add es ∧ (r.add ds).fingerprint = (r.add es).fingerprint := by
  refine ⟨⟨table_add r, table_add r s.descriptors, drafted_iff, fun u name d hu hd => hu.named hd⟩,
    ⟨merge_assoc r s t, merge_self r, empty_merge r, merge_empty r⟩,
    fun name => ⟨fun d hd => find?_merge_of_some r s hd, find?_merge_of_none r s⟩, add_flatten r,
    merge_comm_iff r s, fun ds es hmem hagree => ?_⟩
  have hadd := add_same_members r hmem hagree
  exact ⟨hadd, by rw [hadd]⟩

/-! ### Two types of books -/

/-- Books by their titles. -/
def titledBook : Descriptor := ⟨"demo.Book", [.plain "title" 1 .string]⟩

/-- Books by the names of their authors. -/
def authoredBook : Descriptor := ⟨"demo.Book", [.plain "author" 1 .string]⟩

def soleAuthor : Descriptor := ⟨"demo.Author", []⟩

/-- Of two types of books the first stays, so that they may not change places. Books and authors may. -/
theorem left_biased_union_books :
    ((ofList [titledBook]).merge (ofList [authoredBook])).find? "demo.Book" = some titledBook ∧
    (ofList [titledBook]).merge (ofList [authoredBook]) ≠ (ofList [authoredBook]).merge (ofList [titledBook]) ∧
    ofList [titledBook, soleAuthor] = ofList [soleAuthor, titledBook, titledBook] := by
  obtain ⟨-, -, hfirst, -, hcomm, -⟩ := left_biased_union (ofList [titledBook]) (ofList [authoredBook]) empty
  obtain ⟨-, -, -, -, -, horder⟩ := left_biased_union empty empty empty
  have htitled : (ofList [titledBook]).find? "demo.Book" = some titledBook := rfl
  have hauthored : (ofList [authoredBook]).find? "demo.Book" = some authoredBook := rfl
  refine ⟨(hfirst "demo.Book").1 titledBook htitled, fun hsame => ?_, ?_⟩
  · have hbook := hcomm.1 hsame "demo.Book" titledBook authoredBook htitled hauthored
    exact absurd hbook (by decide)
  · have hmem (d : Descriptor) : d ∈ [titledBook, soleAuthor] ↔ d ∈ [soleAuthor, titledBook, titledBook] := by
      simp only [List.mem_cons, List.not_mem_nil]
      tauto
    exact (horder _ _ hmem (by decide)).1

end EntityCatalog.TypeRegistry
