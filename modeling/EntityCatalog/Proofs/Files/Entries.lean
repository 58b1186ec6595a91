import EntityCatalog.Proofs.Files.Descent

/-!
# Entries of directories

A file system keeps no two entries of one name in a directory, and names them by segments that are not
too long (`Node.Lawful`). In such a tree there is a way down to everything there is: names that lead to
a node can be followed to that node (`Place.foldlM_of_leads`).

The entries of a directory may come in any order. `Node.Reordered` puts those of any directories of a
tree into another; the same names lead to the same files then.
-/

namespace EntityCatalog

namespace Node

/-! ## Laws -/

/-- Anything but a directory. -/
def Leaf (n : Node) : Prop := ∀ entries, n ≠ .directory entries

theorem leaf_file (bytes : ByteArray) : (file bytes).Leaf := nofun

theorem leaf_other (fault : IoFault) : (other fault).Leaf := nofun

/-- There are files and directories in a tree and nothing else. -/
def Regular (n : Node) : Prop := ∀ names fault, ¬ n.Leads names (.other fault)

theorem regular_file (bytes : ByteArray) : (file bytes).Regular := nofun

theorem regular_directory {entries : List (String × Node)} (h : ∀ p ∈ entries, p.2.Regular) :
    (directory entries).Regular := by
  intro names fault hleads
  cases hleads with
  | down hchild hrest => exact h _ hchild _ _ hrest

/-- The entries of every directory of a tree have a property. -/
inductive Everywhere (P : List (String × Node) → Prop) : Node → Prop
  | file {bytes : ByteArray} : Everywhere P (.file bytes)
  | other {fault : IoFault} : Everywhere P (.other fault)
  | directory {entries : List (String × Node)} (here : P entries)
      (below : ∀ p ∈ entries, Everywhere P p.2) : Everywhere P (.directory entries)

/-- No two entries of a directory have one name. -/
def Distinct : Node → Prop := Everywhere fun entries => (entries.map (·.1)).Nodup

/-- Entries as a file system keeps them. -/
structure LawfulEntries (entries : List (String × Node)) : Prop where
  distinct : (entries.map (·.1)).Nodup
  segments : ∀ p ∈ entries, IsSegment p.1
  short : ∀ p ∈ entries, p.1.utf8ByteSize ≤ Place.maxName

def Lawful : Node → Prop := Everywhere LawfulEntries

theorem Leads.everywhere {P : List (String × Node) → Prop} {a b : Node} {names : List String}
    (h : a.Leads names b) (ha : a.Everywhere P) : b.Everywhere P := by
  induction h with
  | here => exact ha
  | down hchild _ ih =>
    cases ha with
    | directory _ hbelow => exact ih (hbelow _ hchild)

theorem child?_of_mem {entries : List (String × Node)} {name : String} {child : Node}
    (hdistinct : (entries.map (·.1)).Nodup) (h : (name, child) ∈ entries) :
    child? entries name = some child := by
  obtain ⟨before, after, rfl⟩ := List.append_of_mem h
  rw [child?, List.lookup_eq_some_iff]
  refine ⟨before, after, rfl, fun p hp => ?_⟩
  rw [List.map_append, List.nodup_append] at hdistinct
  have hne : p.1 ≠ name := hdistinct.2.2 p.1 (List.mem_map_of_mem hp) name (by simp)
  simp [Ne.symm hne]

end Node

/-! ## Ways down -/

namespace Place

theorem step_of_mem {p : Place} {entries : List (String × Node)} {name : String} {child : Node}
    (hdir : p.node = .directory entries) (hlawful : Node.LawfulEntries entries)
    (h : (name, child) ∈ entries) : p.step name = .ok ⟨child, p.node :: p.above⟩ := by
  have hname : IsSegment name := hlawful.segments _ h
  have hshort : ¬ maxName < name.utf8ByteSize := Nat.not_lt.2 (hlawful.short _ h)
  rw [step, hdir]
  dsimp only
  rw [if_neg (by simp [hname.nonempty, hname.not_here]), if_neg hname.not_up, if_neg hshort,
    Node.child?_of_mem hlawful.distinct h]

theorem foldlM_of_leads {a b : Node} {names : List String} (h : a.Leads names b) (ha : a.Lawful)
    {p : Place} (hp : p.node = a) : ∃ q, names.foldlM step p = .ok q ∧ q.node = b := by
  induction h generalizing p with
  | here => exact ⟨p, rfl, hp⟩
  | @down entries name child _ names hchild _ ih =>
    cases ha with
    | directory hlawful hbelow =>
      obtain ⟨q, hq, hnode⟩ := @ih (hbelow _ hchild) ⟨child, p.node :: p.above⟩ rfl
      refine ⟨q, ?_, hnode⟩
      rw [List.foldlM_cons, step_of_mem hp hlawful hchild]
      exact hq

end Place

/-- What stands below a place is found under the names that lead there, unless the path is refused. -/
theorem FileTree.find_of_leads {t : FileTree} {root : String} {names below : List String}
    {place : Place} {n : Node} (hplace : t.find ⟨root, names⟩ = .ok place)
    (hlawful : place.node.Lawful) (h : place.node.Leads below n) (hn : ∀ fault, n ≠ .other fault)
    (hbelow : ∀ name ∈ below, IsSegment name)
    (hfault : (⟨root, names ++ below⟩ : FilePath).fault? = none) :
    ∃ q, t.find ⟨root, names ++ below⟩ = .ok q ∧ q.node = n := by
  obtain ⟨-, htext, -⟩ := find_eq_ok_iff.1 hplace
  obtain ⟨q, hq, rfl⟩ := Place.foldlM_of_leads h hlawful rfl
  refine ⟨q, find_eq_ok_iff.2 ⟨hfault, ?_, hn⟩, rfl⟩
  rw [FilePath.text_append, t.follow_foldl_join _ hbelow, htext]
  exact hq

/-! ## Orders -/

namespace Node

/-- The same tree with the entries of some directories in another order. -/
inductive Reordered : Node → Node → Prop
  | refl {a : Node} : Reordered a a
  | entries {l l' : List (String × Node)} (h : l.Perm l') : Reordered (.directory l) (.directory l')
  | inside {before after : List (String × Node)} {name : String} {a b : Node} (h : Reordered a b) :
      Reordered (.directory (before ++ (name, a) :: after)) (.directory (before ++ (name, b) :: after))
  | trans {a b c : Node} (h : Reordered a b) (h' : Reordered b c) : Reordered a c

namespace Reordered

variable {a b : Node}

theorem symm (h : a.Reordered b) : b.Reordered a := by
  induction h with
  | refl => exact .refl
  | entries h => exact .entries h.symm
  | inside _ ih => exact .inside ih
  | trans _ _ ih ih' => exact .trans ih' ih

theorem eq_of_leaf (h : a.Reordered b) (ha : a.Leaf) : b = a := by
  induction h with
  | refl => rfl
  | entries => exact absurd rfl (ha _)
  | inside => exact absurd rfl (ha _)
  | trans _ _ ih ih' =>
    obtain rfl := ih ha
    exact ih' ha

theorem eq_directory {l : List (String × Node)} (h : (Node.directory l).Reordered b) :
    ∃ l', b = .directory l' := by
  by_contra hb
  push Not at hb
  exact hb l (h.symm.eq_of_leaf hb).symm

theorem leads (h : a.Reordered b) {names : List String} {n : Node} (hn : a.Leads names n) :
    ∃ n', b.Leads names n' ∧ n.Reordered n' := by
  induction h generalizing names n with
  | refl => exact ⟨n, hn, .refl⟩
  | entries hperm =>
    cases hn with
    | here => exact ⟨_, .here, .entries hperm⟩
    | down hchild hrest => exact ⟨n, .down (hperm.mem_iff.1 hchild) hrest, .refl⟩
  | @inside before after name a b hab ih =>
    cases hn with
    | here => exact ⟨_, .here, .inside hab⟩
    | @down _ name' child _ names hchild hrest =>
      have hkeep (hother : (name', child) ∈ before ∨ (name', child) ∈ after) :
          (name', child) ∈ before ++ (name, b) :: after := by
        rw [List.mem_append, List.mem_cons]
        exact hother.imp_right .inr
      rw [List.mem_append, List.mem_cons] at hchild
      rcases hchild with hbefore | heq | hafter
      · exact ⟨n, .down (hkeep (.inl hbefore)) hrest, .refl⟩
      · -- the way down goes through the entry that is reordered
        cases heq
        obtain ⟨n', hrest', hn'⟩ := ih hrest
        exact ⟨n', .down (by simp) hrest', hn'⟩
      · exact ⟨n, .down (hkeep (.inr hafter)) hrest, .refl⟩
  | trans _ _ ih ih' =>
    obtain ⟨m, hm, hnm⟩ := ih hn
    obtain ⟨n', hn', hmn⟩ := ih' hm
    exact ⟨n', hn', .trans hnm hmn⟩

theorem leads_leaf_iff (h : a.Reordered b) {names : List String} {n : Node} (hn : n.Leaf) :
    a.Leads names n ↔ b.Leads names n := by
  have hway {a b : Node} (h : a.Reordered b) (ha : a.Leads names n) : b.Leads names n := by
    obtain ⟨n', hb, hleaf⟩ := h.leads ha
    rwa [hleaf.eq_of_leaf hn] at hb
  exact ⟨hway h, hway h.symm⟩

theorem distinct (h : a.Reordered b) (ha : a.Distinct) : b.Distinct := by
  induction h with
  | refl => exact ha
  | entries hperm =>
    cases ha with
    | directory hnodup hbelow =>
      exact .directory ((hperm.map _).nodup_iff.1 hnodup) fun p hp => hbelow p (hperm.mem_iff.2 hp)
  | @inside before after name a b _ ih =>
    cases ha with
    | directory hnodup hbelow =>
      refine .directory (by simpa using hnodup) fun p hp => ?_
      rw [List.mem_append, List.mem_cons] at hp
      rcases hp with hbefore | rfl | hafter
      · exact hbelow p (by simp [hbefore])
      · exact ih (hbelow (name, a) (by simp))
      · exact hbelow p (by simp [hafter])
  | trans _ _ ih ih' => exact ih' (ih ha)

end Reordered

end Node

end EntityCatalog
