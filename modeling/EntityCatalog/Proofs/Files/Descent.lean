import EntityCatalog.Files.Tree
import EntityCatalog.Proofs.Ident

/-!
# Going down from a root

A path whose names are all segments is written as its root and the names with slashes between them, so
that different names give different texts. In a tree such names only go down: what the path leads to is
an entry of an entry of what its root leads to (`FileTree.leads_of_find`), and never beside or above it.
Below a path that can be opened only a path that is too long is refused (`FilePath.fault?_append_iff`).
-/

namespace EntityCatalog

/-! ## Texts -/

namespace FilePath

/-- A root as it stands in front of names. -/
def slashed (root : String) : String :=
  if root.isEmpty || root.toList.getLast? = some '/' then root else root ++ "/"

theorem isAbsolute_iff {text : String} : isAbsolute text = true ↔ text.toList.head? = some '/' := by
  rw [isAbsolute, decide_eq_true_iff]

theorem not_isAbsolute {name : String} (h : '/' ∉ name.toList) : isAbsolute name = false := by
  rw [← Bool.not_eq_true, isAbsolute_iff]
  exact fun hfirst => h (List.mem_of_mem_head? hfirst)

theorem join_eq (base : String) {name : String} (h : '/' ∉ name.toList) :
    join base name = slashed base ++ name := by
  rw [join, not_isAbsolute h, if_neg Bool.false_ne_true, slashed]
  split <;> rfl

theorem slashed_join (base : String) {name : String} (h : IsSegment name) :
    slashed (join base name) = join base name ++ "/" := by
  have hname : name.toList ≠ [] := fun hnil => h.nonempty (String.toList_eq_nil_iff.1 hnil)
  have hnonempty : join base name ≠ "" := by
    intro hempty
    have hnil := congrArg String.toList hempty
    rw [join_eq base h.no_slash, String.toList_append] at hnil
    exact hname (List.append_eq_nil_iff.1 hnil).2
  have hlast : (join base name).toList.getLast? ≠ some '/' := by
    intro hslash
    rw [join_eq base h.no_slash, String.toList_append,
      List.getLast?_append_of_ne_nil _ hname] at hslash
    exact h.no_slash (List.mem_of_getLast? hslash)
  rw [slashed, if_neg]
  simp [hnonempty, hlast]

theorem foldl_join (base name : String) {names : List String}
    (h : ∀ n ∈ name :: names, IsSegment n) :
    (name :: names).foldl join base = slashed base ++ "/".intercalate (name :: names) := by
  induction names generalizing base name with
  | nil =>
    have hname : IsSegment name := h name List.mem_cons_self
    simp [join_eq base hname.no_slash]
  | cons next names ih =>
    have hname : IsSegment name := h name List.mem_cons_self
    rw [List.foldl_cons, ih _ _ fun n hn => h n (List.mem_cons_of_mem name hn), slashed_join base hname,
      join_eq base hname.no_slash, String.intercalate_cons_cons]
    simp only [String.append_assoc]

theorem text_eq (root : String) {names : List String} (hne : names ≠ [])
    (h : ∀ n ∈ names, IsSegment n) :
    (⟨root, names⟩ : FilePath).text = slashed root ++ "/".intercalate names := by
  cases names with
  | nil => exact absurd rfl hne
  | cons name names => exact foldl_join root name h

theorem toList_intercalate (name : String) (names : List String) :
    ("/".intercalate (name :: names)).toList =
      name.toList ++ (names.map String.toList).flatMap ('/' :: ·) := by
  induction names generalizing name with
  | nil => simp
  | cons next names ih =>
    rw [String.intercalate_cons_cons, String.toList_append, ih]
    simp

theorem splitAll_intercalate {name : String} {names : List String}
    (h : ∀ n ∈ name :: names, IsSegment n) :
    Text.splitAll '/' ("/".intercalate (name :: names)).toList =
      (name.toList, names.map String.toList) := by
  rw [toList_intercalate]
  exact Text.splitAll_join_toList (h name List.mem_cons_self).no_slash fun n hn =>
    (h n (List.mem_cons_of_mem name hn)).no_slash

theorem intercalate_inj {names names' : List String} (hne : names ≠ []) (hne' : names' ≠ [])
    (h : ∀ n ∈ names, IsSegment n) (h' : ∀ n ∈ names', IsSegment n)
    (htext : "/".intercalate names = "/".intercalate names') : names = names' := by
  cases names with
  | nil => exact absurd rfl hne
  | cons name names =>
    cases names' with
    | nil => exact absurd rfl hne'
    | cons name' names' =>
      have hcut := splitAll_intercalate h
      rw [htext, splitAll_intercalate h', Prod.mk.injEq, String.toList_inj,
        List.map_inj_right fun _ _ => String.toList_inj.1] at hcut
      rw [hcut.1, hcut.2]

theorem names_eq_of_text {root : String} {names names' : List String} (hne : names ≠ [])
    (hne' : names' ≠ []) (h : ∀ n ∈ names, IsSegment n) (h' : ∀ n ∈ names', IsSegment n)
    (htext : (⟨root, names⟩ : FilePath).text = (⟨root, names'⟩ : FilePath).text) :
    names = names' := by
  rw [text_eq root hne h, text_eq root hne' h', String.append_right_inj] at htext
  exact intercalate_inj hne hne' h h' htext

end FilePath

/-- A path that goes down from a root at least once, and nowhere else. -/
structure FilePath.Below (root : String) (p : FilePath) : Prop where
  root_eq : p.root = root
  nonempty : p.names ≠ []
  segments : ∀ n ∈ p.names, IsSegment n

/-! ## Paths that are not refused -/

namespace FilePath

theorem fault?_eq_none_iff {p : FilePath} : p.fault? = none ↔
    '\x00' ∉ p.text.toList ∧ p.text ≠ "" ∧ p.text.utf8ByteSize ≤ maxLength := by
  unfold fault?
  split
  · next hnul => simp_all
  · next hnul =>
    split
    · next hempty => simp_all
    · next hempty =>
      split
      · next hlong =>
        simp only [reduceCtorEq, false_iff]
        rintro ⟨-, -, hshort⟩
        exact absurd hshort (Nat.not_le.2 hlong)
      · next hshort => simp_all

theorem text_append (root : String) (names below : List String) :
    (⟨root, names ++ below⟩ : FilePath).text = below.foldl join (⟨root, names⟩ : FilePath).text := by
  rw [text, text, List.foldl_append]

theorem mem_foldl_join {c : Char} {base : String} {names : List String}
    (h : c ∈ (names.foldl join base).toList) : c ∈ base.toList ∨ c = '/' ∨ ∃ n ∈ names, c ∈ n.toList := by
  induction names generalizing base with
  | nil => exact .inl h
  | cons name names ih =>
    rcases ih h with hbase | hslash | ⟨n, hn, hc⟩
    · unfold join at hbase
      split at hbase
      · exact .inr (.inr ⟨name, List.mem_cons_self, hbase⟩)
      · split at hbase
        · rw [String.toList_append, List.mem_append] at hbase
          exact hbase.imp_right fun hc => .inr ⟨name, List.mem_cons_self, hc⟩
        · simp only [String.toList_append, List.mem_append] at hbase
          rcases hbase with (hbase | hslash) | hc
          · exact .inl hbase
          · exact .inr (.inl (by simpa using hslash))
          · exact .inr (.inr ⟨name, List.mem_cons_self, hc⟩)
    · exact .inr (.inl hslash)
    · exact .inr (.inr ⟨n, List.mem_cons_of_mem _ hn, hc⟩)

theorem foldl_join_ne_empty {base : String} (h : base ≠ "") (names : List String) :
    names.foldl join base ≠ "" := by
  induction names generalizing base with
  | nil => exact h
  | cons name names ih =>
    refine ih fun hempty => ?_
    unfold join at hempty
    split at hempty
    · next habsolute =>
      rw [hempty] at habsolute
      cases habsolute
    · split at hempty
      · exact h (String.append_eq_empty_iff.1 hempty).1
      · exact h (String.append_eq_empty_iff.1 (String.append_eq_empty_iff.1 hempty).1).1

/-- Below a path that is not refused only the length counts. -/
theorem fault?_append_iff {root : String} {names below : List String}
    (h : (⟨root, names⟩ : FilePath).fault? = none) (hbelow : ∀ n ∈ below, '\x00' ∉ n.toList) :
    (⟨root, names ++ below⟩ : FilePath).fault? = none ↔
      (⟨root, names ++ below⟩ : FilePath).text.utf8ByteSize ≤ maxLength := by
  obtain ⟨hnul, hempty, -⟩ := fault?_eq_none_iff.1 h
  rw [fault?_eq_none_iff]
  refine ⟨fun h => h.2.2, fun hshort => ⟨fun hmem => ?_, ?_, hshort⟩⟩
  · rw [text_append] at hmem
    rcases mem_foldl_join hmem with hbase | hslash | ⟨n, hn, hc⟩
    · exact hnul hbase
    · exact absurd hslash (by decide)
    · exact hbelow n hn hc
  · rw [text_append]
    exact foldl_join_ne_empty hempty below

end FilePath

/-! ## Places -/

/-- Names lead from a node to another, each to an entry of the node before. -/
inductive Node.Leads : Node → List String → Node → Prop
  | here {n : Node} : Leads n [] n
  | down {entries : List (String × Node)} {name : String} {child n : Node} {names : List String}
      (hchild : (name, child) ∈ entries) (h : Leads child names n) :
      Leads (.directory entries) (name :: names) n

theorem Node.Leads.append {a b c : Node} {names names' : List String} (h : Leads a names b)
    (h' : Leads b names' c) : Leads a (names ++ names') c := by
  induction h with
  | here => exact h'
  | down hchild _ ih => exact .down hchild (ih h')

theorem Node.mem_of_child? {entries : List (String × Node)} {name : String} {child : Node}
    (h : child? entries name = some child) : (name, child) ∈ entries := by
  obtain ⟨before, after, hentries, -⟩ := List.lookup_eq_some_iff.1 h
  rw [hentries]
  simp

theorem Place.step_segment {p q : Place} {name : String} (hname : IsSegment name)
    (h : p.step name = .ok q) : p.node.Leads [name] q.node := by
  unfold step at h
  split at h
  · cases h
  · cases h
  · next entries hdir =>
    rw [if_neg (by simp [hname.nonempty, hname.not_here]), if_neg hname.not_up] at h
    split at h
    · cases h
    · split at h
      · next child hchild =>
        cases h
        rw [hdir]
        exact .down (Node.mem_of_child? hchild) .here
      · cases h

/-- All directories name their entries by segments. -/
inductive Node.WellNamed : Node → Prop
  | file {bytes : ByteArray} : WellNamed (.file bytes)
  | other {fault : IoFault} : WellNamed (.other fault)
  | directory {entries : List (String × Node)} (hnames : ∀ p ∈ entries, IsSegment p.1)
      (hbelow : ∀ p ∈ entries, WellNamed p.2) : WellNamed (.directory entries)

theorem Node.Leads.wellNamed {a b : Node} {names : List String} (h : Leads a names b)
    (ha : a.WellNamed) : (∀ n ∈ names, IsSegment n) ∧ b.WellNamed := by
  induction h with
  | here => exact ⟨by simp, ha⟩
  | down hchild _ ih =>
    cases ha with
    | directory hnames hbelow =>
      obtain ⟨hrest, hb⟩ := ih (hbelow _ hchild)
      exact ⟨List.forall_mem_cons.2 ⟨hnames _ hchild, hrest⟩, hb⟩

/-- A place with well-named nodes, also on the way back up. -/
def Place.WellNamed (p : Place) : Prop := ∀ n ∈ p.node :: p.above, n.WellNamed

theorem Place.step_wellNamed {p q : Place} {name : String} (hp : p.WellNamed)
    (h : p.step name = .ok q) : q.WellNamed := by
  unfold step at h
  split at h
  · cases h
  · cases h
  · next entries hdir =>
    split at h
    · cases h
      exact hp
    · split at h
      · split at h
        · cases h
          exact hp
        · next node above habove =>
          cases h
          exact fun n hn => hp n (by rw [habove]; exact List.mem_cons_of_mem _ hn)
      · split at h
        · cases h
        · split at h
          · next child hchild =>
            cases h
            have hnode := hp p.node List.mem_cons_self
            have hleads : p.node.Leads [name] child := by
              rw [hdir]
              exact .down (Node.mem_of_child? hchild) .here
            exact List.forall_mem_cons.2 ⟨(hleads.wellNamed hnode).2, hp⟩
          · cases h

theorem Place.foldlM_wellNamed {names : List String} {p q : Place} (hp : p.WellNamed)
    (h : names.foldlM step p = .ok q) : q.WellNamed :=
  @foldlM_keeps _ _ _ _ (fun _ p => p.WellNamed) names (fun _ _ _ _ => step_wellNamed) [] p q hp h

theorem Place.leads_of_foldlM {names : List String} {p q : Place}
    (hnames : ∀ n ∈ names, IsSegment n) (h : names.foldlM step p = .ok q) :
    p.node.Leads names q.node := by
  induction names generalizing p with
  | nil =>
    cases h
    exact .here
  | cons name names ih =>
    rw [List.foldlM_cons] at h
    obtain ⟨mid, hstep, hrest⟩ := bind_eq_ok h
    have hfirst := step_segment (hnames name List.mem_cons_self) hstep
    exact hfirst.append (ih (fun n hn => hnames n (List.mem_cons_of_mem name hn)) hrest)

theorem Place.opened_eq_ok {p q : Place} (h : p.opened = .ok q) :
    q = p ∧ ∀ fault, p.node ≠ .other fault := by
  unfold opened at h
  split at h
  · cases h
  · next hother => exact ⟨(Except.ok.inj h).symm, hother⟩

theorem Place.opened_of_ne {p : Place} (h : ∀ fault, p.node ≠ .other fault) : p.opened = .ok p := by
  unfold opened
  split
  · next fault hfault => exact absurd hfault (h fault)
  · rfl

/-! ## Texts and places -/

namespace FilePath

theorem parts_of_no_slash {name : String} (h : '/' ∉ name.toList) : parts name = [name] := by
  rw [parts, Text.splitAll_of_not_mem h]
  simp

theorem parts_around (before after : String) :
    parts (before ++ "/" ++ after) = parts before ++ parts after := by
  have htext : (before ++ "/" ++ after).toList = before.toList ++ '/' :: after.toList := by simp
  simp only [parts, htext, Text.splitAll_around, List.map_cons, List.map_append, List.cons_append]

end FilePath

theorem Place.step_here (p : Place) (name : String) :
    (p.step "" >>= (·.step name)) = p.step name := by
  cases hnode : p.node with
  | directory entries =>
    have hhere : p.step "" = .ok p := by
      rw [step, hnode]
      rfl
    rw [hhere]
    rfl
  | file bytes =>
    have hfile (name : String) : p.step name = .error .notADirectory := by rw [step, hnode]
    rw [hfile, hfile]
    rfl
  | other fault =>
    have hother (name : String) : p.step name = .error fault := by rw [step, hnode]
    rw [hother, hother]
    rfl

namespace FileTree

/-- Where the parts of a text are followed from. -/
def startOf (t : FileTree) (absolute : Bool) : Except IoFault Place :=
  if absolute then .ok ⟨t.top, []⟩ else t.working.foldlM Place.step ⟨t.top, []⟩

theorem follow_eq (t : FileTree) (text : String) : t.follow text =
    t.startOf (FilePath.isAbsolute text) >>= (FilePath.parts text).foldlM Place.step := by
  rw [follow, startOf]
  cases FilePath.isAbsolute text <;> rfl

/-- A name is followed from where the text in front of it leads to. A slash at the end of that text is
a step in place. -/
theorem follow_join (t : FileTree) (base : String) {name : String} (h : IsSegment name) :
    t.follow (FilePath.join base name) = t.follow base >>= (·.step name) := by
  have hname := FilePath.parts_of_no_slash h.no_slash
  have hhere (start : Except IoFault Place) (front : List String) :
      (start >>= (front ++ [name]).foldlM Place.step) =
        (start >>= (front ++ [""]).foldlM Place.step) >>= (·.step name) := by
    simp only [List.foldlM_append, List.foldlM_cons, List.foldlM_nil, bind_assoc, bind_pure]
    simp only [Place.step_here]
  rw [FilePath.join_eq base h.no_slash, FilePath.slashed]
  split
  · next hends =>
    rw [Bool.or_eq_true, decide_eq_true_iff, String.isEmpty_iff] at hends
    rcases hends with rfl | hends
    · rw [String.empty_append, follow_eq, follow_eq, FilePath.not_isAbsolute h.no_slash, hname]
      exact hhere _ []
    · obtain ⟨front, hfront⟩ := List.getLast?_eq_some_iff.1 hends
      have hbase : base = String.ofList front ++ "/" ++ "" := by
        rw [← String.toList_inj, hfront]
        simp
      have hparts : FilePath.parts base = FilePath.parts (String.ofList front) ++ [""] := by
        rw [hbase, FilePath.parts_around]
        rfl
      have hparts' : FilePath.parts (base ++ name) = FilePath.parts (String.ofList front) ++ [name] := by
        rw [hbase, String.append_empty, FilePath.parts_around, hname]
      have habsolute : FilePath.isAbsolute (base ++ name) = FilePath.isAbsolute base := by
        rw [FilePath.isAbsolute, FilePath.isAbsolute, String.toList_append, List.head?_append, hfront]
        cases front <;> rfl
      rw [follow_eq, follow_eq, habsolute, hparts, hparts']
      exact hhere _ _
  · next hends =>
    have hne : base.toList ≠ [] := fun hnil =>
      hends (by simp [String.toList_eq_nil_iff.1 hnil])
    have habsolute : FilePath.isAbsolute (base ++ "/" ++ name) = FilePath.isAbsolute base := by
      obtain ⟨first, rest, hbase⟩ := List.exists_cons_of_ne_nil hne
      rw [FilePath.isAbsolute, FilePath.isAbsolute, String.toList_append, String.toList_append, hbase]
      rfl
    rw [follow_eq, follow_eq, habsolute, FilePath.parts_around, hname]
    simp only [List.foldlM_append, List.foldlM_cons, List.foldlM_nil, bind_assoc, bind_pure]

theorem follow_foldl_join (t : FileTree) (base : String) {names : List String}
    (h : ∀ n ∈ names, IsSegment n) :
    t.follow (names.foldl FilePath.join base) = t.follow base >>= names.foldlM Place.step := by
  induction names generalizing base with
  | nil => exact (bind_pure _).symm
  | cons name names ih =>
    rw [List.forall_mem_cons] at h
    rw [List.foldl_cons, ih _ h.2, t.follow_join base h.1, bind_assoc]
    rfl

theorem fault_of_find {t : FileTree} {p : FilePath} {place : Place} (h : t.find p = .ok place) :
    p.fault? = none := by
  unfold find at h
  split at h
  · cases h
  · assumption

theorem find_eq_ok_iff {t : FileTree} {p : FilePath} {place : Place} : t.find p = .ok place ↔
    p.fault? = none ∧ t.follow p.text = .ok place ∧ ∀ fault, place.node ≠ .other fault := by
  constructor
  · intro h
    have hfault := fault_of_find h
    rw [find, hfault] at h
    obtain ⟨q, hq, hopened⟩ := bind_eq_ok h
    obtain ⟨rfl, hother⟩ := Place.opened_eq_ok hopened
    exact ⟨hfault, hq, hother⟩
  · rintro ⟨hfault, hplace, hother⟩
    rw [find, hfault, hplace]
    exact Place.opened_of_ne hother

theorem find_eq_ok {t : FileTree} {root : String} {names : List String} {place : Place}
    (hnames : ∀ n ∈ names, IsSegment n) (h : t.find ⟨root, names⟩ = .ok place) :
    ∃ base, t.follow root = .ok base ∧ names.foldlM Place.step base = .ok place := by
  obtain ⟨-, hplace, -⟩ := find_eq_ok_iff.1 h
  rw [FilePath.text, follow_foldl_join t root hnames] at hplace
  exact bind_eq_ok hplace

/-- All directories of the tree name their entries by segments. -/
def WellNamed (t : FileTree) : Prop := t.top.WellNamed

theorem follow_wellNamed {t : FileTree} {text : String} {place : Place} (ht : t.WellNamed)
    (h : t.follow text = .ok place) : place.WellNamed := by
  have htop : Place.WellNamed ⟨t.top, []⟩ := List.forall_mem_singleton.2 ht
  rw [follow_eq] at h
  obtain ⟨start, hstart, hrest⟩ := bind_eq_ok h
  refine Place.foldlM_wellNamed ?_ hrest
  unfold startOf at hstart
  split at hstart
  · cases hstart
    exact htop
  · exact Place.foldlM_wellNamed htop hstart

theorem node_wellNamed {t : FileTree} {p : FilePath} {place : Place} (ht : t.WellNamed)
    (h : t.find p = .ok place) : place.node.WellNamed :=
  follow_wellNamed ht (find_eq_ok_iff.1 h).2.1 place.node List.mem_cons_self

theorem directory_eq_ok {t : FileTree} {p : FilePath} {node : Node} (h : t.directory p = .ok node) :
    ∃ place entries, t.find p = .ok place ∧ place.node = node ∧ node = .directory entries := by
  obtain ⟨place, hplace, hnode⟩ := bind_eq_ok h
  cases hentries : place.node with
  | directory entries =>
    rw [hentries] at hnode
    exact ⟨place, entries, hplace, hentries.trans (Except.ok.inj hnode), (Except.ok.inj hnode).symm⟩
  | file bytes =>
    rw [hentries] at hnode
    cases hnode
  | other fault =>
    rw [hentries] at hnode
    cases hnode

theorem read_of_find {t : FileTree} {p : FilePath} {place : Place} {bytes : ByteArray}
    (h : t.find p = .ok place) (hfile : place.node = .file bytes) :
    t.read p = match String.fromUTF8? bytes with
      | some text => .ok text
      | none => .error .invalidData := by
  rw [read, h]
  dsimp only [bind, Except.bind]
  rw [hfile]
  dsimp only
  cases String.fromUTF8? bytes <;> rfl

theorem hasEntry_eq_true {t : FileTree} {p : FilePath} (h : t.hasEntry p = .ok true) :
    ∃ place, t.find p = .ok place := by
  unfold hasEntry at h
  split at h
  · next place hplace => exact ⟨place, hplace⟩
  · cases h
  · cases h

theorem leads_of_find {t : FileTree} {root : String} {names : List String} {place : Place}
    (hnames : ∀ n ∈ names, IsSegment n) (h : t.find ⟨root, names⟩ = .ok place) :
    ∃ base, t.follow root = .ok base ∧ base.node.Leads names place.node := by
  obtain ⟨base, hbase, hrest⟩ := find_eq_ok hnames h
  exact ⟨base, hbase, Place.leads_of_foldlM hnames hrest⟩

end FileTree

end EntityCatalog
