import EntityCatalog.Proofs.Aspect.Listing

/-!
# Reading back what is listed

A listing has every identifier from an entry that is no directory or, for a kind without path segments,
from whatever stands at its path (`Store.Source`). If that is a file, it is the file of the identifier, the path it was found under is
the path it is read from. So it can be read back, unless its parts are no plain names, its path is too
long, or there is a directory in its place (`Store.listed_readable_iff`).

The names of entries are segments, but a stem need not be one: the file `..yaml` has the stem `.`, and
a name with a backslash is a segment and no plain name. A listing finds such files, and their
identifiers are refused.
-/

namespace EntityCatalog.Store

variable {s : Store} {kind : EntityKind} {env : Env} {j : Journal}

/-! ## Sources -/

/-- What a listing has an identifier from: what stands at the path of a kind without path segments, or
an entry in the tree of the kind, under the directories and with the stem that the segments say. -/
inductive Source (s : Store) (kind : EntityKind) (files : FileTree) : EntityId → Node → Prop
  | single {place : Place} (hpaths : kind.paths = [])
      (hplain : ∀ part ∈ (⟨kind.id, []⟩ : EntityId).parts, Plain part)
      (hfind : files.find ⟨s.root, s.namesFor ⟨kind.id, []⟩⟩ = .ok place) :
      Source s kind files ⟨kind.id, []⟩ place.node
  | entry {place : Place} {directories : List String} {stem : String} {entry : Node}
      (hlength : directories.length + 1 = kind.paths.length)
      (hfind : files.find (s.kindPath kind.id) = .ok place) (hleaf : entry.Leaf)
      (hleads : place.node.Leads (directories ++ [s.fileName stem]) entry) :
      Source s kind files ⟨kind.id, directories ++ [stem]⟩ entry

theorem source_of_search {ids : List EntityId} (h : (s.search kind env j).1 = .ok ids) :
    ∀ id ∈ ids, ∃ node, s.Source kind env.world.files id node := by
  intro id hid
  by_cases hpaths : kind.paths = []
  · rw [search_of_no_paths hpaths] at h
    obtain ⟨-, -, hids⟩ := single_spec s kind env j
    obtain ⟨rfl, path, place, hpath, hplace⟩ := hids ids h id hid
    obtain ⟨hplain, rfl⟩ := pathFor_eq_ok hpath
    exact ⟨place.node, .single hpaths hplain hplace⟩
  · rw [search_of_paths hpaths] at h
    obtain ⟨-, -, -, hids⟩ := walk_spec s kind env j
    rw [hids ids h] at hid
    obtain ⟨stop, hstop, hfound⟩ := List.mem_flatMap.1 hid
    obtain ⟨place, hplace, names, -, hsegments, hleads⟩ := within_of_mem_walkStops hstop
    obtain ⟨hlength, stem, entry, -, hleaf, hentry, rfl⟩ := mem_found_iff.1 hfound
    rw [List.nil_append] at hsegments
    rw [hsegments] at hlength ⊢
    exact ⟨entry, .entry hlength hplace hleaf (Node.leads_concat_iff.2 ⟨_, hleads, hentry⟩)⟩

/-- The identifier has a file, and that file holds these bytes. -/
def Reads (s : Store) (files : FileTree) (id : EntityId) (bytes : ByteArray) : Prop :=
  ∃ path place, s.pathFor id = .ok path ∧ files.find path = .ok place ∧ place.node = .file bytes

/-- The path of an identifier is not too long. -/
def Fits (s : Store) (id : EntityId) : Prop :=
  (⟨s.root, s.namesFor id⟩ : FilePath).text.utf8ByteSize ≤ FilePath.maxLength

theorem Reads.plain {files : FileTree} {id : EntityId} {bytes : ByteArray}
    (h : s.Reads files id bytes) : (∀ part ∈ id.parts, Plain part) ∧ s.Fits id := by
  obtain ⟨path, place, hpath, hplace, -⟩ := h
  obtain ⟨hplain, rfl⟩ := pathFor_eq_ok hpath
  exact ⟨hplain, (FilePath.fault?_eq_none_iff.1 (FileTree.fault_of_find hplace)).2.2⟩

theorem Source.reads {files : FileTree} {id : EntityId} {bytes : ByteArray}
    (h : s.Source kind files id (.file bytes))
    (hlawful : ∀ node, files.directory (s.kindPath kind.id) = .ok node → node.Lawful)
    (hplain : ∀ part ∈ id.parts, Plain part) (hfits : s.Fits id) : s.Reads files id bytes := by
  generalize hnode : Node.file bytes = node at h
  cases h with
  | @single place hpaths _ hfind =>
    exact ⟨_, place, pathFor_of_plain s hplain, hfind, hnode.symm⟩
  | @entry place directories stem _ hlength hfind _ hleads =>
    cases hnode
    have hnames : s.namesFor ⟨kind.id, directories ++ [stem]⟩ =
        (s.kindPath kind.id).names ++ (directories ++ [s.fileName stem]) := namesFor_concat s _ _ _
    have hbelow : ∀ n ∈ directories ++ [s.fileName stem], Plain n := fun n hn =>
      namesFor_plain s hplain n (by rw [hnames]; exact List.mem_append_right _ hn)
    rw [Fits, hnames] at hfits
    have hfault := (FilePath.fault?_append_iff (FileTree.fault_of_find hfind) fun n hn =>
      (hbelow n hn).no_nul).2 hfits
    have hdirectory : place.node.Lawful := by
      refine hlawful _ ?_
      rw [FileTree.directory, hfind]
      dsimp only [bind, Except.bind]
      cases hplace : place.node with
      | directory entries => rfl
      | file _ =>
        rw [hplace] at hleads
        cases directories <;> cases hleads
      | other _ =>
        rw [hplace] at hleads
        cases directories <;> cases hleads
    obtain ⟨q, hq, hfile⟩ := FileTree.find_of_leads hfind hdirectory hleads nofun
      (fun n hn => (hbelow n hn).toIsSegment) hfault
    refine ⟨_, q, pathFor_of_plain s hplain, ?_, hfile⟩
    rw [hnames]
    exact hq

/-! ## Passing a listed entity -/

theorem fault_of_parse {id : EntityId} {path : FilePath} {text : String} {failure : AspectError}
    (h : s.parse id path text = .error failure) : ∃ fault, failure = .parse (.stored path fault) := by
  unfold parse at h
  split at h
  · cases h
  · obtain ⟨fault, -, rfl⟩ := mapError_eq_error h
    exact ⟨fault, rfl⟩

theorem failure_of_augment {e : Entity} {failure : AspectError}
    (h : (s.augment e env j).1.failure? = some failure) :
    s.filled env.world.files e = .error failure := by
  rw [augment_eq] at h
  cases hfilled : s.filled env.world.files e with
  | error cause =>
    rw [hfilled] at h
    rw [Option.some.inj h]
  | ok out =>
    rw [hfilled] at h
    cases h

theorem failure_of_reads {e : Entity} {bytes : ByteArray} (h : s.Reads env.world.files e.id bytes)
    {failure : AspectError} (hfailure : (s.augment e env j).1.failure? = some failure) :
    ∃ path, s.pathFor e.id = .ok path ∧
      (failure = .io path .invalidData ∨ ∃ fault, failure = .parse (.stored path fault)) := by
  obtain ⟨path, place, hpath, hplace, hfile⟩ := h
  refine ⟨path, hpath, ?_⟩
  have hfilled := failure_of_augment hfailure
  rw [filled, stored, hpath] at hfilled
  dsimp only at hfilled
  rw [FileTree.read_of_find hplace hfile] at hfilled
  cases htext : String.fromUTF8? bytes with
  | none =>
    rw [htext] at hfilled
    exact .inl (Except.error.inj hfilled).symm
  | some text =>
    rw [htext] at hfilled
    dsimp only at hfilled
    cases hparse : s.parse e.id path text with
    | ok report =>
      rw [hparse] at hfilled
      cases hfilled
    | error cause =>
      rw [hparse] at hfilled
      obtain rfl := Except.error.inj hfilled
      exact .inr (fault_of_parse hparse)

theorem failure_of_not_plain {e : Entity} (h : ∃ part ∈ e.id.parts, ¬ Plain part) (env : Env)
    (j : Journal) :
    ∃ segment, (s.augment e env j).1.failure? = some (.invalid (.escapes e.id segment)) := by
  obtain ⟨part, hmem, hpart⟩ := h
  obtain ⟨segment, -, -, hpath⟩ := pathFor_of_not_plain (s := s) hmem hpart
  refine ⟨segment, ?_⟩
  rw [augment_eq, filled, stored, hpath]
  rfl

/-- **What is listed can be read back, except for names that are not plain.** Each identifier that a
listing appends comes from what stands in the store. If that is a file, its identifier has plain names
only and its path is not too long, then the file is the one that is read for the identifier, and only then
is it read. An entity with such an identifier passes, unless the file is no text or its text no entity.
One with a part that is no plain name never passes. -/
theorem listed_readable_iff (s : Store) (kind : EntityKind) (before : List Entity) {env : Env}
    {j : Journal} {es : List Entity}
    (hlawful : ∀ node, env.world.files.directory (s.kindPath kind.id) = .ok node → node.Lawful)
    (h : (s.list kind before env j).1 = .success es) :
    ∃ ids : List EntityId, es = before ++ ids.map Entity.bare ∧ ∀ id ∈ ids,
      ∃ node, s.Source kind env.world.files id node ∧
        ((∃ bytes, node = .file bytes ∧ s.Reads env.world.files id bytes) ↔
          (∃ bytes, node = .file bytes) ∧ (∀ part ∈ id.parts, Plain part) ∧ s.Fits id) ∧
        ∀ (e : Entity) (env' : Env) (j' : Journal), e.id = id → env'.world.files = env.world.files →
          (∀ bytes, s.Reads env.world.files id bytes → ∀ failure,
            (s.augment e env' j').1.failure? = some failure → ∃ path, s.pathFor id = .ok path ∧
              (failure = .io path .invalidData ∨ ∃ fault, failure = .parse (.stored path fault))) ∧
          ((∃ part ∈ id.parts, ¬ Plain part) → ∃ segment,
            (s.augment e env' j').1.failure? = some (.invalid (.escapes id segment))) := by
  obtain ⟨ids, hids⟩ := search_of_list (congrArg Attempt.failure? h)
  refine ⟨EntityId.sort ids, ?_, fun id hid => ?_⟩
  · rw [list_of_search hids] at h
    exact (congrArg Attempt.left h).symm
  · obtain ⟨node, hsource⟩ := source_of_search hids id (EntityId.mem_sort.1 hid)
    refine ⟨node, hsource, ⟨?_, ?_⟩, ?_⟩
    · rintro ⟨bytes, hfile, hreads⟩
      exact ⟨⟨bytes, hfile⟩, hreads.plain⟩
    · rintro ⟨⟨bytes, rfl⟩, hplain, hfits⟩
      exact ⟨bytes, rfl, hsource.reads hlawful hplain hfits⟩
    · rintro e env' j' rfl hfiles
      refine ⟨fun bytes hreads failure hfailure => ?_, fun hpart => failure_of_not_plain hpart env' j'⟩
      rw [← hfiles] at hreads
      exact failure_of_reads hreads hfailure

/-! ### Files without a plain stem -/

theorem ownBook_lawful : ∀ node,
    (shelfEnv ownBook).world.files.directory ⟨"store", ["demo", "book"]⟩ = .ok node → node.Lawful := by
  intro node hnode
  have hbook : (shelfEnv ownBook).world.files.directory ⟨"store", ["demo", "book"]⟩ =
      .ok (.directory [("2.yaml", .file ∅)]) := rfl
  obtain rfl := Except.ok.inj (hbook.symm.trans hnode)
  have hname : IsSegment "2.yaml" := by decide
  exact .directory ⟨by decide, List.forall_mem_singleton.2 hname, List.forall_mem_singleton.2 (by decide)⟩
    (List.forall_mem_singleton.2 .file)

/-- The book of a store is listed, and it can be read. -/
theorem listed_readable_iff_own :
    (∀ node, (shelfEnv ownBook).world.files.directory (kindPath ⟨"store", .yaml, true⟩ ⟨"demo", "book"⟩) =
        .ok node → node.Lawful) ∧
      (list ⟨"store", .yaml, true⟩ (booksOf "demo") [] (shelfEnv ownBook) []).1 =
        .success [.bare ⟨⟨"demo", "book"⟩, ["2"]⟩] ∧
      ∃ bytes, Reads ⟨"store", .yaml, true⟩ (shelfEnv ownBook).world.files
        ⟨⟨"demo", "book"⟩, ["2"]⟩ bytes := by
  have hlist : (list ⟨"store", .yaml, true⟩ (booksOf "demo") [] (shelfEnv ownBook) []).1 =
      .success [.bare ⟨⟨"demo", "book"⟩, ["2"]⟩] := by
    have hsearch : (search ⟨"store", .yaml, true⟩ (booksOf "demo") (shelfEnv ownBook) []).1 =
        .ok [⟨⟨"demo", "book"⟩, ["2"]⟩] := by
      rw [search_of_paths (List.cons_ne_nil _ _), walk_eq_visit]
      rfl
    rw [list_of_search hsearch]
    simp [EntityId.sort]
  refine ⟨ownBook_lawful, hlist, ?_⟩
  obtain ⟨ids, hids, hall⟩ :=
    listed_readable_iff ⟨"store", .yaml, true⟩ (booksOf "demo") [] ownBook_lawful hlist
  have hmem : Entity.bare ⟨⟨"demo", "book"⟩, ["2"]⟩ ∈ ids.map Entity.bare := by
    rw [List.nil_append] at hids
    rw [← hids]
    exact List.mem_singleton_self _
  obtain ⟨id, hid, hbare⟩ := List.mem_map.1 hmem
  obtain rfl : id = ⟨⟨"demo", "book"⟩, ["2"]⟩ := congrArg Entity.id hbare
  obtain ⟨node, hsource, hiff, -⟩ := hall _ hid
  have hfile : ∃ bytes, node = .file bytes := by
    generalize hbook : (⟨⟨"demo", "book"⟩, ["2"]⟩ : EntityId) = id at hsource
    cases hsource with
    | single => cases hbook
    | @entry place directories stem entry _ hfind _ hleads =>
      have hnode : place.node = .directory [("2.yaml", .file ∅)] := by
        cases hfind
        rfl
      obtain ⟨entries, hdir, hentry⟩ := Node.leads_concat_iff.1 hleads
      rw [hnode] at hdir
      cases hdir with
      | here =>
        obtain rfl := (Prod.mk.inj (List.mem_singleton.1 hentry)).2
        exact ⟨∅, rfl⟩
      | down hchild hrest =>
        obtain rfl := (Prod.mk.inj (List.mem_singleton.1 hchild)).2
        cases hrest
  have hplain : ∀ part ∈ ["demo", "book", "2"], Plain part := by
    intro part hpart
    have hall : ["demo", "book", "2"].all isPlain = true := by decide
    exact isPlain_iff.1 (List.all_eq_true.1 hall part hpart)
  obtain ⟨bytes, -, hreads⟩ := hiff.2 ⟨hfile, hplain, Nat.le_of_ble_eq_true rfl⟩
  exact ⟨bytes, hreads⟩

/-- A store with a file whose stem is `.`, and with a directory where a file is looked for. -/
def oddNames : Node :=
  .directory [("demo", .directory
    [("book", .directory [("..yaml", .file ∅)]), ("catalog.yaml", .directory [])])]

/-- The file whose stem is `.` is listed, and its identifier is refused. The directory is listed in place
of a file, and cannot be read. -/
theorem list_unreadable :
    (list ⟨"store", .yaml, false⟩ (booksOf "demo") [] (shelfEnv oddNames) []).1 =
        .success [.bare ⟨⟨"demo", "book"⟩, ["."]⟩] ∧
      (augment ⟨"store", .yaml, false⟩ (.bare ⟨⟨"demo", "book"⟩, ["."]⟩) (shelfEnv oddNames) []).1 =
        .failure (.bare ⟨⟨"demo", "book"⟩, ["."]⟩)
          (.invalid (.escapes ⟨⟨"demo", "book"⟩, ["."]⟩ ".")) ∧
      (list ⟨"store", .yaml, false⟩ (.bare ⟨"demo", "catalog"⟩) [] (shelfEnv oddNames) []).1 =
        .success [.bare ⟨⟨"demo", "catalog"⟩, []⟩] ∧
      (augment ⟨"store", .yaml, false⟩ (.bare ⟨⟨"demo", "catalog"⟩, []⟩) (shelfEnv oddNames) []).1 =
        .failure (.bare ⟨⟨"demo", "catalog"⟩, []⟩)
          (.io ⟨"store", ["demo", "catalog.yaml"]⟩ .isADirectory) := by
  have hbook : (search ⟨"store", .yaml, false⟩ (booksOf "demo") (shelfEnv oddNames) []).1 =
      .ok [⟨⟨"demo", "book"⟩, ["."]⟩] := by
    rw [search_of_paths (List.cons_ne_nil _ _), walk_eq_visit]
    rfl
  have hcatalog : (search ⟨"store", .yaml, false⟩ (.bare ⟨"demo", "catalog"⟩) (shelfEnv oddNames) []).1 =
      .ok [⟨⟨"demo", "catalog"⟩, []⟩] := rfl
  refine ⟨?_, rfl, ?_, rfl⟩
  · rw [list_of_search hbook]
    simp [EntityId.sort]
  · rw [list_of_search hcatalog]
    simp [EntityId.sort]

end EntityCatalog.Store
