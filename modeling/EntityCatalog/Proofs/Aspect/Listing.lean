import EntityCatalog.Proofs.Aspect.Discovery
import EntityCatalog.Proofs.Files.Entries

/-!
# Listings are exact

A listing of a kind with path segments appends one entity for every file that stands for an identifier
of the kind (`Store.HasFile`), and nothing else, in ascending order (`Store.list_exact`). The walk stops
at every directory, also below the depth where files count, and it stops once at each
(`Store.mem_stops_iff`, `Store.stops_distinct`); what is found at two stops differs in the directories.

That the members and the ascending order determine the list makes it independent of the order in which
the entries of directories come.
-/

namespace EntityCatalog

theorem Node.leads_concat_iff {a b : Node} {names : List String} {name : String} :
    a.Leads (names ++ [name]) b ↔
      ∃ entries, a.Leads names (.directory entries) ∧ (name, b) ∈ entries := by
  constructor
  · intro h
    induction names generalizing a with
    | nil =>
      cases h with
      | down hchild hrest =>
        cases hrest
        exact ⟨_, .here, hchild⟩
    | cons first names ih =>
      cases h with
      | down hchild hrest =>
        obtain ⟨entries, hleads, hlast⟩ := ih hrest
        exact ⟨entries, .down hchild hleads, hlast⟩
  · rintro ⟨entries, hleads, hlast⟩
    exact hleads.append (.down hlast .here)

namespace Store

variable {s : Store} {kind : EntityKind} {env : Env} {j : Journal}

/-! ## Every directory once -/

theorem Stop.Within.to_entry {stop : Stop} {path : FilePath} {segments names : List String}
    {name : String} (hpath : stop.path = ⟨path.root, path.names ++ name :: names⟩)
    (hsegments : stop.segments = segments ++ name :: names) {child : Node}
    (hleads : child.Leads names (.directory stop.entries)) :
    stop.Within (path.entry name) (segments ++ [name]) child :=
  ⟨names, by simp [hpath, FilePath.entry], by simp [hsegments], hleads⟩

mutual

theorem mem_stops_of_within {stop : Stop} {path : FilePath} {segments : List String} :
    ∀ {node : Node}, stop.Within path segments node → stop ∈ stops path segments node
  | .file _, ⟨_, _, _, hleads⟩ => nomatch hleads
  | .other _, ⟨_, _, _, hleads⟩ => nomatch hleads
  | .directory entries, ⟨[], hpath, hsegments, hleads⟩ => by
    obtain ⟨stopPath, stopSegments, stopEntries⟩ := stop
    rw [stops, List.mem_cons]
    cases hleads
    simp only [List.append_nil] at hpath hsegments
    subst hpath hsegments
    exact .inl rfl
  | .directory entries, ⟨name :: names, hpath, hsegments, hleads⟩ => by
    rw [stops, List.mem_cons]
    cases hleads with
    | down hchild hrest =>
      exact .inr (mem_stopsBelow_of_within hchild (.to_entry hpath hsegments hrest))

theorem mem_stopsBelow_of_within {stop : Stop} {path : FilePath} {segments : List String}
    {name : String} {child : Node} :
    ∀ {entries : List (String × Node)}, (name, child) ∈ entries →
      stop.Within (path.entry name) (segments ++ [name]) child →
      stop ∈ stopsBelow path segments entries
  | [], hchild, _ => by cases hchild
  | (first, node) :: rest, hchild, hwithin => by
    rw [stopsBelow, List.mem_append]
    rcases List.mem_cons.1 hchild with heq | hrest
    · cases heq
      exact .inr (mem_stops_of_within hwithin)
    · exact .inl (mem_stopsBelow_of_within hrest hwithin)

end

theorem mem_stops_iff {stop : Stop} {path : FilePath} {segments : List String} {node : Node} :
    stop ∈ stops path segments node ↔ stop.Within path segments node :=
  ⟨within_of_mem_stops, mem_stops_of_within⟩

theorem segments_of_mem_stopsBelow {stop : Stop} {path : FilePath} {segments : List String}
    {entries : List (String × Node)} (h : stop ∈ stopsBelow path segments entries) :
    ∃ name ∈ entries.map (·.1), ∃ names, stop.segments = segments ++ name :: names := by
  obtain ⟨name, child, hchild, names, -, hsegments, -⟩ := within_of_mem_stopsBelow h
  exact ⟨name, List.mem_map_of_mem hchild, names, by simp [hsegments]⟩

mutual

theorem stops_distinct {path : FilePath} {segments : List String} :
    ∀ {node : Node}, node.Distinct →
      (stops path segments node).Pairwise fun a b => a.segments ≠ b.segments
  | .file _, _ => by simp [stops]
  | .other _, _ => by simp [stops]
  | .directory entries, .directory hnodup hbelow => by
    rw [stops, List.pairwise_cons]
    refine ⟨fun stop hstop => ?_, stopsBelow_distinct hnodup hbelow⟩
    obtain ⟨name, -, names, hsegments⟩ := segments_of_mem_stopsBelow hstop
    simp [hsegments]

theorem stopsBelow_distinct {path : FilePath} {segments : List String} :
    ∀ {entries : List (String × Node)}, (entries.map (·.1)).Nodup →
      (∀ p ∈ entries, Node.Distinct p.2) →
      (stopsBelow path segments entries).Pairwise fun a b => a.segments ≠ b.segments
  | [], _, _ => by simp [stopsBelow]
  | (name, node) :: rest, hnodup, hbelow => by
    rw [List.map_cons, List.nodup_cons] at hnodup
    rw [stopsBelow, List.pairwise_append]
    refine ⟨stopsBelow_distinct hnodup.2 fun p hp => hbelow p (List.mem_cons_of_mem _ hp),
      stops_distinct (hbelow _ List.mem_cons_self), fun a ha b hb heq => ?_⟩
    -- the two stops are below entries of different names
    obtain ⟨name', hname', names, ha⟩ := segments_of_mem_stopsBelow ha
    obtain ⟨names', -, hb, -⟩ := within_of_mem_stops hb
    rw [ha, hb, List.append_assoc, List.append_cancel_left_eq, List.singleton_append] at heq
    exact hnodup.1 ((List.cons.inj heq).1 ▸ hname')

end

/-! ## Entries that count -/

/-- A tree has an entry for an identifier of a kind: below a directory for each segment but the last one,
with the last one as its stem. It may be anything but a directory. -/
def HasEntry (s : Store) (kind : EntityKind) (node : Node) (id : EntityId) : Prop :=
  ∃ directories stem entry, directories.length + 1 = kind.paths.length ∧ stem ≠ "" ∧
    id = ⟨kind.id, directories ++ [stem]⟩ ∧ Node.Leaf entry ∧
    node.Leads (directories ++ [s.fileName stem]) entry

/-- A tree has a file for an identifier of a kind. -/
def HasFile (s : Store) (kind : EntityKind) (node : Node) (id : EntityId) : Prop :=
  ∃ directories stem bytes, directories.length + 1 = kind.paths.length ∧ stem ≠ "" ∧
    id = ⟨kind.id, directories ++ [stem]⟩ ∧
    node.Leads (directories ++ [s.fileName stem]) (.file bytes)

theorem hasEntry_iff_hasFile {node : Node} (h : node.Regular) {id : EntityId} :
    s.HasEntry kind node id ↔ s.HasFile kind node id := by
  constructor
  · rintro ⟨directories, stem, entry, hlength, hstem, hid, hleaf, hleads⟩
    cases entry with
    | file bytes => exact ⟨directories, stem, bytes, hlength, hstem, hid, hleads⟩
    | directory entries => exact absurd rfl (hleaf entries)
    | other fault => exact absurd hleads (h _ fault)
  · rintro ⟨directories, stem, bytes, hlength, hstem, hid, hleads⟩
    exact ⟨directories, stem, _, hlength, hstem, hid, Node.leaf_file bytes, hleads⟩

/-- The identifiers in the tree of a kind, as the walk comes to them. -/
def gathered (s : Store) (kind : EntityKind) (node : Node) : List EntityId :=
  (stops (s.kindPath kind.id) [] node).flatMap (Stop.found s kind)

theorem mem_gathered_iff {node : Node} {id : EntityId} :
    id ∈ s.gathered kind node ↔ s.HasEntry kind node id := by
  rw [gathered, List.mem_flatMap]
  constructor
  · rintro ⟨stop, hstop, hid⟩
    obtain ⟨names, -, hsegments, hleads⟩ := mem_stops_iff.1 hstop
    obtain ⟨hlength, stem, entry, hstem, hleaf, hentry, rfl⟩ := mem_found_iff.1 hid
    rw [List.nil_append] at hsegments
    rw [hsegments] at hlength ⊢
    exact ⟨names, stem, entry, hlength, hstem, rfl, hleaf,
      Node.leads_concat_iff.2 ⟨_, hleads, hentry⟩⟩
  · rintro ⟨directories, stem, entry, hlength, hstem, rfl, hleaf, hleads⟩
    obtain ⟨entries, hdir, hentry⟩ := Node.leads_concat_iff.1 hleads
    refine ⟨⟨⟨s.root, (s.kindPath kind.id).names ++ directories⟩, directories, entries⟩, ?_, ?_⟩
    · exact mem_stops_iff.2 ⟨directories, rfl, rfl, hdir⟩
    · exact mem_found_iff.2 ⟨hlength, stem, entry, hstem, hleaf, hentry, rfl⟩

theorem found_nodup {stop : Stop} (h : (stop.entries.map (·.1)).Nodup) :
    (stop.found s kind).Nodup := by
  have hname {p : String × Node} {id : EntityId} (hp : s.entryId? kind stop.segments p = some id) :
      s.idOf? kind stop.segments p.1 = some id :=
    (entryId?_of_leaf (leaf_of_entryId? hp)).symm.trans hp
  rw [Stop.found, List.Nodup, List.pairwise_filterMap]
  refine (List.pairwise_map.1 h).imp fun {p q} hne id hp id' hq heq => hne ?_
  obtain ⟨-, stem, -, hfile, rfl⟩ := idOf?_eq_some_iff.1 (hname hp)
  obtain ⟨-, stem', -, hfile', rfl⟩ := idOf?_eq_some_iff.1 (hname hq)
  have hpaths := congrArg EntityId.paths heq
  rw [List.append_cancel_left_eq, List.singleton_inj] at hpaths
  rw [hfile, hfile', hpaths]

theorem gathered_nodup {node : Node} (h : node.Distinct) : (s.gathered kind node).Nodup := by
  rw [gathered, List.Nodup, List.pairwise_flatMap]
  constructor
  · intro stop hstop
    obtain ⟨names, -, -, hleads⟩ := mem_stops_iff.1 hstop
    cases hleads.everywhere h with
    | directory hnodup _ => exact found_nodup hnodup
  · refine (stops_distinct h).imp fun {a b} hne id ha id' hb heq => hne ?_
    obtain ⟨-, stem, -, -, -, -, rfl⟩ := mem_found_iff.1 ha
    obtain ⟨-, stem', -, -, -, -, rfl⟩ := mem_found_iff.1 hb
    exact (List.append_inj' (congrArg EntityId.paths heq) rfl).1

/-! ## Walks -/

/-- The walk of a kind in a tree is nowhere refused: no directory has a path that cannot be opened. -/
def Walkable (s : Store) (kind : EntityKind) (node : Node) : Prop :=
  ∀ names entries, node.Leads names (.directory entries) →
    (⟨s.root, kind.id.ns :: kind.id.name :: names⟩ : FilePath).fault? = none

theorem walkable_iff {node : Node} : s.Walkable kind node ↔
    ∀ stop ∈ stops (s.kindPath kind.id) [] node, stop.path.fault? = none := by
  constructor
  · intro h stop hstop
    obtain ⟨names, hpath, -, hleads⟩ := mem_stops_iff.1 hstop
    rw [hpath]
    exact h names stop.entries hleads
  · intro h names entries hleads
    exact h ⟨⟨s.root, (s.kindPath kind.id).names ++ names⟩, names, entries⟩
      (mem_stops_iff.2 ⟨names, rfl, rfl, hleads⟩)

theorem visit_eq (s : Store) (kind : EntityKind) {stops : List Stop}
    (h : ∀ stop ∈ stops, stop.path.fault? = none) (found : List EntityId) (env : Env) (j : Journal) :
    (s.visit kind stops found env j).1 = .ok (found ++ stops.flatMap (Stop.found s kind)) := by
  induction stops generalizing found j with
  | nil => simp [visit]
  | cons stop rest ih =>
    rw [List.forall_mem_cons] at h
    rw [visit, Run.bind_apply, Run.note_apply, h.1]
    dsimp only
    rw [ih h.2, List.flatMap_cons, List.append_assoc]

theorem fault_of_visit {stops : List Stop} {found ids : List EntityId}
    (h : (s.visit kind stops found env j).1 = .ok ids) : ∀ stop ∈ stops, stop.path.fault? = none := by
  induction stops generalizing found j with
  | nil => simp
  | cons stop rest ih =>
    rw [visit, Run.bind_apply, Run.note_apply] at h
    cases hfault : stop.path.fault? with
    | some fault =>
      rw [hfault] at h
      cases h
    | none =>
      rw [hfault] at h
      exact List.forall_mem_cons.2 ⟨hfault, ih h⟩

theorem walkable_directory_iff {entries : List (String × Node)} :
    s.Walkable kind (.directory entries) ↔ (s.kindPath kind.id).fault? = none ∧
      ∀ stop ∈ stopsBelow (s.kindPath kind.id) [] entries, stop.path.fault? = none := by
  rw [walkable_iff, stops, List.forall_mem_cons]

theorem walk_eq {node : Node} (hnode : env.world.files.directory (s.kindPath kind.id) = .ok node)
    (h : s.Walkable kind node) : (s.walk kind env j).1 = .ok (s.gathered kind node) := by
  obtain ⟨-, entries, -, -, rfl⟩ := FileTree.directory_eq_ok hnode
  rw [walk_eq_visit, Run.bind_apply, Run.enter_apply, hnode]
  dsimp only
  rw [visit_eq s kind (walkable_directory_iff.1 h).2, gathered, stops, List.flatMap_cons]

theorem walkable_of_walk {node : Node} {ids : List EntityId}
    (hnode : env.world.files.directory (s.kindPath kind.id) = .ok node)
    (h : (s.walk kind env j).1 = .ok ids) : s.Walkable kind node := by
  obtain ⟨place, entries, hplace, -, rfl⟩ := FileTree.directory_eq_ok hnode
  rw [walk_eq_visit, Run.bind_apply, Run.enter_apply, hnode] at h
  exact walkable_directory_iff.2 ⟨FileTree.fault_of_find hplace, fault_of_visit h⟩

theorem Walkable.reordered {node node' : Node} (h : s.Walkable kind node)
    (horder : node.Reordered node') : s.Walkable kind node' := by
  intro names entries hleads
  obtain ⟨n, hn, hdir⟩ := horder.symm.leads hleads
  obtain ⟨entries', rfl⟩ := hdir.eq_directory
  exact h names entries' hn

theorem HasEntry.reordered {node node' : Node} (horder : node.Reordered node') {id : EntityId}
    (h : s.HasEntry kind node id) : s.HasEntry kind node' id := by
  obtain ⟨directories, stem, entry, hlength, hstem, hid, hleaf, hleads⟩ := h
  exact ⟨directories, stem, entry, hlength, hstem, hid, hleaf, (horder.leads_leaf_iff hleaf).1 hleads⟩

/-! ## Listings -/

theorem list_of_search {ids : List EntityId} (h : (s.search kind env j).1 = .ok ids)
    (before : List Entity) :
    (s.list kind before env j).1 = .success (before ++ (EntityId.sort ids).map Entity.bare) := by
  rw [list_eq, Run.bind_apply, h]
  rfl

theorem search_of_list {before : List Entity} (h : (s.list kind before env j).1.failure? = none) :
    ∃ ids, (s.search kind env j).1 = .ok ids := by
  rw [list_eq, Run.bind_apply] at h
  cases hsearch : (s.search kind env j).1 with
  | ok ids => exact ⟨ids, rfl⟩
  | error failure =>
    rw [hsearch] at h
    cases h

/-- What a listing of a tree comes to. -/
def listed (s : Store) (kind : EntityKind) (node : Node) : List EntityId :=
  EntityId.sort (s.gathered kind node)

theorem list_of_walkable (hpaths : kind.paths ≠ []) {node : Node}
    (hnode : env.world.files.directory (s.kindPath kind.id) = .ok node) (h : s.Walkable kind node)
    (before : List Entity) :
    (s.list kind before env j).1 = .success (before ++ (s.listed kind node).map Entity.bare) := by
  refine list_of_search ?_ before
  rw [search_of_paths hpaths]
  exact walk_eq hnode h

theorem listed_ascending {node : Node} (h : node.Distinct) :
    (s.listed kind node).Pairwise fun a b => a.parts < b.parts :=
  EntityId.ascending_sort (gathered_nodup h)

theorem mem_listed_iff {node : Node} {id : EntityId} :
    id ∈ s.listed kind node ↔ s.HasEntry kind node id := by
  rw [listed, EntityId.mem_sort, mem_gathered_iff]

theorem listed_reordered {node node' : Node} (h : node.Distinct) (horder : node.Reordered node') :
    s.listed kind node' = s.listed kind node := by
  refine EntityId.eq_of_ascending (listed_ascending (horder.distinct h)) (listed_ascending h) ?_
  intro id
  rw [mem_listed_iff, mem_listed_iff]
  exact ⟨.reordered horder.symm, .reordered horder⟩

/-- **A listing is exact and does not depend on the order of entries.** Without the directory of the kind
nothing is appended. With it, the listing succeeds exactly if no directory below has a path that is
refused, and then appends one bare entity for each identifier of the kind that has an entry, in strictly
ascending order. In a tree of files and directories only, these are the identifiers that have a file. The
same is appended when the entries of directories come in any other order. -/
theorem list_exact (s : Store) {kind : EntityKind} (hpaths : kind.paths ≠ []) (before : List Entity)
    (env : Env) (j : Journal) :
    (env.world.files.directory (s.kindPath kind.id) = .error .notFound →
      (s.list kind before env j).1 = .success before) ∧
    ∀ node, env.world.files.directory (s.kindPath kind.id) = .ok node → node.Distinct →
      ((s.list kind before env j).1.failure? = none ↔ s.Walkable kind node) ∧
      (s.Walkable kind node → ∃ ids : List EntityId,
        (s.list kind before env j).1 = .success (before ++ ids.map Entity.bare) ∧
        ids.Pairwise (fun a b => a.parts < b.parts) ∧
        (∀ id, id ∈ ids ↔ s.HasEntry kind node id) ∧
        (node.Regular → ∀ id, id ∈ ids ↔ s.HasFile kind node id) ∧
        ∀ (env' : Env) (j' : Journal) (node' : Node), node.Reordered node' →
          env'.world.files.directory (s.kindPath kind.id) = .ok node' →
          (s.list kind before env' j').1 = .success (before ++ ids.map Entity.bare)) := by
  constructor
  · intro hmissing
    have hsearch : (s.search kind env j).1 = .ok [] := by
      rw [search_of_paths hpaths, walk, Run.bind_apply, Run.enter_apply, hmissing]
      rfl
    rw [list_of_search hsearch, EntityId.sort]
    simp
  · intro node hnode hdistinct
    constructor
    · constructor
      · intro h
        obtain ⟨ids, hids⟩ := search_of_list h
        rw [search_of_paths hpaths] at hids
        exact walkable_of_walk hnode hids
      · intro h
        rw [list_of_walkable hpaths hnode h]
        rfl
    · intro h
      refine ⟨s.listed kind node, list_of_walkable hpaths hnode h before, listed_ascending hdistinct,
        fun id => mem_listed_iff, fun hregular id => mem_listed_iff.trans (hasEntry_iff_hasFile hregular),
        fun env' j' node' horder hnode' => ?_⟩
      rw [list_of_walkable hpaths hnode' (h.reordered horder), listed_reordered hdistinct horder]

/-! ### A library in two orders -/

def pages : EntityKind := { EntityKind.bare ⟨"demo", "page"⟩ with paths := ["book", "number"] }

/-- A page of a book, and a file that lies too deep. -/
def dune : List (String × Node) := [("2.yaml", .file ∅), ("deep", .directory [("3.yaml", .file ∅)])]

def library (book : List (String × Node)) : Node :=
  .directory [("notes.yaml", .file ∅), ("dune", .directory book)]

def libraryTurned : Node :=
  .directory [("dune", .directory dune.reverse), ("notes.yaml", .file ∅)]

theorem library_distinct : (library dune).Distinct := by
  have hdeep : Node.Distinct (.directory [("3.yaml", .file ∅)]) :=
    .directory (by decide) (List.forall_mem_singleton.2 .file)
  have hdune : Node.Distinct (.directory dune) :=
    .directory (by decide) (List.forall_mem_cons.2 ⟨.file, List.forall_mem_singleton.2 hdeep⟩)
  exact .directory (by decide) (List.forall_mem_cons.2 ⟨.file, List.forall_mem_singleton.2 hdune⟩)

theorem library_regular : (library dune).Regular := by
  have hfile (bytes : ByteArray) : (Node.file bytes).Regular := Node.regular_file bytes
  have hdeep : Node.Regular (.directory [("3.yaml", .file ∅)]) :=
    Node.regular_directory (List.forall_mem_singleton.2 (hfile ∅))
  have hdune : Node.Regular (.directory dune) :=
    Node.regular_directory (List.forall_mem_cons.2 ⟨hfile ∅, List.forall_mem_singleton.2 hdeep⟩)
  exact Node.regular_directory (List.forall_mem_cons.2 ⟨hfile ∅, List.forall_mem_singleton.2 hdune⟩)

theorem library_reordered : (library dune).Reordered libraryTurned := by
  have hbook : (library dune).Reordered (library dune.reverse) :=
    @Node.Reordered.inside [("notes.yaml", .file ∅)] [] "dune" _ _
      (.entries (List.reverse_perm dune).symm)
  exact hbook.trans (.entries (List.Perm.swap _ _ []))

/-- The world with the pages of a library in a store. -/
def libraryEnv (node : Node) : Env := shelfEnv (.directory [("demo", .directory [("page", node)])])

/-- In both orders the page is listed, and the file that lies too deep is not. -/
theorem list_exact_library :
    pages.paths ≠ [] ∧ (library dune).Distinct ∧ (library dune).Regular ∧
      (library dune).Reordered libraryTurned ∧
      ∃ ids : List EntityId,
        (list ⟨"store", .yaml, false⟩ pages [] (libraryEnv (library dune)) []).1 =
          .success (ids.map Entity.bare) ∧
        (list ⟨"store", .yaml, false⟩ pages [] (libraryEnv libraryTurned) []).1 =
          .success (ids.map Entity.bare) ∧
        ⟨pages.id, ["dune", "2"]⟩ ∈ ids ∧ ⟨pages.id, ["dune", "deep", "3"]⟩ ∉ ids := by
  have hpaths : pages.paths ≠ [] := List.cons_ne_nil _ _
  have hexact := (list_exact ⟨"store", .yaml, false⟩ hpaths [] (libraryEnv (library dune)) []).2
    (library dune) rfl library_distinct
  have hlist : (list ⟨"store", .yaml, false⟩ pages [] (libraryEnv (library dune)) []).1.failure? = none := by
    rw [list_eq, search_of_paths hpaths, walk_eq_visit]
    rfl
  obtain ⟨ids, hids, -, -, hfiles, hturned⟩ := hexact.2 (hexact.1.1 hlist)
  have hmem := hfiles library_regular
  refine ⟨hpaths, library_distinct, library_regular, library_reordered, ids, hids,
    hturned (libraryEnv libraryTurned) [] libraryTurned library_reordered rfl, ?_, ?_⟩
  · rw [hmem]
    have hname : fileName ⟨"store", .yaml, false⟩ "2" = "2.yaml" := rfl
    have hpage : ("2.yaml", Node.file ∅) ∈ dune := List.mem_cons_self
    refine ⟨["dune"], "2", ∅, rfl, by decide, rfl, ?_⟩
    rw [hname]
    exact .down (by simp) (.down hpage .here)
  · rw [hmem]
    rintro ⟨directories, stem, bytes, hlength, -, heq, -⟩
    have hpath := congrArg List.length (congrArg EntityId.paths heq)
    rw [List.length_append, List.length_singleton, hlength] at hpath
    exact absurd hpath (by decide)

end Store

end EntityCatalog
