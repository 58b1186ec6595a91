import EntityCatalog.Proofs.Aspect.Storage
import EntityCatalog.Proofs.Files.Entries

/-!
# What a listing opens and finds

A listing of a kind with path segments walks through the directory of the kind. All that it opens is
that directory and directories below it (`Store.walk_spec`), and all that it finds are files in them,
each under the names of its own identifier (`Store.leads_of_walk`).

Where the directory of the kind is depends on the namespace alone, since the name of a kind has no
dots. The walk opens it without a look at its names, and so a listing stays below the root unless the
namespace is a step that stays or goes up (`Store.list_confined_iff`).
-/

namespace EntityCatalog.Store

variable {s : Store} {kind : EntityKind} {env : Env} {j : Journal}

/-! ## The stops of a walk -/

mutual

/-- The directories of a tree as a walk comes to them: the last entry of a directory is on top of the
stack, and what is below it is opened before the entries in front of it. -/
def stops (path : FilePath) (segments : List String) : Node → List Stop
  | .file _ | .other _ => []
  | .directory entries => ⟨path, segments, entries⟩ :: stopsBelow path segments entries

/-- The directories among some entries and below them. -/
def stopsBelow (path : FilePath) (segments : List String) : List (String × Node) → List Stop
  | [] => []
  | (name, node) :: rest =>
    stopsBelow path segments rest ++ stops (path.entry name) (segments ++ [name]) node

end

/-- What is opened from a stop on. -/
def Stop.onward (stop : Stop) : List Stop :=
  stop :: stopsBelow stop.path stop.segments stop.entries

/-- The identifier that an entry of a directory stands for. -/
def entryId? (s : Store) (kind : EntityKind) (segments : List String) : String × Node → Option EntityId
  | (_, .directory _) => none
  | (name, .file _) | (name, .other _) => s.idOf? kind segments name

theorem entryId?_of_leaf {segments : List String} {name : String} {node : Node} (hleaf : node.Leaf) :
    s.entryId? kind segments (name, node) = s.idOf? kind segments name := by
  cases node with
  | directory entries => exact absurd rfl (hleaf entries)
  | file bytes => rfl
  | other fault => rfl

theorem leaf_of_entryId? {segments : List String} {name : String} {node : Node} {id : EntityId}
    (h : s.entryId? kind segments (name, node) = some id) : node.Leaf := by
  rintro entries rfl
  cases h

/-- The identifiers that are found at a stop. -/
def Stop.found (s : Store) (kind : EntityKind) (stop : Stop) : List EntityId :=
  stop.entries.filterMap (s.entryId? kind stop.segments)

theorem Stop.found_cons {path : FilePath} {segments : List String} {name : String} {node : Node}
    {rest : List (String × Node)} (hleaf : node.Leaf) :
    Stop.found s kind ⟨path, segments, (name, node) :: rest⟩ =
      (s.idOf? kind segments name).toList ++ Stop.found s kind ⟨path, segments, rest⟩ := by
  rw [found, found, List.filterMap_cons, entryId?_of_leaf hleaf]
  cases s.idOf? kind segments name <;> rfl

/-- Open directories one after another, and gather the identifiers of what is in them. -/
def visit (s : Store) (kind : EntityKind) :
    List Stop → List EntityId → Run (Except AspectError (List EntityId))
  | [], found => return .ok found
  | stop :: rest, found => do
    Run.note (.enter stop.path)
    match stop.path.fault? with
    | some fault => return .error (.io stop.path fault)
    | none => visit s kind rest (found ++ stop.found s kind)

/-- The entries of a directory add its identifiers to those found, and put on the stack what is still
to be opened below it. -/
theorem scan_spec (s : Store) (kind : EntityKind) (path : FilePath) (segments : List String)
    (entries : List (String × Node)) (pending : List Stop) (found : List EntityId) :
    (s.scan kind path segments entries pending found).1.flatMap Stop.onward =
        stopsBelow path segments entries ++ pending.flatMap Stop.onward ∧
      (s.scan kind path segments entries pending found).2 =
        found ++ Stop.found s kind ⟨path, segments, entries⟩ := by
  fun_induction scan s kind path segments entries pending found with
  | case1 => simp [stopsBelow, Stop.found]
  | case2 name entries rest pending found ih =>
    rw [ih.1, ih.2, stopsBelow, stops, List.flatMap_cons, List.append_assoc]
    exact ⟨rfl, rfl⟩
  | case3 name bytes rest pending found ih =>
    rw [ih.1, ih.2, stopsBelow, stops, List.append_nil, Stop.found_cons (Node.leaf_file bytes),
      List.append_assoc]
    exact ⟨rfl, rfl⟩
  | case4 name fault rest pending found ih =>
    rw [ih.1, ih.2, stopsBelow, stops, List.append_nil, Stop.found_cons (Node.leaf_other fault),
      List.append_assoc]
    exact ⟨rfl, rfl⟩

/-- From any stack on, the loop opens what is onward from it, one stop after another. -/
theorem explore_eq (s : Store) (kind : EntityKind) (pending : List Stop) (found : List EntityId) :
    s.explore kind pending found = s.visit kind (pending.flatMap Stop.onward) found := by
  fun_induction explore s kind pending found with
  | case1 found => rfl
  | case2 found stop pending ih =>
    rw [List.flatMap_cons, Stop.onward, List.cons_append, visit]
    congr 1
    funext _
    cases hfault : stop.path.fault? with
    | some fault => rfl
    | none =>
      obtain ⟨hpending, hfound⟩ :=
        scan_spec s kind stop.path stop.segments stop.entries pending found
      dsimp only
      rw [ih, hpending, hfound]

theorem walk_eq_visit (s : Store) (kind : EntityKind) :
    s.walk kind = do
      match ← Run.enter (s.kindPath kind.id) with
      | .error .notFound => return .ok []
      | .error fault => return .error (.io (s.kindPath kind.id) fault)
      | .ok (.directory entries) =>
        s.visit kind (stopsBelow (s.kindPath kind.id) [] entries)
          (Stop.found s kind ⟨s.kindPath kind.id, [], entries⟩)
      | .ok (.file _) | .ok (.other _) => return .ok [] := by
  rw [walk]
  congr 1
  funext opened
  cases opened with
  | error fault => cases fault <;> rfl
  | ok node =>
    cases node with
    | directory entries =>
      obtain ⟨hpending, hfound⟩ := scan_spec s kind (s.kindPath kind.id) [] entries [] []
      dsimp only
      rw [explore_eq, hpending, hfound, List.flatMap_nil, List.append_nil, List.nil_append]
    | file bytes => rfl
    | other fault => rfl

/-- A stop is at a directory of a tree, under the names that lead there. -/
def Stop.Within (stop : Stop) (path : FilePath) (segments : List String) (node : Node) : Prop :=
  ∃ names, stop.path = ⟨path.root, path.names ++ names⟩ ∧ stop.segments = segments ++ names ∧
    node.Leads names (.directory stop.entries)

theorem Stop.Within.of_entry {stop : Stop} {path : FilePath} {segments : List String}
    {entries : List (String × Node)} {name : String} {child : Node}
    (hchild : (name, child) ∈ entries)
    (h : stop.Within (path.entry name) (segments ++ [name]) child) :
    stop.Within path segments (.directory entries) := by
  obtain ⟨names, hpath, hsegments, hleads⟩ := h
  refine ⟨name :: names, ?_, ?_, .down hchild hleads⟩
  · simp [hpath, FilePath.entry]
  · simp [hsegments]

mutual

theorem within_of_mem_stops {stop : Stop} {path : FilePath} {segments : List String} :
    ∀ {node : Node}, stop ∈ stops path segments node → stop.Within path segments node
  | .file _, h => by simp [stops] at h
  | .other _, h => by simp [stops] at h
  | .directory entries, h => by
    rw [stops, List.mem_cons] at h
    rcases h with rfl | h
    · exact ⟨[], by simp, by simp, .here⟩
    · obtain ⟨name, child, hchild, hwithin⟩ := within_of_mem_stopsBelow h
      exact hwithin.of_entry hchild

theorem within_of_mem_stopsBelow {stop : Stop} {path : FilePath} {segments : List String} :
    ∀ {entries : List (String × Node)}, stop ∈ stopsBelow path segments entries →
      ∃ name child, (name, child) ∈ entries ∧
        stop.Within (path.entry name) (segments ++ [name]) child
  | [], h => by simp [stopsBelow] at h
  | (name, node) :: rest, h => by
    rw [stopsBelow, List.mem_append] at h
    rcases h with h | h
    · obtain ⟨name', child, hchild, hwithin⟩ := within_of_mem_stopsBelow h
      exact ⟨name', child, List.mem_cons_of_mem _ hchild, hwithin⟩
    · exact ⟨name, node, List.mem_cons_self, within_of_mem_stops h⟩

end

/-- The stops from a directory, if it could be opened. -/
def stopsFrom (path : FilePath) : Except IoFault Node → List Stop
  | .ok node => stops path [] node
  | .error _ => []

/-- The stops of the walk for a kind. -/
def walkStops (s : Store) (kind : EntityKind) (files : FileTree) : List Stop :=
  stopsFrom (s.kindPath kind.id) (files.directory (s.kindPath kind.id))

/-! ## Names of files -/

theorem splitName_eq_iff {name stem extension : String} :
    splitName name = (stem, some extension) ↔
      stem ≠ "" ∧ name = stem ++ "." ++ extension ∧ '.' ∉ extension.toList := by
  constructor
  · intro h
    unfold splitName at h
    split at h
    · cases h
    · cases h
    · next before after hne hsplit =>
      cases h
      obtain ⟨hjoin, hdot⟩ := Text.join_of_splitLast hsplit
      refine ⟨fun hempty => ?_, ?_, by simpa using hdot⟩
      · have hnil : before = [] := by simpa using congrArg String.toList hempty
        subst hnil
        exact hne rfl
      · rw [← String.toList_inj]
        simp [hjoin]
  · rintro ⟨hstem, rfl, hdot⟩
    have hsplit : Text.splitLast '.' (stem ++ "." ++ extension).toList =
        some (stem.toList, extension.toList) := by
      rw [Text.splitLast_eq_some_iff]
      exact ⟨by simp, hdot⟩
    have hne : stem.toList ≠ [] := fun hnil => hstem (String.toList_eq_nil_iff.1 hnil)
    rw [splitName, hsplit]
    split
    · next heq => exact absurd (Prod.mk.inj (Option.some.inj heq)).1 hne
    · next heq => cases heq
    · next heq =>
      cases heq
      simp

theorem idOf?_eq_some_iff {segments : List String} {name : String} {id : EntityId} :
    s.idOf? kind segments name = some id ↔ segments.length + 1 = kind.paths.length ∧
      ∃ stem, stem ≠ "" ∧ name = s.fileName stem ∧ id = ⟨kind.id, segments ++ [stem]⟩ := by
  have hdot : '.' ∉ s.format.name.toList := by cases s.format <;> decide
  unfold idOf?
  cases hsplit : splitName name with
  | mk stem extension =>
    dsimp only
    constructor
    · intro h
      split at h
      · next hcond =>
        rw [Bool.and_eq_true, decide_eq_true_eq, decide_eq_true_eq] at hcond
        obtain ⟨rfl, hlength⟩ := hcond
        obtain ⟨hstem, hname, -⟩ := splitName_eq_iff.1 hsplit
        exact ⟨hlength, stem, hstem, hname, (Option.some.inj h).symm⟩
      · cases h
    · rintro ⟨hlength, stem', hstem, rfl, rfl⟩
      have hsplit' := splitName_eq_iff.2 ⟨hstem, rfl, hdot⟩
      cases hsplit.symm.trans hsplit'
      simp [hlength]

theorem mem_found_iff {stop : Stop} {id : EntityId} :
    id ∈ stop.found s kind ↔ stop.segments.length + 1 = kind.paths.length ∧
      ∃ stem node, stem ≠ "" ∧ node.Leaf ∧ (s.fileName stem, node) ∈ stop.entries ∧
        id = ⟨kind.id, stop.segments ++ [stem]⟩ := by
  rw [Stop.found, List.mem_filterMap]
  constructor
  · rintro ⟨⟨name, node⟩, hentry, hid⟩
    have hleaf := leaf_of_entryId? hid
    rw [entryId?_of_leaf hleaf] at hid
    obtain ⟨hlength, stem, hstem, rfl, rfl⟩ := idOf?_eq_some_iff.1 hid
    exact ⟨hlength, stem, node, hstem, hleaf, hentry, rfl⟩
  · rintro ⟨hlength, stem, node, hstem, hleaf, hentry, rfl⟩
    have hid : s.idOf? kind stop.segments (s.fileName stem) =
        some ⟨kind.id, stop.segments ++ [stem]⟩ :=
      idOf?_eq_some_iff.2 ⟨hlength, stem, hstem, rfl, rfl⟩
    exact ⟨_, hentry, (entryId?_of_leaf hleaf).trans hid⟩

/-! ## Runs of a listing -/

/-- Stops are opened in turn, and only if none is refused there is a result, with all that they hold. -/
theorem visit_spec (s : Store) (kind : EntityKind) (stops : List Stop) (found : List EntityId)
    (env : Env) (j : Journal) :
    ∃ opened, opened ⊆ stops ∧
      (s.visit kind stops found env j).2 = j ++ opened.map (fun stop => .enter stop.path) ∧
      ∀ ids, (s.visit kind stops found env j).1 = .ok ids →
        ids = found ++ stops.flatMap (Stop.found s kind) := by
  induction stops generalizing found j with
  | nil => exact ⟨[], by simp, by simp [visit], fun ids h => by cases h; simp⟩
  | cons stop rest ih =>
    rw [visit, Run.bind_apply, Run.note_apply]
    cases stop.path.fault? with
    | some fault => exact ⟨[stop], by simp, by simp, fun ids h => by cases h⟩
    | none =>
      obtain ⟨opened, hsub, hjournal, hids⟩ := ih (found ++ stop.found s kind) (j ++ [.enter stop.path])
      refine ⟨stop :: opened, List.cons_subset_cons stop hsub, ?_, fun ids h => ?_⟩
      · dsimp only
        rw [hjournal]
        simp
      · rw [hids ids h, List.flatMap_cons, List.append_assoc]

theorem walk_spec (s : Store) (kind : EntityKind) (env : Env) (j : Journal) :
    ∃ opened, opened ⊆ s.walkStops kind env.world.files ∧
      (s.walk kind env j).2 =
        j ++ .enter (s.kindPath kind.id) :: opened.map (fun stop => .enter stop.path) ∧
      ∀ ids, (s.walk kind env j).1 = .ok ids →
        ids = (s.walkStops kind env.world.files).flatMap (Stop.found s kind) := by
  rw [walk_eq_visit, Run.bind_apply, Run.enter_apply, walkStops]
  cases env.world.files.directory (s.kindPath kind.id) with
  | error fault =>
    cases fault with
    | notFound => exact ⟨[], by simp, by simp, fun ids h => by cases h; rfl⟩
    | _ => exact ⟨[], by simp, by simp, fun ids h => by cases h⟩
  | ok node =>
    cases node with
    | file bytes => exact ⟨[], by simp, by simp, fun ids h => by cases h; rfl⟩
    | other fault => exact ⟨[], by simp, by simp, fun ids h => by cases h; rfl⟩
    | directory entries =>
      obtain ⟨opened, hsub, hjournal, hids⟩ := visit_spec s kind
        (stopsBelow (s.kindPath kind.id) [] entries)
        (Stop.found s kind ⟨s.kindPath kind.id, [], entries⟩) env
        (j ++ [.enter (s.kindPath kind.id)])
      rw [stopsFrom, stops]
      refine ⟨opened, List.subset_cons_of_subset _ hsub, ?_, fun ids h => ?_⟩
      · dsimp only
        rw [hjournal]
        simp
      · rw [hids ids h, List.flatMap_cons]

theorem single_spec (s : Store) (kind : EntityKind) (env : Env) (j : Journal) :
    ∃ probed : List FilePath, (s.single kind env j).2 = j ++ probed.map .probe ∧
      ∀ ids, (s.single kind env j).1 = .ok ids → ∀ id ∈ ids, id = ⟨kind.id, []⟩ ∧ ∃ path place,
        s.pathFor id = .ok path ∧ env.world.files.find path = .ok place := by
  rw [single]
  cases hpath : s.pathFor ⟨kind.id, []⟩ with
  | error e => exact ⟨[], by simp, fun ids h => by cases h⟩
  | ok path =>
    dsimp only
    rw [Run.bind_apply, Run.probe_apply]
    cases hentry : env.world.files.hasEntry path with
    | error fault => exact ⟨[path], rfl, fun ids h => by cases h⟩
    | ok present =>
      cases present with
      | false => exact ⟨[path], rfl, fun ids h => by cases h; simp⟩
      | true =>
        obtain ⟨place, hplace⟩ := FileTree.hasEntry_eq_true hentry
        refine ⟨[path], rfl, fun ids h => ?_⟩
        cases h
        exact List.forall_mem_singleton.2 ⟨rfl, path, place, hpath, hplace⟩

/-- The identifiers that a listing appends. -/
def search (s : Store) (kind : EntityKind) : Run (Except AspectError (List EntityId)) :=
  if kind.paths.isEmpty then s.single kind else s.walk kind

theorem search_of_paths (h : kind.paths ≠ []) : s.search kind = s.walk kind := by
  rw [search, if_neg]
  simpa using h

theorem search_of_no_paths (h : kind.paths = []) : s.search kind = s.single kind := by
  rw [search, if_pos]
  simpa using h

theorem list_eq (s : Store) (kind : EntityKind) (before : List Entity) :
    s.list kind before = do
      match ← s.search kind with
      | .error failure => return .failure before failure
      | .ok ids => return .success (before ++ (EntityId.sort ids).map Entity.bare) := by
  rw [list, search]
  split <;> rfl

theorem list_journal (s : Store) (kind : EntityKind) (before : List Entity) (env : Env) (j : Journal) :
    (s.list kind before env j).2 = (s.search kind env j).2 := by
  rw [list_eq, Run.bind_apply]
  cases (s.search kind env j).1 <;> rfl

theorem list_left (s : Store) (kind : EntityKind) (before : List Entity) (env : Env) (j : Journal) :
    ∃ found, (s.list kind before env j).1.left = before ++ found ∧
      ∀ e ∈ found, ∃ ids, (s.search kind env j).1 = .ok ids ∧ e.id ∈ ids := by
  rw [list_eq, Run.bind_apply]
  cases (s.search kind env j).1 with
  | error failure => exact ⟨[], (List.append_nil before).symm, by simp⟩
  | ok ids =>
    refine ⟨(EntityId.sort ids).map Entity.bare, rfl, fun e he => ⟨ids, rfl, ?_⟩⟩
    obtain ⟨id, hid, rfl⟩ := List.mem_map.1 he
    exact List.mem_mergeSort.1 hid

/-! ## Where a listing looks -/

/-- The name of a kind that was read from a text is a segment: no dot is in it. The namespace is one
unless it is a step that stays or goes up. -/
theorem kindPath_below_iff {text : String} (hid : KindId.parse text = .ok kind.id) :
    (s.kindPath kind.id).Below s.root ↔ kind.id.ns ≠ "." ∧ kind.id.ns ≠ ".." := by
  obtain ⟨-, hcanonical⟩ := KindId.canonical_of_parse hid
  constructor
  · intro h
    have hns : IsSegment kind.id.ns := h.segments _ List.mem_cons_self
    exact ⟨hns.not_here, hns.not_up⟩
  · rintro ⟨hhere, hup⟩
    have hdotted {name : String} (hname : '.' ∈ name.toList) : kind.id.name ≠ name := by
      rintro rfl
      exact hcanonical.name_no_dot hname
    refine ⟨rfl, List.cons_ne_nil _ _, List.forall_mem_cons.2 ⟨?_, List.forall_mem_singleton.2 ?_⟩⟩
    · exact ⟨hcanonical.ns_nonempty, hhere, hup, hcanonical.ns_no_slash⟩
    · exact ⟨hcanonical.name_nonempty, hdotted (by decide), hdotted (by decide),
        hcanonical.name_no_slash⟩

theorem within_of_mem_walkStops {files : FileTree} {stop : Stop}
    (h : stop ∈ s.walkStops kind files) : ∃ place, files.find (s.kindPath kind.id) = .ok place ∧
      stop.Within (s.kindPath kind.id) [] place.node := by
  rw [walkStops] at h
  cases hnode : files.directory (s.kindPath kind.id) with
  | error fault =>
    rw [hnode] at h
    cases h
  | ok node =>
    rw [hnode] at h
    obtain ⟨place, -, hplace, rfl, -⟩ := FileTree.directory_eq_ok hnode
    exact ⟨place, hplace, within_of_mem_stops h⟩

theorem below_of_mem_walkStops {files : FileTree} {stop : Stop} (hfiles : files.WellNamed)
    (hkind : (s.kindPath kind.id).Below s.root) (h : stop ∈ s.walkStops kind files) :
    stop.path.Below s.root := by
  obtain ⟨place, hplace, names, hpath, -, hleads⟩ := within_of_mem_walkStops h
  have hnames := (hleads.wellNamed (FileTree.node_wellNamed hfiles hplace)).1
  rw [hpath]
  refine ⟨rfl, List.append_ne_nil_of_left_ne_nil hkind.nonempty names, ?_⟩
  exact List.forall_mem_append.2 ⟨hkind.segments, hnames⟩

theorem leads_of_walk {ids : List EntityId} {id : EntityId}
    (hkind : (s.kindPath kind.id).Below s.root) (h : (s.walk kind env j).1 = .ok ids)
    (hid : id ∈ ids) : ∃ base node, env.world.files.follow s.root = .ok base ∧
      base.node.Leads (s.namesFor id) node ∧ node.Leaf := by
  obtain ⟨-, -, -, hids⟩ := walk_spec s kind env j
  rw [hids ids h] at hid
  obtain ⟨stop, hstop, hfound⟩ := List.mem_flatMap.1 hid
  obtain ⟨place, hplace, names, -, hsegments, hleads⟩ := within_of_mem_walkStops hstop
  obtain ⟨base, hbase, hdown⟩ := FileTree.leads_of_find hkind.segments hplace
  obtain ⟨-, stem, node, -, hleaf, hentry, rfl⟩ := mem_found_iff.1 hfound
  refine ⟨base, node, hbase, ?_, hleaf⟩
  rw [namesFor_concat, hsegments]
  exact hdown.append (hleads.append (.down hentry .here))

theorem leads_of_single {ids : List EntityId} {id : EntityId}
    (h : (s.single kind env j).1 = .ok ids) (hid : id ∈ ids) :
    ∃ base node, env.world.files.follow s.root = .ok base ∧ base.node.Leads (s.namesFor id) node := by
  obtain ⟨-, -, hids⟩ := single_spec s kind env j
  obtain ⟨-, path, place, hpath, hplace⟩ := hids ids h id hid
  obtain ⟨hplain, rfl⟩ := pathFor_eq_ok hpath
  obtain ⟨base, hbase, hleads⟩ := FileTree.leads_of_find (namesFor_segments s hplain) hplace
  exact ⟨base, place.node, hbase, hleads⟩

theorem walk_confined_iff {made : Journal} (hfiles : env.world.files.WellNamed)
    (hmade : (s.walk kind env j).2 = j ++ made) :
    (∀ dir, .enter dir ∈ made → dir.Below s.root) ↔ (s.kindPath kind.id).Below s.root := by
  obtain ⟨opened, hopened, hjournal, -⟩ := walk_spec s kind env j
  obtain rfl := List.append_cancel_left (hmade.symm.trans hjournal)
  constructor
  · intro h
    exact h _ List.mem_cons_self
  · intro hkind dir hdir
    rcases List.mem_cons.1 hdir with hfirst | hrest
    · cases hfirst
      exact hkind
    · obtain ⟨stop, hstop, heq⟩ := List.mem_map.1 hrest
      cases heq
      exact below_of_mem_walkStops hfiles hkind (hopened hstop)

/-- **A listing stays below the root unless the namespace leads out of it.** The directories that are
opened for a kind that was read from a text all are below the root, reached by segments, exactly if the
kind has no path segments or its namespace is no step that stays or goes up. Then every entity that is
appended stands below the root, under the names of its identifier. -/
theorem list_confined_iff (s : Store) {kind : EntityKind} {text : String}
    (hid : KindId.parse text = .ok kind.id) (before : List Entity) {env : Env}
    (hfiles : env.world.files.WellNamed) (j : Journal) :
    ∃ made, (s.list kind before env j).2 = j ++ made ∧
      ((∀ dir, .enter dir ∈ made → dir.Below s.root) ↔
        kind.paths = [] ∨ kind.id.ns ≠ "." ∧ kind.id.ns ≠ "..") ∧
      (kind.paths = [] ∨ kind.id.ns ≠ "." ∧ kind.id.ns ≠ ".." →
        ∃ found, (s.list kind before env j).1.left = before ++ found ∧ ∀ e ∈ found, ∃ base node,
          env.world.files.follow s.root = .ok base ∧ base.node.Leads (s.namesFor e.id) node) := by
  obtain ⟨found, hleft, hfound⟩ := list_left s kind before env j
  rw [list_journal]
  by_cases hpaths : kind.paths = []
  · rw [search_of_no_paths hpaths] at hfound ⊢
    obtain ⟨probed, hjournal, -⟩ := single_spec s kind env j
    refine ⟨_, hjournal, by simp [hpaths], fun _ => ⟨found, hleft, fun e he => ?_⟩⟩
    obtain ⟨ids, hids, hmem⟩ := hfound e he
    exact leads_of_single hids hmem
  · rw [search_of_paths hpaths] at hfound ⊢
    obtain ⟨opened, -, hjournal, -⟩ := walk_spec s kind env j
    have hiff := (walk_confined_iff hfiles hjournal).trans (kindPath_below_iff hid)
    refine ⟨_, hjournal, by simpa [hpaths] using hiff, fun hns => ⟨found, hleft, fun e he => ?_⟩⟩
    obtain ⟨ids, hids, hmem⟩ := hfound e he
    have hkind := (kindPath_below_iff (s := s) hid).2 (hns.resolve_left hpaths)
    obtain ⟨base, node, hbase, hleads, -⟩ := leads_of_walk hkind hids hmem
    exact ⟨base, node, hbase, hleads⟩

/-! ### A store with books beside it -/

/-- A directory of books beside a store. -/
def shelf (store : Node) : FileTree :=
  ⟨.directory [("store", store), ("book", .directory [("1.yaml", .file ∅)])], []⟩

theorem shelf_wellNamed {store : Node} (h : store.WellNamed) : (shelf store).WellNamed := by
  have hstore : IsSegment "store" := by decide
  have hbook : IsSegment "book" := by decide
  have hbooks : Node.WellNamed (.directory [("1.yaml", .file ∅)]) :=
    .directory (List.forall_mem_singleton.2 (by decide)) (List.forall_mem_singleton.2 .file)
  exact .directory (List.forall_mem_cons.2 ⟨hstore, List.forall_mem_singleton.2 hbook⟩)
    (List.forall_mem_cons.2 ⟨h, List.forall_mem_singleton.2 hbooks⟩)

/-- No remotes, and a clock that stands still. -/
def shelfEnv (store : Node) : Env := ⟨⟨shelf store, fun _ _ => none, fun _ => ⟨0, 0, 0⟩⟩, .empty⟩

/-- A store with a book of its own. -/
def ownBook : Node := .directory [("demo", .directory [("book", .directory [("2.yaml", .file ∅)])])]

theorem ownBook_wellNamed : ownBook.WellNamed :=
  .directory (List.forall_mem_singleton.2 (by decide)) <| List.forall_mem_singleton.2 <|
    .directory (List.forall_mem_singleton.2 (by decide)) <| List.forall_mem_singleton.2 <|
      .directory (List.forall_mem_singleton.2 (by decide)) <| List.forall_mem_singleton.2 .file

def booksOf (ns : String) : EntityKind := { EntityKind.bare ⟨ns, "book"⟩ with paths := ["isbn"] }

/-- The books in the store are listed, the others are not. -/
theorem list_confined_iff_own :
    KindId.parse "demo.book" = .ok (booksOf "demo").id ∧ (shelf ownBook).WellNamed ∧
      (list ⟨"store", .yaml, false⟩ (booksOf "demo") [] (shelfEnv ownBook) []).2 =
        [.enter ⟨"store", ["demo", "book"]⟩] ∧
      FilePath.Below "store" ⟨"store", ["demo", "book"]⟩ := by
  have hparse : KindId.parse "demo.book" = .ok (booksOf "demo").id := rfl
  have hopens : (list ⟨"store", .yaml, false⟩ (booksOf "demo") [] (shelfEnv ownBook) []).2 =
      [.enter ⟨"store", ["demo", "book"]⟩] := by
    rw [list_journal, search_of_paths (List.cons_ne_nil _ _), walk_eq_visit]
    rfl
  have hwell : (shelfEnv ownBook).world.files.WellNamed := shelf_wellNamed ownBook_wellNamed
  obtain ⟨made, hmade, hiff, -⟩ := list_confined_iff ⟨"store", .yaml, false⟩ hparse [] hwell []
  obtain rfl := hmade.symm.trans hopens
  exact ⟨hparse, hwell, hopens, hiff.2 (.inr (by decide)) _ List.mem_cons_self⟩

/-- From an empty store, the namespace of two dots leads to the directory beside it, and the book there
is listed. -/
theorem list_leaves_root :
    KindId.parse "...book" = .ok (booksOf "..").id ∧ (shelf (.directory [])).WellNamed ∧
      (∃ above, (shelf (.directory [])).follow "store" = .ok ⟨.directory [], above⟩) ∧
      list ⟨"store", .yaml, false⟩ (booksOf "..") [] (shelfEnv (.directory [])) [] =
        (.success [.bare ⟨⟨"..", "book"⟩, ["1"]⟩], [.enter ⟨"store", ["..", "book"]⟩]) ∧
      ¬ FilePath.Below "store" ⟨"store", ["..", "book"]⟩ := by
  have hsearch : search ⟨"store", .yaml, false⟩ (booksOf "..") (shelfEnv (.directory [])) [] =
      (.ok [⟨⟨"..", "book"⟩, ["1"]⟩], [.enter ⟨"store", ["..", "book"]⟩]) := by
    rw [search_of_paths (List.cons_ne_nil _ _), walk_eq_visit]
    rfl
  refine ⟨rfl, shelf_wellNamed (.directory (by simp) (by simp)), ⟨_, rfl⟩, ?_, fun h => ?_⟩
  · rw [list_eq, Run.bind_apply, hsearch]
    simp [EntityId.sort]
  · exact (h.segments ".." List.mem_cons_self).not_up rfl

end EntityCatalog.Store
