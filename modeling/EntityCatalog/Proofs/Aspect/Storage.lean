import EntityCatalog.Aspect.Store
import EntityCatalog.Proofs.Files.Descent
import EntityCatalog.Proofs.World

/-!
# Where entities are stored

A store has a file for every identifier whose parts are all plain names, and refuses any other
identifier. The file is strictly below the root, no two identifiers share it, and it is the only thing
that is looked at when an entity passes the store (`Store.storage_confined`).

An identifier without segments has two names below the root and any other has at least three, so that
the two layouts never meet, whatever dots there are in the names.
-/

namespace EntityCatalog.Store

variable {s : Store} {id id' : EntityId} {path path' : FilePath}

/-! ## Plain names -/

/-- A name of one entry of a directory, on any system. -/
structure Plain (name : String) : Prop extends IsSegment name where
  no_backslash : '\\' ∉ name.toList
  no_nul : '\x00' ∉ name.toList

theorem isPlain_iff {name : String} : isPlain name = true ↔ Plain name := by
  simp only [isPlain, Bool.and_eq_true, decide_eq_true_eq, List.all_eq_true, and_assoc]
  constructor
  · rintro ⟨hempty, hhere, hup, hall⟩
    have hfree {c : Char} (hc : c = '/' ∨ c = '\\' ∨ c = '\x00') : c ∉ name.toList := by
      intro hmem
      obtain ⟨hslash, hbackslash, hnul⟩ := hall c hmem
      rcases hc with h | h | h
      · exact hslash h
      · exact hbackslash h
      · exact hnul h
    exact ⟨⟨hempty, hhere, hup, hfree (by simp)⟩, hfree (by simp), hfree (by simp)⟩
  · intro h
    refine ⟨h.nonempty, h.not_here, h.not_up, fun c hc => ⟨?_, ?_, ?_⟩⟩
    · rintro rfl
      exact h.no_slash hc
    · rintro rfl
      exact h.no_backslash hc
    · rintro rfl
      exact h.no_nul hc

theorem toList_fileName (s : Store) (stem : String) :
    (s.fileName stem).toList = stem.toList ++ '.' :: s.format.name.toList := by
  simp [fileName]

theorem fileName_plain (s : Store) {stem : String} (h : Plain stem) : Plain (s.fileName stem) := by
  have hformat : '/' ∉ s.format.name.toList ∧ '\\' ∉ s.format.name.toList ∧
      '\x00' ∉ s.format.name.toList ∧ s.format.name.toList.length = 4 := by
    cases s.format <;> decide
  obtain ⟨hslash, hbackslash, hnul, hlength⟩ := hformat
  have hlong (short : String) (hshort : short.toList.length < 5) : s.fileName stem ≠ short := by
    rintro rfl
    rw [toList_fileName, List.length_append, List.length_cons, hlength] at hshort
    omega
  refine ⟨⟨hlong _ (by decide), hlong _ (by decide), hlong _ (by decide), ?_⟩, ?_, ?_⟩
  · simp [toList_fileName, h.no_slash, hslash]
  · simp [toList_fileName, h.no_backslash, hbackslash]
  · simp [toList_fileName, h.no_nul, hnul]

theorem fileName_inj {stem stem' : String} : s.fileName stem = s.fileName stem' ↔ stem = stem' := by
  simp [fileName]

/-! ## Names below the root -/

theorem namesFor_nil (s : Store) (kind : KindId) :
    s.namesFor ⟨kind, []⟩ = [kind.ns, s.fileName kind.name] := rfl

theorem namesFor_concat (s : Store) (kind : KindId) (parents : List String) (last : String) :
    s.namesFor ⟨kind, parents ++ [last]⟩ = kind.ns :: kind.name :: (parents ++ [s.fileName last]) := by
  simp [namesFor]

theorem two_le_length_namesFor (s : Store) (id : EntityId) : 2 ≤ (s.namesFor id).length := by
  obtain ⟨kind, paths⟩ := id
  rcases List.eq_nil_or_concat' paths with rfl | ⟨parents, last, rfl⟩
  · simp [namesFor_nil]
  · simp [namesFor_concat]

theorem namesFor_ne_nil (s : Store) (id : EntityId) : s.namesFor id ≠ [] :=
  List.ne_nil_of_length_pos (Nat.lt_of_lt_of_le Nat.two_pos (two_le_length_namesFor s id))

theorem namesFor_plain (s : Store) (h : ∀ part ∈ id.parts, Plain part) :
    ∀ name ∈ s.namesFor id, Plain name := by
  obtain ⟨kind, paths⟩ := id
  have hns : Plain kind.ns := h _ (by simp [EntityId.parts])
  have hkind : Plain kind.name := h _ (by simp [EntityId.parts])
  have hpaths : ∀ p ∈ paths, Plain p := fun p hp => h p (by simp [EntityId.parts, hp])
  rcases List.eq_nil_or_concat' paths with rfl | ⟨parents, last, rfl⟩
  · rw [namesFor_nil]
    simp [hns, s.fileName_plain hkind]
  · rw [List.forall_mem_append, List.forall_mem_singleton] at hpaths
    rw [namesFor_concat, List.forall_mem_cons, List.forall_mem_cons, List.forall_mem_append,
      List.forall_mem_singleton]
    exact ⟨hns, hkind, hpaths.1, s.fileName_plain hpaths.2⟩

theorem namesFor_segments (s : Store) (h : ∀ part ∈ id.parts, Plain part) :
    ∀ name ∈ s.namesFor id, IsSegment name := fun name hname =>
  (namesFor_plain s h name hname).toIsSegment

theorem namesFor_inj (h : s.namesFor id = s.namesFor id') : id = id' := by
  obtain ⟨⟨ns, name⟩, paths⟩ := id
  obtain ⟨⟨ns', name'⟩, paths'⟩ := id'
  have hlength := congrArg List.length h
  rcases List.eq_nil_or_concat' paths with rfl | ⟨parents, last, rfl⟩ <;>
    rcases List.eq_nil_or_concat' paths' with rfl | ⟨parents', last', rfl⟩
  · simp only [namesFor_nil, List.cons.injEq, fileName_inj, and_true] at h
    rw [h.1, h.2]
  · -- two names against three
    simp [namesFor_nil, namesFor_concat] at hlength
  · simp [namesFor_nil, namesFor_concat] at hlength
  · simp only [namesFor_concat, List.cons.injEq] at h
    obtain ⟨rfl, rfl, htail⟩ := h
    obtain ⟨rfl, hlast⟩ := List.append_inj' htail rfl
    rw [fileName_inj.1 (List.singleton_inj.1 hlast)]

/-! ## The file of an identifier -/

theorem pathFor_of_plain (s : Store) (h : ∀ part ∈ id.parts, Plain part) :
    s.pathFor id = .ok ⟨s.root, s.namesFor id⟩ := by
  have hnone : id.parts.find? (!isPlain ·) = none := by
    rw [List.find?_eq_none]
    intro part hpart
    simp [isPlain_iff.2 (h part hpart)]
  rw [pathFor, hnone]

theorem pathFor_of_not_plain {part : String} (hmem : part ∈ id.parts) (hpart : ¬ Plain part) :
    ∃ first ∈ id.parts, ¬ Plain first ∧ s.pathFor id = .error (.invalid (.escapes id first)) := by
  cases hfirst : id.parts.find? (!isPlain ·) with
  | none =>
    have hplain := List.find?_eq_none.1 hfirst part hmem
    exact absurd (isPlain_iff.1 (by simpa using hplain)) hpart
  | some first =>
    refine ⟨first, List.mem_of_find?_eq_some hfirst, fun h => ?_, by rw [pathFor, hfirst]⟩
    simpa [isPlain_iff.2 h] using List.find?_some hfirst

theorem pathFor_eq_ok (h : s.pathFor id = .ok path) :
    (∀ part ∈ id.parts, Plain part) ∧ path = ⟨s.root, s.namesFor id⟩ := by
  have hplain : ∀ part ∈ id.parts, Plain part := by
    intro part hmem
    by_contra hpart
    obtain ⟨first, -, -, hfault⟩ := pathFor_of_not_plain (s := s) hmem hpart
    rw [h] at hfault
    cases hfault
  rw [pathFor_of_plain s hplain] at h
  exact ⟨hplain, (Except.ok.inj h).symm⟩

theorem pathFor_invalid_iff :
    (∃ cause, s.pathFor id = .error (.invalid cause)) ↔ ∃ part ∈ id.parts, ¬ Plain part := by
  constructor
  · rintro ⟨cause, hfault⟩
    by_contra hplain
    push Not at hplain
    rw [pathFor_of_plain s hplain] at hfault
    cases hfault
  · rintro ⟨part, hmem, hpart⟩
    obtain ⟨first, -, -, hfault⟩ := pathFor_of_not_plain (s := s) hmem hpart
    exact ⟨_, hfault⟩

theorem eq_of_text (h : s.pathFor id = .ok path) (h' : s.pathFor id' = .ok path')
    (htext : path.text = path'.text) : id = id' := by
  obtain ⟨hplain, rfl⟩ := pathFor_eq_ok h
  obtain ⟨hplain', rfl⟩ := pathFor_eq_ok h'
  exact namesFor_inj (FilePath.names_eq_of_text (namesFor_ne_nil s id) (namesFor_ne_nil s id')
    (namesFor_segments s hplain) (namesFor_segments s hplain') htext)

/-! ## Passing an entity -/

/-- The looks at files for an identifier: one at its file, if it has one. -/
def reads (s : Store) (id : EntityId) : Journal :=
  match s.pathFor id with
  | .ok path => [.read path]
  | .error _ => []

/-- What files say about an entity. -/
def stored (s : Store) (files : FileTree) (id : EntityId) : Except AspectError (Option Entity) :=
  match s.pathFor id with
  | .error e => .error e
  | .ok path =>
    match files.read path with
    | .ok text => (s.parse id path text).map some
    | .error .notFound => .ok none
    | .error fault => .error (.io path fault)

theorem report?_eq (s : Store) (id : EntityId) (env : Env) (j : Journal) :
    s.report? id env j = (s.stored env.world.files id, j ++ s.reads id) := by
  unfold report? stored reads
  cases s.pathFor id with
  | error e => simp
  | ok path =>
    simp only [Run.bind_apply, Run.read_apply]
    cases env.world.files.read path with
    | ok text => rfl
    | error fault => cases fault <;> rfl

theorem stored_congr {files files' : FileTree}
    (h : ∀ path, s.pathFor id = .ok path → files.read path = files'.read path) :
    s.stored files id = s.stored files' id := by
  unfold stored
  cases hpath : s.pathFor id with
  | error e => rfl
  | ok path =>
    dsimp only
    rw [h path hpath]

/-- An entity with what files say about it. -/
def filled (s : Store) (files : FileTree) (e : Entity) : Except AspectError Entity :=
  match s.stored files e.id with
  | .error failure => .error failure
  | .ok (some report) => .ok (e.merge report)
  | .ok none => if s.strict then .error (.notFound e.id.text) else .ok e

/-- Only an identifier of plain names is looked up. Then the entity stays as it is or takes in what its
file says. -/
theorem filled_eq_ok {files : FileTree} {e out : Entity} (h : s.filled files e = .ok out) :
    (∀ part ∈ e.id.parts, Plain part) ∧ (s.stored files e.id = .ok none ∧ out = e ∨
      ∃ report, s.stored files e.id = .ok (some report) ∧ out = e.merge report) := by
  unfold filled at h
  cases hstored : s.stored files e.id with
  | error failure =>
    rw [hstored] at h
    cases h
  | ok report? =>
    rw [hstored] at h
    constructor
    · cases hpath : s.pathFor e.id with
      | error failure =>
        rw [stored, hpath] at hstored
        cases hstored
      | ok path => exact (pathFor_eq_ok hpath).1
    · cases report? with
      | some report => exact .inr ⟨report, rfl, (Except.ok.inj h).symm⟩
      | none =>
        dsimp only at h
        split at h
        · cases h
        · exact .inl ⟨rfl, (Except.ok.inj h).symm⟩

theorem filled_id {files : FileTree} {e out : Entity} (h : s.filled files e = .ok out) : out.id = e.id := by
  rcases (filled_eq_ok h).2 with ⟨-, rfl⟩ | ⟨report, -, rfl⟩ <;> rfl

theorem augment_eq (s : Store) (e : Entity) (env : Env) (j : Journal) :
    s.augment e env j = (.ofExcept e (s.filled env.world.files e), j ++ s.reads e.id) := by
  rw [augment, Run.bind_apply, report?_eq, filled]
  cases s.stored env.world.files e.id with
  | error failure => rfl
  | ok report =>
    cases report with
    | some report => rfl
    | none => cases hstrict : s.strict <;> rfl

theorem augment_journal (s : Store) (e : Entity) (env : Env) (j : Journal) :
    (s.augment e env j).2 = j ++ s.reads e.id := by
  rw [augment_eq]

theorem augment_congr {e : Entity} {env env' : Env} (j : Journal)
    (h : ∀ path, s.pathFor e.id = .ok path →
      env.world.files.read path = env'.world.files.read path) :
    s.augment e env j = s.augment e env' j := by
  rw [augment_eq, augment_eq, filled, filled, stored_congr h]

/-- **No file outside the root is read, and no two entities share a file.** An identifier has a file
exactly if all its parts are plain names. The file is named by the root and at least two plain names,
with slashes between them, and wherever the root leads, the file is below. Different identifiers have
different files. An entity that passes the store is looked up in its file and nowhere else. -/
theorem storage_confined (s : Store) :
    (∀ id : EntityId, (∃ cause, s.pathFor id = .error (.invalid cause)) ↔
      ∃ part ∈ id.kind.ns :: id.kind.name :: id.paths, ¬ Plain part) ∧
    (∀ id : EntityId, (∀ part ∈ id.kind.ns :: id.kind.name :: id.paths, Plain part) →
      ∃ names, s.pathFor id = .ok ⟨s.root, names⟩ ∧ 2 ≤ names.length ∧
        (∀ name ∈ names, Plain name) ∧
        (⟨s.root, names⟩ : FilePath).text = FilePath.slashed s.root ++ "/".intercalate names ∧
        ∀ (files : FileTree) (place : Place), files.find ⟨s.root, names⟩ = .ok place →
          ∃ base, files.follow s.root = .ok base ∧ base.node.Leads names place.node) ∧
    (∀ (id id' : EntityId) (path path' : FilePath), s.pathFor id = .ok path →
      s.pathFor id' = .ok path' → path.text = path'.text → id = id') ∧
    (∀ (e : Entity) (env : Env) (j : Journal), (s.augment e env j).2 = j ++
      match s.pathFor e.id with
      | .ok path => [.read path]
      | .error _ => []) ∧
    (∀ (e : Entity) (env env' : Env) (j : Journal),
      (∀ path, s.pathFor e.id = .ok path →
        env.world.files.read path = env'.world.files.read path) →
      s.augment e env j = s.augment e env' j) := by
  refine ⟨fun id => pathFor_invalid_iff, fun id hplain => ?_, fun _ _ _ _ h h' => eq_of_text h h',
    augment_journal s, fun _ _ _ => augment_congr⟩
  have hsegments := namesFor_segments s hplain
  exact ⟨s.namesFor id, pathFor_of_plain s hplain, two_le_length_namesFor s id,
    namesFor_plain s hplain, FilePath.text_eq s.root (namesFor_ne_nil s id) hsegments,
    fun files place hplace => FileTree.leads_of_find hsegments hplace⟩

/-- The file of a kind without segments, and the directory of a kind whose name ends the same way. -/
theorem storage_confined_dots :
    pathFor ⟨"store", .yaml, false⟩ ⟨⟨"..", "book"⟩, []⟩ =
        .error (.invalid (.escapes ⟨⟨"..", "book"⟩, []⟩ "..")) ∧
      pathFor ⟨"store", .yaml, false⟩ ⟨⟨"..demo", "book"⟩, []⟩ =
        .ok ⟨"store", ["..demo", "book.yaml"]⟩ ∧
      pathFor ⟨"store", .yaml, false⟩ ⟨⟨"..demo", "book.yaml"⟩, ["1"]⟩ =
        .ok ⟨"store", ["..demo", "book.yaml", "1.yaml"]⟩ ∧
      (⟨"store", ["..demo", "book.yaml"]⟩ : FilePath).text ≠
        (⟨"store", ["..demo", "book.yaml", "1.yaml"]⟩ : FilePath).text := by
  refine ⟨rfl, rfl, rfl, fun htext => ?_⟩
  have hsame := (storage_confined ⟨"store", .yaml, false⟩).2.2.1 ⟨⟨"..demo", "book"⟩, []⟩
    ⟨⟨"..demo", "book.yaml"⟩, ["1"]⟩ _ _ rfl rfl htext
  exact absurd hsame (by decide)

end EntityCatalog.Store
