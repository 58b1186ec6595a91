import EntityCatalog.Proofs.Collection
import EntityCatalog.Proofs.Repository
import Mathlib.Data.List.Induction

/-!
# Additions to a model

Kinds and types are added in place, and all checks of an addition come before its one change. Of the faults of
a kind, that its identifier is held comes first, then the first bad path name (`KindRepository.add_settles`); of
the faults of a type, a blank name comes first (`TypeRepository.add_settles`). So repositories hold the
accepted declarations, which are valid, whatever else was attempted (`repositories_sound`).
-/

namespace EntityCatalog

/-! ## Kinds -/

namespace KindRepository

/-- Names of which none is empty or repeated. -/
def Distinct (names : List String) : Prop := "" ∉ names ∧ names.Nodup

/-- What is reported of path names: the first that is empty, or that occurs before. -/
inductive PathFault (id : String) (names : List String) : DeclarationError → Prop
  | unnamed {before after : List String} (hnames : names = before ++ "" :: after)
      (hbefore : Distinct before) : PathFault id names (.missingField id "path name")
  | repeated {before after : List String} {name : String} (hnames : names = before ++ name :: after)
      (hbefore : Distinct before) (hname : name ∈ before) :
      PathFault id names (.duplicate (id ++ "/\x7b" ++ name ++ "\x7d"))

/-- Why a kind is not added. -/
inductive Refused (r : KindRepository) (k : EntityKind) : DeclarationError → Prop
  | held (hheld : ∃ held ∈ r.kinds, held.id = k.id) : Refused r k (.duplicate k.id.text)
  | path {e : DeclarationError} (hfree : ∀ held ∈ r.kinds, held.id ≠ k.id)
      (hpath : PathFault k.id.text k.paths e) : Refused r k e

/-- Append a kind in place. -/
def put (k : EntityKind) : Call DeclarationError KindRepository Unit := do
  if ((← get).get? k.id).isSome then throw (.duplicate k.id.text)
  ofExcept (checkPaths k.id.text [] k.paths)
  modify fun r => ⟨r.kinds ++ [k]⟩

def collection : Collection KindRepository EntityKind KindId DeclarationError :=
  { empty, put, ofList, items := kinds, key := (·.id), find? := get? }

/-! ### Path names -/

/-- A name that is not empty, and different from others. -/
def Fresh (others : List String) (name : String) : Prop := name ≠ "" ∧ name ∉ others

/-- What is reported of a name beside others. -/
def NameFault (id : String) (others : List String) (name : String) (e : DeclarationError) : Prop :=
  name = "" ∧ e = .missingField id "path name" ∨
    name ≠ "" ∧ name ∈ others ∧ e = .duplicate (id ++ "/\x7b" ++ name ++ "\x7d")

/-- One step of the scan of path names. -/
def checkName (id : String) (seen : List String) (name : String) : Except DeclarationError Unit :=
  if name = "" then .error (.missingField id "path name")
  else if name ∈ seen then .error (.duplicate (id ++ "/\x7b" ++ name ++ "\x7d"))
  else .ok ()

section paths
variable {id name : String} {names : List String} {e : DeclarationError}

theorem each_fresh_iff : EachIn Fresh names ↔ Distinct names := by
  induction names using List.reverseRecOn with
  | nil => simp [eachIn_nil, Distinct]
  | append_singleton names name ih =>
    have hlast : EachIn (fun before => Fresh (names ++ before)) [name] ↔ Fresh names name := by
      simp [eachIn_cons, eachIn_nil]
    rw [eachIn_append, ih, hlast, Distinct, Distinct, Fresh, List.nodup_append_comm, List.singleton_append,
      List.nodup_cons, List.mem_append, List.mem_singleton]
    tauto

theorem pathFault_iff : PathFault id names e ↔
    FirstIn Fresh (fun before name => NameFault id before name e) names := by
  constructor
  · rintro (⟨hnames, hbefore⟩ | ⟨hnames, hbefore, hname⟩)
    · exact ⟨_, _, _, hnames, each_fresh_iff.2 hbefore, .inl ⟨rfl, rfl⟩⟩
    · refine ⟨_, _, _, hnames, each_fresh_iff.2 hbefore, .inr ⟨?_, hname, rfl⟩⟩
      rintro rfl
      exact hbefore.1 hname
  · rintro ⟨before, name, after, hnames, hbefore, ⟨rfl, rfl⟩ | ⟨-, hmem, rfl⟩⟩
    · exact .unnamed hnames (each_fresh_iff.1 hbefore)
    · exact .repeated hnames (each_fresh_iff.1 hbefore) hmem

theorem checkPaths_cons (id name : String) (names seen : List String) : checkPaths id seen (name :: names) =
    (checkName id seen name >>= fun _ => checkPaths id (name :: seen) names) := by
  rw [checkPaths, checkName]
  split
  · rfl
  · split <;> rfl

theorem checkName_settles (id : String) (seen : List String) (name : String) :
    Settles (checkName id seen name) (Fresh seen name) (NameFault id seen name) := by
  have hok : Settles (.ok () : Except DeclarationError Unit) True fun _ => False := .success trivial nofun
  refine (Settles.guard _ fun _ => .guard _ fun _ => hok).congr ?_ fun e => ?_
  · rw [and_true, Fresh]
  · rw [and_false, or_false, NameFault]

/-- Names are judged beside those in front of them and those seen before. -/
theorem checkPaths_settles_beside (id : String) (seen names : List String) :
    Settles (checkPaths id seen names) (EachIn (fun before => Fresh (before ++ seen)) names)
      (fun e => FirstIn (fun before => Fresh (before ++ seen))
        (fun before name => NameFault id (before ++ seen) name e) names) := by
  induction names generalizing seen with
  | nil => exact .success eachIn_nil fun _ => firstIn_nil
  | cons name names ih =>
    -- it does not matter to a later name whether this one stands in front of it or was seen
    have hfresh (before : List String) : Fresh (before ++ name :: seen) = Fresh (name :: before ++ seen) := by
      funext other
      simp [Fresh, or_left_comm]
    have hfault (before : List String) :
        NameFault id (before ++ name :: seen) = NameFault id (name :: before ++ seen) := by
      funext other e
      simp [NameFault, or_left_comm]
    rw [checkPaths_cons]
    refine ((checkName_settles id seen name).seq fun _ _ => ih (name :: seen)).congr ?_ fun e => ?_
    · rw [eachIn_cons, List.nil_append]
      simp only [hfresh]
    · rw [firstIn_cons, List.nil_append]
      simp only [hfresh, hfault]

theorem checkPaths_settles (id : String) (names : List String) :
    Settles (checkPaths id [] names) (Distinct names) (PathFault id names) := by
  have h := checkPaths_settles_beside id [] names
  simp only [List.append_nil] at h
  exact h.congr each_fresh_iff fun e => pathFault_iff.symm

theorem pathFault_ne_duplicate : ¬ PathFault id names (.duplicate id) := by
  intro h
  generalize hid : DeclarationError.duplicate id = e at h
  cases h with
  | unnamed => cases hid
  | @repeated before after name =>
    have hlength := congrArg String.length (DeclarationError.duplicate.inj hid)
    have hslash : "/\x7b".length = 2 := rfl
    simp only [String.length_append, hslash] at hlength
    omega

end paths

/-! ### Kinds in place -/

theorem get?_isSome_iff (r : KindRepository) (id : KindId) :
    (r.get? id).isSome ↔ ∃ held ∈ r.kinds, held.id = id := by
  simp [get?]

theorem add_settles (r : KindRepository) (k : EntityKind) :
    Settles (r.add k) (Distinct k.paths ∧ ∀ held ∈ r.kinds, held.id ≠ k.id) (Refused r k) := by
  have hpaths := (checkPaths_settles k.id.text k.paths).returning fun _ => KindRepository.mk (r.kinds ++ [k])
  unfold add
  refine (Settles.guard _ fun _ => hpaths).congr ?_ fun e => ?_
  · rw [get?_isSome_iff, and_comm]
    push Not
    rfl
  · rw [get?_isSome_iff]
    push Not
    constructor
    · rintro (⟨hheld, rfl⟩ | ⟨hfree, hpath⟩)
      · exact .held hheld
      · exact .path hfree hpath
    · rintro (hheld | ⟨hfree, hpath⟩)
      · exact .inl ⟨hheld, rfl⟩
      · exact .inr ⟨hfree, hpath⟩

theorem adds : collection.Adds add where
  put k r := by
    change (put k).on r = _
    rw [put, Call.get_bind, add]
    split
    · rfl
    · cases checkPaths k.id.text [] k.paths <;> rfl
  ofList _ := rfl
  items_empty := rfl
  items_add := kinds_of_add
  find? _ _ := rfl

theorem refused_duplicate_iff (r : KindRepository) (k : EntityKind) :
    Refused r k (.duplicate k.id.text) ↔ ∃ held ∈ r.kinds, held.id = k.id := by
  constructor
  · intro h
    cases h with
    | held hheld => exact hheld
    | path _ hpath => exact absurd hpath pathFault_ne_duplicate
  · exact .held

end KindRepository

/-! ## Types -/

namespace TypeRepository

/-- Why a type is not added. -/
inductive Refused (r : TypeRepository) (t : TypeDecl) : DeclarationError → Prop
  | blank (hblank : Text.allBlank t.name = true) : Refused r t (.missingField "<type>" "name")
  | held (hname : Text.allBlank t.name = false) (hheld : ∃ held ∈ r.types, held.name = t.name) :
      Refused r t (.duplicate t.name)

/-- Append a type in place. -/
def put (t : TypeDecl) : Call DeclarationError TypeRepository Unit := do
  if Text.allBlank t.name then throw (.missingField "<type>" "name")
  if ((← get).get? t.name).isSome then throw (.duplicate t.name)
  modify fun r => ⟨r.types ++ [t]⟩

def collection : Collection TypeRepository TypeDecl String DeclarationError :=
  { empty, put, ofList, items := types, key := (·.name), find? := get? }

variable {r r' : TypeRepository} {t : TypeDecl}

theorem types_of_add (h : r.add t = .ok r') : r'.types = r.types ++ [t] := by
  unfold add at h
  split at h
  · cases h
  · split at h
    · cases h
    · cases h
      rfl

theorem get?_isSome_iff (r : TypeRepository) (name : String) :
    (r.get? name).isSome ↔ ∃ held ∈ r.types, held.name = name := by
  simp [get?]

theorem add_settles (r : TypeRepository) (t : TypeDecl) :
    Settles (r.add t) (Text.allBlank t.name = false ∧ ∀ held ∈ r.types, held.name ≠ t.name) (Refused r t) := by
  have hok : Settles (.ok ⟨r.types ++ [t]⟩ : Except DeclarationError TypeRepository) True fun _ => False :=
    .success trivial nofun
  refine (Settles.guard _ fun _ => .guard _ fun _ => hok).congr ?_ fun e => ?_
  · rw [get?_isSome_iff, Bool.not_eq_true, and_true]
    push Not
    rfl
  · rw [get?_isSome_iff, Bool.not_eq_true, and_false, or_false]
    constructor
    · rintro (⟨hblank, rfl⟩ | ⟨hname, hheld, rfl⟩)
      · exact .blank hblank
      · exact .held hname hheld
    · rintro (hblank | ⟨hname, hheld⟩)
      · exact .inl ⟨hblank, rfl⟩
      · exact .inr ⟨hname, hheld, rfl⟩

theorem adds : collection.Adds add where
  put t r := by
    change (put t).on r = _
    rw [put, add]
    split
    · rfl
    · dsimp only
      rw [Call.get_bind]
      split <;> rfl
  ofList _ := rfl
  items_empty := rfl
  items_add := types_of_add
  find? _ _ := rfl

theorem refused_duplicate_iff (hvalid : ∀ held ∈ r.types, Text.allBlank held.name = false) (t : TypeDecl) :
    Refused r t (.duplicate t.name) ↔ ∃ held ∈ r.types, held.name = t.name := by
  constructor
  · intro h
    cases h with
    | held _ hheld => exact hheld
  · rintro ⟨held, hmem, hname⟩
    exact .held (hname ▸ hvalid held hmem) ⟨held, hmem, hname⟩

end TypeRepository

/-! ## Both -/

/-- **Repositories hold valid declarations only**, whatever was attempted. After any additions of kinds,
accepted or not, the accepted kinds are held in the order of the calls, under distinct identifiers and with
path names that are distinct and not empty, and each is found under its identifier, and nothing else. A
further addition that fails leaves the repository as it is; it fails first for an identifier that is held, and
then for the first path name that is empty or repeated. A list of kinds is taken if every addition succeeds,
and else refused for the first that fails. It is the same with types, whose names are not blank. -/
theorem repositories_sound :
    (KindRepository.collection.Adds KindRepository.add ∧
      ∀ kinds, KindRepository.collection.Sound (fun k => KindRepository.Distinct k.paths)
        KindRepository.Refused (fun k => .duplicate k.id.text) kinds) ∧
    TypeRepository.collection.Adds TypeRepository.add ∧
      ∀ types, TypeRepository.collection.Sound (fun t => Text.allBlank t.name = false)
        TypeRepository.Refused (fun t => .duplicate t.name) types := by
  refine ⟨⟨KindRepository.adds, ?_⟩, TypeRepository.adds, ?_⟩
  · exact KindRepository.adds.sound KindRepository.add_settles fun r k _ =>
      KindRepository.refused_duplicate_iff r k
  · exact TypeRepository.adds.sound TypeRepository.add_settles fun r t hvalid =>
      TypeRepository.refused_duplicate_iff hvalid t

/-! ### Books and authors -/

/-- A kind with path names. -/
def pathed (name : String) (paths : List String) : EntityKind := { EntityKind.bare ⟨"demo", name⟩ with paths }

/-- Books, books again, authors with a repeated path name in front of an empty one and the other way round, and
at last authors. -/
def attemptedKinds : List EntityKind :=
  [pathed "book" ["isbn"], pathed "book" ["", ""], pathed "author" ["name", "name", ""],
    pathed "author" ["name", "", "name"], pathed "author" ["name"]]

/-- The first books and the last authors are held. All kinds at once are refused for the second books. -/
theorem repositories_sound_authors :
    KindRepository.collection.outcomes attemptedKinds =
      [.ok (), .error (.duplicate "demo.book"), .error (.duplicate "demo.author/\x7bname\x7d"),
        .error (.missingField "demo.author" "path name"), .ok ()] ∧
    (KindRepository.collection.left attemptedKinds).kinds = [pathed "book" ["isbn"], pathed "author" ["name"]] ∧
    (KindRepository.collection.left attemptedKinds).get? ⟨"demo", "book"⟩ = some (pathed "book" ["isbn"]) ∧
    KindRepository.ofList attemptedKinds = .error (.duplicate "demo.book") := by
  have hsound := repositories_sound.1.2 attemptedKinds
  have houtcomes : KindRepository.collection.outcomes attemptedKinds =
      [.ok (), .error (.duplicate "demo.book"), .error (.duplicate "demo.author/\x7bname\x7d"),
        .error (.missingField "demo.author" "path name"), .ok ()] := by decide
  have hkinds : (KindRepository.collection.left attemptedKinds).kinds =
      [pathed "book" ["isbn"], pathed "author" ["name"]] := by
    have hlisted := hsound.listed
    rw [houtcomes] at hlisted
    exact hlisted
  have hbook : pathed "book" ["isbn"] ∈ (KindRepository.collection.left attemptedKinds).kinds := by
    rw [hkinds]
    exact List.mem_cons_self
  exact ⟨houtcomes, hkinds, (hsound.found _ _).2 ⟨hbook, rfl⟩,
    (hsound.ofList_error _).2 ⟨[.ok ()], _, houtcomes, by simp⟩⟩

end EntityCatalog
