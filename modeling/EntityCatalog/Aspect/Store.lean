import EntityCatalog.Aspect.Error
import EntityCatalog.Document.JsonText
import EntityCatalog.Document.Yaml.Reader
import EntityCatalog.Request
import EntityCatalog.World

/-!
# Stores

Entities as files below a root. The file of an identifier stands in the directory of its kind, with
the path segments as directories and the last one as the stem of the file's name; without segments
the name of the kind is the stem. `Store.pathFor` refuses an identifier with a part that is no plain
name, so that no entity is read from elsewhere. `Store.list` finds the identifiers of a kind from
the names of directories and files.
-/

namespace EntityCatalog

open Document

structure Store where
  root : String
  format : FileFormat
  /-- Whether there must be a file for an entity that is asked for. -/
  strict : Bool
  deriving DecidableEq, Repr, Inhabited

namespace Store

/-- A name that stands for one entry of a directory and for nothing else. -/
def isPlain (segment : String) : Bool :=
  segment ≠ "" && segment ≠ "." && segment ≠ ".." &&
    segment.toList.all fun c => c ≠ '/' && c ≠ '\\' && c ≠ '\x00'

/-- The name of the file with a stem. -/
def fileName (s : Store) (stem : String) : String := stem ++ "." ++ s.format.name

/-- The directory of a kind. -/
def kindPath (s : Store) (kind : KindId) : FilePath := ⟨s.root, [kind.ns, kind.name]⟩

/-- The names below the root that lead to the file of an identifier. -/
def namesFor (s : Store) (id : EntityId) : List String :=
  match id.paths.getLast? with
  | some last => id.kind.ns :: id.kind.name :: id.paths.dropLast ++ [s.fileName last]
  | none => [id.kind.ns, s.fileName id.kind.name]

/-- The file of an identifier. -/
def pathFor (s : Store) (id : EntityId) : Except AspectError FilePath :=
  match id.parts.find? (!isPlain ·) with
  | some segment => .error (.invalid (.escapes id segment))
  | none => .ok ⟨s.root, s.namesFor id⟩

/-! ## Reading -/

/-- What the text of a file says about an entity. Blank text says nothing. -/
def parse (s : Store) (id : EntityId) (path : FilePath) (text : String) :
    Except AspectError Entity :=
  if Text.allBlank text then .ok (Entity.bare id)
  else
    let report := match s.format with
      | .yaml => Yaml.Tree.decode (Entity.decodeStored id) text
      | .json => Doc.decode (Entity.decodeStored id) text
    report.mapError fun fault => .parse (.stored path fault)

/-- What is stored about an entity, if there is a file. -/
def report? (s : Store) (id : EntityId) : Run (Except AspectError (Option Entity)) :=
  match s.pathFor id with
  | .error e => return .error e
  | .ok path => do
    match ← Run.read path with
    | .ok text => return (s.parse id path text).map some
    | .error .notFound => return .ok none
    | .error fault => return .error (.io path fault)

/-- Add to an entity what is stored about it. -/
def augment (s : Store) (e : Entity) : Run (Attempt AspectError Entity) := do
  match ← s.report? e.id with
  | .error failure => return .failure e failure
  | .ok (some report) => return .success (e.merge report)
  | .ok none =>
    if s.strict then return .failure e (.notFound e.id.text) else return .success e

/-! ## Listing -/

/-- The stem and the extension of a file's name: what stands before and after its last dot. A dot at
the start is part of the stem. -/
def splitName (name : String) : String × Option String :=
  match Text.splitLast '.' name.toList with
  | some ([], _) | none => (name, none)
  | some (stem, extension) => (String.ofList stem, some (String.ofList extension))

/-- The identifier that a file has by its name and by the directories it is in. -/
def idOf? (s : Store) (kind : EntityKind) (segments : List String) (name : String) :
    Option EntityId :=
  let (stem, extension) := splitName name
  if extension = some s.format.name && segments.length + 1 = kind.paths.length then
    some ⟨kind.id, segments ++ [stem]⟩
  else none

/-- A directory that is still to be opened, with the names that led to it from the directory of the
kind. -/
structure Stop where
  path : FilePath
  segments : List String
  entries : List (String × Node)

/-- Go through the entries of a directory. Those that are directories are put on the stack of what is
still to be opened, and of the others the identifiers are found. -/
def scan (s : Store) (kind : EntityKind) (path : FilePath) (segments : List String) :
    List (String × Node) → List Stop → List EntityId → List Stop × List EntityId
  | [], pending, found => (pending, found)
  | (name, .directory entries) :: rest, pending, found =>
    scan s kind path segments rest (⟨path.entry name, segments ++ [name], entries⟩ :: pending) found
  | (name, .file _) :: rest, pending, found | (name, .other _) :: rest, pending, found =>
    scan s kind path segments rest pending (found ++ (s.idOf? kind segments name).toList)

mutual

/-- How many directories there are in a tree. -/
def size : Node → Nat
  | .directory entries => sizeBelow entries + 1
  | .file _ | .other _ => 0

/-- How many directories there are below some entries. -/
def sizeBelow : List (String × Node) → Nat
  | [] => 0
  | (_, node) :: rest => size node + sizeBelow rest

end

/-- How many directories are still to be opened. -/
def ahead : List Stop → Nat
  | [] => 0
  | stop :: pending => sizeBelow stop.entries + 1 + ahead pending

theorem ahead_scan (s : Store) (kind : EntityKind) (path : FilePath) (segments : List String)
    (entries : List (String × Node)) (pending : List Stop) (found : List EntityId) :
    ahead (s.scan kind path segments entries pending found).1 = ahead pending + sizeBelow entries := by
  fun_induction scan s kind path segments entries pending found with
  | case1 => simp [sizeBelow]
  | case2 name entries rest pending found ih =>
    rw [ih]
    simp only [ahead, sizeBelow, size]
    omega
  | case3 name bytes rest pending found ih => rw [ih, sizeBelow, size, Nat.zero_add]
  | case4 name fault rest pending found ih => rw [ih, sizeBelow, size, Nat.zero_add]

/-- Open the directories on the stack, and those that are put there, and gather the identifiers of what
is in them. -/
def explore (s : Store) (kind : EntityKind) (pending : List Stop) (found : List EntityId) :
    Run (Except AspectError (List EntityId)) :=
  match pending with
  | [] => return .ok found
  | stop :: pending => do
    Run.note (.enter stop.path)
    match stop.path.fault? with
    | some fault => return .error (.io stop.path fault)
    | none =>
      let scanned := s.scan kind stop.path stop.segments stop.entries pending found
      explore s kind scanned.1 scanned.2
termination_by ahead pending
decreasing_by
  rw [ahead_scan]
  simp only [ahead]
  omega

/-- The identifiers of all files below the directory of a kind. There need not be that directory. -/
def walk (s : Store) (kind : EntityKind) : Run (Except AspectError (List EntityId)) := do
  let base := s.kindPath kind.id
  match ← Run.enter base with
  | .error .notFound => return .ok []
  | .error fault => return .error (.io base fault)
  | .ok (.directory entries) =>
    let scanned := s.scan kind base [] entries [] []
    s.explore kind scanned.1 scanned.2
  | .ok (.file _) | .ok (.other _) => return .ok []

/-- The identifier of a kind without path segments, if it has a file. -/
def single (s : Store) (kind : EntityKind) : Run (Except AspectError (List EntityId)) :=
  let id : EntityId := ⟨kind.id, []⟩
  match s.pathFor id with
  | .error e => return .error e
  | .ok path => do
    match ← Run.probe path with
    | .ok true => return .ok [id]
    | .ok false => return .ok []
    | .error fault => return .error (.io path fault)

/-- Append the entities of a kind in ascending order of their identifiers. -/
def list (s : Store) (kind : EntityKind) (before : List Entity) :
    Run (Attempt AspectError (List Entity)) := do
  match ← if kind.paths.isEmpty then s.single kind else s.walk kind with
  | .error failure => return .failure before failure
  | .ok ids => return .success (before ++ (EntityId.sort ids).map Entity.bare)

end Store

end EntityCatalog
