import EntityCatalog.CommandLine.Execution
import Std.Time.DateTime.Timestamp

/-!
# The command

Reads what the model, the types and the configuration of an invocation need of the file system, and
the clock, and prints the outcome of `CommandLine.run`. There is no network: every remote is out of
reach.
-/

namespace EntityCatalog.CommandLine

open Time (Instant)

def namesOf (path : String) : List String :=
  let (first, rest) := Text.splitAll '/' path.toList
  ((first :: rest).map String.ofList).filter fun n => n ≠ "" && n ≠ "."

/-- Names without steps back. -/
def withoutSteps (names : List String) : List String :=
  names.foldl (fun l n => if n = ".." then l.dropLast else l ++ [n]) []

/-- The file or directory at a path. -/
partial def snapshot (path : String) : IO (Option Node) := do
  let place := (← IO.currentDir) / path
  if ← place.isDir then
    let found ← (← place.readDir).toList.mapM fun entry => do
      let node? ← snapshot (FilePath.join path entry.fileName)
      return (entry.fileName, node?.getD (.other .notFound))
    return some (.directory found)
  else if ← place.pathExists then return some (.file (← IO.FS.readBinFile place))
  else return none

/-- Put a node into a tree unless something is there. -/
def putNew (tree : FileTree) (names : List String) (node : Node) : FileTree :=
  match tree.find (.given ("/" ++ String.intercalate "/" names)) with
  | .ok _ => tree
  | .error _ => { tree with top := Node.put node names tree.top }

/-- Take what a path leads to into a tree, with the directories on the way. -/
def gather (tree : FileTree) (path : String) : IO FileTree := do
  let isAbsolute := FilePath.isAbsolute path
  let start := if isAbsolute then [] else tree.working
  let base := if isAbsolute then "/" else ""
  let names := namesOf path
  let mut tree := tree
  for n in List.range names.length do
    let before := names.take n
    let place := (← IO.currentDir) / (base ++ String.intercalate "/" before)
    if ← place.isDir then
      tree := putNew tree (withoutSteps (start ++ before)) (.directory [])
  match ← snapshot path with
  | some node =>
    return { tree with top := Node.put node (withoutSteps (start ++ names)) tree.top }
  | none => return tree

/-- The roots of the stores that kinds declare. -/
def storeRoots (kinds : KindRepository) : List String :=
  kinds.kinds.flatMap fun k => k.connectors.filterMap fun c => match c with
    | .store root _ => some (if root.isEmpty then "." else root)
    | _ => none

/-- The files that an invocation needs. -/
def filesFor (i : Invocation) : IO FileTree := do
  let working := namesOf (← IO.currentDir).toString
  let top := Node.put (.directory []) working (.directory [])
  let mut tree : FileTree := ⟨top, working⟩
  for path in i.model :: (i.types.toList ++ i.config.toList) do
    tree ← gather tree path
  match KindRepository.load tree (.given i.model) with
  | .error _ => return tree
  | .ok kinds => (storeRoots kinds).foldlM gather tree

def present : IO Instant := do
  let nanos := (← Std.Time.Timestamp.now).toNanosecondsSinceUnixEpoch.val
  let seconds := nanos / Instant.nanosPerSecond
  return ⟨seconds / Instant.secondsPerDay, (seconds % Instant.secondsPerDay).toNat,
    (nanos % Instant.nanosPerSecond).toNat⟩

/-- The variables that stand in for options. -/
def optionVariables : IO (List (String × String)) :=
  ["KINDRED_MODEL", "KINDRED_TYPES", "KINDRED_CONFIG"].filterMapM fun name => do
    return (← IO.getEnv name).map fun v => (name, v)

end EntityCatalog.CommandLine

open EntityCatalog CommandLine in
def main (args : List String) : IO UInt32 := do
  let vars ← optionVariables
  let files ← match readInvocation args vars with
    | some i => filesFor i
    | none => pure default
  let now ← present
  let outcome := CommandLine.run args vars .empty ⟨files, fun _ _ => none, fun _ => now⟩
  IO.print outcome.output
  match outcome.failure? with
  | some message => IO.eprintln ("Error: " ++ message)
  | none => pure ()
  return outcome.status.toUInt32
