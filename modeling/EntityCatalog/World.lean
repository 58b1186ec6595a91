import EntityCatalog.Files.Tree
import EntityCatalog.Json.Value
import EntityCatalog.Schema.Registry
import EntityCatalog.Time.Instant

/-!
# The world outside

Requests are answered from files, from remote servers and with a clock. `World` says how these
behave, `Access` is one look at them, and a `Run` is a computation that keeps a journal of its
accesses. How a remote answers may depend on what it was sent before, and the journal tells.

A handle stands for a type registry that need not exist yet. `Bindings` holds a cell for every
handle that was made; a cell is bound at most once, and copies of a handle share the cell.
-/

namespace EntityCatalog

open Json (Value)
open Time (Instant)

/-- A request to a remote server. -/
structure Post where
  url : String
  body : Value
  deriving Repr, Inhabited

/-- An answer of a remote server. -/
structure Reply where
  status : Nat
  body : String
  deriving DecidableEq, Repr, Inhabited

inductive Access where
  /-- A file is read. -/
  | read (path : FilePath)
  /-- Somebody looks whether there is a file. -/
  | probe (path : FilePath)
  /-- A directory is opened. -/
  | enter (path : FilePath)
  | post (post : Post)
  | clock
  /-- An extension is asked, by its name. -/
  | ask (extension : String)

/-- Accesses in the order in which they happened. -/
abbrev Journal := List Access

namespace Journal

/-- What was sent to remote servers. -/
def posts (j : Journal) : List Post :=
  j.filterMap fun a => match a with
    | .post p => some p
    | _ => none

/-- How often the clock was read. -/
def readings (j : Journal) : Nat :=
  (j.filter fun a => match a with
    | .clock => true
    | _ => false).length

end Journal

structure World where
  files : FileTree
  /-- The answer to a request after earlier ones; `none` when the transfer fails. -/
  remote : List Post → Post → Option Reply
  /-- The instant of each reading. -/
  clock : Nat → Instant

/-! ## Handles -/

structure Handle where
  cell : Nat
  deriving DecidableEq, Repr, Inhabited

structure Bindings where
  cells : List (Option TypeRegistry)
  deriving Inhabited

namespace Bindings

def empty : Bindings := ⟨[]⟩

/-- Make a handle that is not bound. -/
def make (b : Bindings) : Handle × Bindings := (⟨b.cells.length⟩, ⟨b.cells ++ [none]⟩)

/-- The registry a handle is bound to. -/
def types? (b : Bindings) (h : Handle) : Option TypeRegistry := (b.cells[h.cell]?).join

def isBound (b : Bindings) (h : Handle) : Bool := (b.types? h).isSome

/-- Bind a handle. Answers whether it was free. -/
def bind (b : Bindings) (h : Handle) (r : TypeRegistry) : Bool × Bindings :=
  if b.cells[h.cell]? = some none then (true, ⟨b.cells.set h.cell (some r)⟩) else (false, b)

/-- What is shown of a handle. -/
def describe (b : Bindings) (h : Handle) : String :=
  "ProviderHandle \x7b bound: " ++ (if b.isBound h then "true" else "false") ++ " \x7d"

end Bindings

/-- What a request is answered with: the world, and what handles are bound to. -/
structure Env where
  world : World
  bindings : Bindings

/-! ## Runs -/

/-- A computation that looks at the world and notes every access in a journal. -/
def Run (α : Type) : Type := Env → Journal → α × Journal

namespace Run

def pure {α : Type} (a : α) : Run α := fun _ j => (a, j)

def bind {α β : Type} (m : Run α) (f : α → Run β) : Run β := fun env j =>
  match m env j with
  | (a, j) => f a env j

instance : Monad Run where
  pure := Run.pure
  bind := Run.bind

@[simp] theorem pure_apply {α : Type} (a : α) (env : Env) (j : Journal) :
    (Pure.pure a : Run α) env j = (a, j) := rfl

@[simp] theorem bind_apply {α β : Type} (m : Run α) (f : α → Run β) (env : Env) (j : Journal) :
    (m >>= f) env j = f (m env j).1 env (m env j).2 := rfl

instance : LawfulMonad Run :=
  LawfulMonad.mk' Run (fun _ => rfl) (fun _ _ => rfl) (fun _ _ _ => rfl)

def env : Run Env := fun e j => (e, j)

/-- The accesses so far. -/
def journal : Run Journal := fun _ j => (j, j)

/-- Note an access. -/
def note (a : Access) : Run Unit := fun _ j => ((), j ++ [a])

/-! ## Looking at the world -/

/-- Read a file. -/
def read (path : FilePath) : Run (Except IoFault String) := do
  note (.read path)
  return (← env).world.files.read path

/-- Look whether there is a file or directory. -/
def probe (path : FilePath) : Run (Except IoFault Bool) := do
  note (.probe path)
  return (← env).world.files.hasEntry path

/-- Open a directory. -/
def enter (path : FilePath) : Run (Except IoFault Node) := do
  note (.enter path)
  return (← env).world.files.directory path

/-- Send a request to a remote server. -/
def post (p : Post) : Run (Option Reply) := do
  let before ← journal
  note (.post p)
  return (← env).world.remote before.posts p

def now : Run Instant := do
  let before ← journal
  note .clock
  return (← env).world.clock before.readings

end Run

end EntityCatalog
