import EntityCatalog.Declaration
import EntityCatalog.Document.JsonText
import EntityCatalog.Document.Yaml.Reader
import EntityCatalog.Files.Tree

/-!
# Repositories

The kinds, and the types, of a model in the order of their declaration. `add` refuses an identifier
that is held already, a kind whose path names are not distinct and not empty, and a type with a blank
name.
-/

namespace EntityCatalog

open Document

/-- Why declarations are refused. -/
inductive DeclarationError where
  | malformed (fault : Fault)
  | unreadable (path : FilePath) (fault : IoFault)
  | duplicate (text : String)
  | missingField (id field : String)
  deriving DecidableEq, Repr

/-- The message; broken syntax has none. -/
def DeclarationError.message? : DeclarationError → Option String
  | malformed fault => fault.reason?
  | unreadable path fault => some ("Failed to read " ++ path.text ++ ": " ++ fault.name)
  | duplicate text => some ("Duplicate identifier: " ++ text)
  | missingField id field => some ("Missing " ++ field ++ " in " ++ id)

/-- Read a model document, a record with one list. A document without the list has none. -/
def decodeModel {ν α : Type} [Source ν] (name : String) (read : ν → Except Fault α) :
    ν → Except Fault (List α) :=
  readRecord [.defaulted name (readList read) fun l _ => l] false []

/-- Read a model file. -/
def readModel (files : FileTree) (path : FilePath) : Except DeclarationError String :=
  (files.read path).mapError (.unreadable path)

/-! ## Kinds -/

structure KindRepository where
  kinds : List EntityKind
  deriving DecidableEq, Repr, Inhabited

namespace KindRepository

def empty : KindRepository := ⟨[]⟩

def get? (r : KindRepository) (id : KindId) : Option EntityKind := r.kinds.find? (·.id == id)

def size (r : KindRepository) : Nat := r.kinds.length

def isEmpty (r : KindRepository) : Bool := r.kinds.isEmpty

/-- The first path name that is empty or that occurs before. -/
def checkPaths (id : String) : List String → List String → Except DeclarationError Unit
  | _, [] => .ok ()
  | seen, name :: rest =>
    if name = "" then .error (.missingField id "path name")
    else if name ∈ seen then .error (.duplicate (id ++ "/\x7b" ++ name ++ "\x7d"))
    else checkPaths id (name :: seen) rest

/-- Append a kind. -/
def add (r : KindRepository) (k : EntityKind) : Except DeclarationError KindRepository :=
  if (r.get? k.id).isSome then .error (.duplicate k.id.text)
  else do
    checkPaths k.id.text [] k.paths
    return ⟨r.kinds ++ [k]⟩

def ofList (kinds : List EntityKind) : Except DeclarationError KindRepository :=
  kinds.foldlM add empty

/-- The kinds of a model document. -/
def parse (text : String) : Except DeclarationError KindRepository := do
  ofList (← (Yaml.Tree.decode (decodeModel "kinds" EntityKind.decode) text).mapError .malformed)

def load (files : FileTree) (path : FilePath) : Except DeclarationError KindRepository := do
  parse (← readModel files path)

end KindRepository

/-! ## Types -/

structure TypeRepository where
  types : List TypeDecl
  deriving DecidableEq, Repr, Inhabited

namespace TypeRepository

def empty : TypeRepository := ⟨[]⟩

def get? (r : TypeRepository) (name : String) : Option TypeDecl := r.types.find? (·.name == name)

def size (r : TypeRepository) : Nat := r.types.length

def isEmpty (r : TypeRepository) : Bool := r.types.isEmpty

/-- Append a type. -/
def add (r : TypeRepository) (t : TypeDecl) : Except DeclarationError TypeRepository :=
  if Text.allBlank t.name then .error (.missingField "<type>" "name")
  else if (r.get? t.name).isSome then .error (.duplicate t.name)
  else .ok ⟨r.types ++ [t]⟩

def ofList (types : List TypeDecl) : Except DeclarationError TypeRepository :=
  types.foldlM add empty

/-- The types of a model document. -/
def parse (text : String) : Except DeclarationError TypeRepository := do
  ofList (← (Yaml.Tree.decode (decodeModel "types" TypeDecl.decode) text).mapError .malformed)

def load (files : FileTree) (path : FilePath) : Except DeclarationError TypeRepository := do
  parse (← readModel files path)

end TypeRepository

end EntityCatalog
