import EntityCatalog.Text

/-!
# File trees

A path is a root, as it was given, and the names that were put behind it. In a tree of directories and
files a path leads somewhere by its text, which is cut at the slashes: its parts are followed one by
one from the working directory, or from the top for a text that starts with a slash.
-/

namespace EntityCatalog

/-! ## Paths -/

structure FilePath where
  root : String
  names : List String
  deriving DecidableEq, Repr, Inhabited

namespace FilePath

/-- A path given as a whole. -/
def given (root : String) : FilePath := ⟨root, []⟩

/-- The path of an entry of a directory. -/
def entry (p : FilePath) (name : String) : FilePath := { p with names := p.names ++ [name] }

/-- Whether a text leads from the top of a tree. -/
def isAbsolute (text : String) : Bool := text.toList.head? = some '/'

/-- Put a name behind a text, with one slash between them unless the text ends in one or is empty. A
name that leads from the top takes the place of the text. -/
def join (base name : String) : String :=
  if isAbsolute name then name
  else if base.isEmpty || base.toList.getLast? = some '/' then base ++ name
  else base ++ "/" ++ name

def text (p : FilePath) : String := p.names.foldl join p.root

/-- The parts of a text between its slashes. -/
def parts (text : String) : List String :=
  let (first, rest) := Text.splitAll '/' text.toList
  (first :: rest).map String.ofList

end FilePath

/-- Why the file system refuses. -/
inductive IoFault where
  | notFound
  | notADirectory
  | isADirectory
  /-- The bytes of a file are no text. -/
  | invalidData
  /-- A name or a path is too long. -/
  | invalidFilename
  /-- A path holds a NUL. -/
  | invalidInput
  deriving DecidableEq, Repr

def IoFault.name : IoFault → String
  | notFound => "NotFound"
  | notADirectory => "NotADirectory"
  | isADirectory => "IsADirectory"
  | invalidData => "InvalidData"
  | invalidFilename => "InvalidFilename"
  | invalidInput => "InvalidInput"

namespace FilePath

/-- The longest path, in bytes. -/
def maxLength : Nat := 4095

/-- Why a path is refused whatever there is in the tree. -/
def fault? (p : FilePath) : Option IoFault :=
  if p.text.toList.contains '\x00' then some .invalidInput
  else if p.text.isEmpty then some .notFound
  else if maxLength < p.text.utf8ByteSize then some .invalidFilename
  else none

end FilePath

/-! ## Trees -/

/-- What a name stands for in a directory. The entries of a directory are in no particular order. An
entry whose name is no text is passed over wherever a directory is read, so that a tree has none. -/
inductive Node where
  | file (bytes : ByteArray)
  | directory (entries : List (String × Node))
  /-- A link that leads nowhere. It has a name, and whatever goes through it is refused. -/
  | other (fault : IoFault)
  deriving Inhabited

/-- A tree with a working directory, given by the names that lead to it from the top. -/
structure FileTree where
  top : Node
  working : List String
  deriving Inhabited

namespace Node

/-- The entry of a directory with a name. -/
def child? (entries : List (String × Node)) (name : String) : Option Node := entries.lookup name

/-- Put a node at the end of some names, making the directories on the way. -/
def put (node : Node) : List String → Node → Node
  | [], _ => node
  | name :: rest, .directory entries =>
    let here := (child? entries name).getD (.directory [])
    .directory (entries.filter (·.1 != name) ++ [(name, put node rest here)])
  | name :: rest, .file _ | name :: rest, .other _ =>
    .directory [(name, put node rest (.directory []))]

end Node

/-- A node with the directories above it, the nearest first. -/
structure Place where
  node : Node
  above : List Node

namespace Place

/-- The longest name of an entry, in bytes. -/
def maxName : Nat := 255

/-- Follow a name. -/
def step (p : Place) (name : String) : Except IoFault Place :=
  match p.node with
  | .file _ => .error .notADirectory
  | .other fault => .error fault
  | .directory entries =>
    if name = "" || name = "." then .ok p
    else if name = ".." then
      match p.above with
      | [] => .ok p
      | node :: above => .ok ⟨node, above⟩
    else if maxName < name.utf8ByteSize then .error .invalidFilename
    else
      match Node.child? entries name with
      | some node => .ok ⟨node, p.node :: p.above⟩
      | none => .error .notFound

/-- Open what is there. -/
def opened (p : Place) : Except IoFault Place :=
  match p.node with
  | .other fault => .error fault
  | _ => .ok p

end Place

namespace FileTree

/-- Follow the parts of a text. -/
def follow (t : FileTree) (text : String) : Except IoFault Place := do
  let top : Place := ⟨t.top, []⟩
  let start ← if FilePath.isAbsolute text then pure top else t.working.foldlM Place.step top
  (FilePath.parts text).foldlM Place.step start

/-- The place a path leads to. -/
def find (t : FileTree) (p : FilePath) : Except IoFault Place :=
  match p.fault? with
  | some fault => .error fault
  | none => t.follow p.text >>= Place.opened

/-- The text of a file. -/
def read (t : FileTree) (p : FilePath) : Except IoFault String := do
  match (← t.find p).node with
  | .file bytes =>
    match String.fromUTF8? bytes with
    | some text => return text
    | none => throw .invalidData
  | .directory _ => throw .isADirectory
  | .other fault => throw fault

/-- Whether there is something at a path. -/
def hasEntry (t : FileTree) (p : FilePath) : Except IoFault Bool :=
  match t.find p with
  | .ok _ => .ok true
  | .error .notFound => .ok false
  | .error fault => .error fault

/-- The directory at a path. -/
def directory (t : FileTree) (p : FilePath) : Except IoFault Node := do
  match (← t.find p).node with
  | .file _ => throw .notADirectory
  | .other fault => throw fault
  | d => return d

end FileTree

end EntityCatalog
