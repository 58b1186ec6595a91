import EntityCatalog.Document.Source
import EntityCatalog.Document.Yaml.Node
import EntityCatalog.Document.Yaml.Resolve

/-!
# Reading YAML

A `Tree` as a `Source`: what its node answers to a reader. An alias stands for the node that bears
its anchor. A text without a document, and a value that is not written, read as an empty list or
record. `Tree.decode` reads a whole text.
-/

namespace EntityCatalog.Document.Yaml

open Json (Value)

/-! ## Tags -/

/-- The tags with a form of their own. -/
inductive CoreTag where
  | bool
  | int
  | float
  | null
  deriving DecidableEq

def coreTag? (tag : String) : Option CoreTag :=
  if tag = "tag:yaml.org,2002:bool" then some .bool
  else if tag = "tag:yaml.org,2002:int" then some .int
  else if tag = "tag:yaml.org,2002:float" then some .float
  else if tag = "tag:yaml.org,2002:null" then some .null
  else none

/-- The name of a tag that is not one of the standard. -/
def ownTag? (tag : Option String) : Option String :=
  tag.bind fun t => match t.toList with
    | '!' :: rest => some (String.ofList rest)
    | _ => none

/-- The value of a scalar with a core tag; the text must have the form that the tag asks for. -/
def CoreTag.value : CoreTag → String → Except Fault Value
  | bool, s => match boolWord? s with
    | some b => .ok (.bool b)
    | none => .error .wrongValue
  | int, s => match integerValue s with
    | .ok v => .ok v
    | .error .tooWide => .error .malformed
    | .error .otherForm => .error .wrongValue
  | float, s => match realValue s with
    | some v => .ok v
    | none => .error .wrongValue
  | null, s => if isNullWord s then .ok .null else .error .wrongValue

/-- A scalar in free data. -/
def scalarValue (s : String) (tag : Option String) (style : Style) : Except Fault Value :=
  match tag with
  | some t =>
    match ownTag? tag, coreTag? t with
    | some _, _ => .error .wrongType
    | none, some core => core.value s
    | none, none => .ok (.string s)
  | none =>
    if style = .plain then
      match plainValue s with
      | .ok v => .ok v
      | .error _ => .error .malformed
    else .ok (.string s)

/-- The fault of a scalar where another type is wanted. -/
def scalarMismatch (s : String) (tag : Option String) : Fault :=
  match tag.bind coreTag? with
  | some core => match core.value s with
    | .error .wrongValue => .wrongValue
    | _ => .wrongType
  | none => .wrongType

/-- Whether a scalar may stand for a value with the tag `core`. -/
def admits (core : CoreTag) (tag : Option String) (style : Style) : Bool :=
  style = .plain || (style = .literal && tag.bind coreTag? = some core)

/-! ## Free data -/

/-- The node that a node stands for. The state counts the aliases that may still be followed. -/
def follow (marks : List Mark) : Node → StateT Nat (Except Fault) Node
  | .alias number => do
    match ← get with
    | 0 => throw .malformed
    | left + 1 =>
      set left
      return Node.marked marks number
  | n => return n

/-- The text of a key in free data; an alias gives the key with its anchor. -/
def keyText (marks : List Mark) (k : Node) : Except Fault String :=
  match (match k with
      | .alias number => Node.marked marks number
      | _ => k) with
  | .scalar s _ _ => .ok s
  | .sequence .. | .mapping .. => .error .wrongType
  | _ => .error .malformed

/-- The value of a node that is no alias. `part?` gives the values of the nodes in it, unless these are
nested too deeply. -/
def contentOf (marks : List Mark) (part? : Option (Node → StateT Nat (Except Fault) Value)) :
    Node → StateT Nat (Except Fault) Value
  | .scalar s tag style => liftM (scalarValue s tag style)
  | .void => return .null
  | .cut | .alias _ => throw .malformed
  | .sequence tag items =>
    match part? with
    | none => throw .malformed
    | some part => do
      if (ownTag? tag).isSome then throw .wrongType
      return .array (← items.mapM part)
  | .mapping tag entries =>
    match part? with
    | none => throw .malformed
    | some part => do
      if (ownTag? tag).isSome then throw .wrongType
      let members ← entries.mapM fun (k, v) => do
        let key ← liftM (keyText marks k)
        return (key, ← part v)
      return .ofMembers members

/-- The value of a node, within a nesting of `depth`. The state counts the aliases that may still
be followed. -/
def valueOf (marks : List Mark) : Nat → Node → StateT Nat (Except Fault) Value
  | 0, n => do contentOf marks none (← follow marks n)
  | depth + 1, n => do contentOf marks (some (valueOf marks depth)) (← follow marks n)

/-! ## Trees -/

namespace Tree

/-- The tree of a part of a node. -/
def part (t : Tree) (n : Node) : Tree := { t with node := n, depth := t.depth - 1 }

/-- The node of a tree; an alias gives the node with its anchor. -/
def target (t : Tree) : Node :=
  match t.node with
  | .alias number => Node.marked t.marks number
  | n => n

/-- The fault of a node that is not of the type wanted. -/
def mismatch : Node → Fault
  | .scalar s tag _ => scalarMismatch s tag
  | .sequence .. | .mapping .. => .wrongType
  | .alias _ | .void | .cut => .malformed

/-- A value that is not written. -/
def isUnwritten : Node → Bool
  | .scalar s _ style => s.isEmpty && style = .plain
  | .void => true
  | _ => false

/-- Whether a scalar can be the content of a variant without content. -/
def isUnit (s : String) (style : Style) : Bool :=
  style = .plain && (s.isEmpty || isNullWord s)

/-- Whether an optional scalar has a value. A null tag asks for a null. -/
def isPresent (s : String) (tag : Option String) (style : Style) : Except Fault Bool :=
  match style, tag with
  | .plain, some t =>
    if coreTag? t = some .null then
      if isNullWord s then .ok false else .error .wrongValue
    else .ok true
  | .plain, none => .ok (!(s.isEmpty || isNullWord s))
  | _, _ => .ok true

instance : Source Tree where
  text t := match t.target with
    | .scalar s _ _ => .ok s
    | n => .error (mismatch n)
  bool t := match t.target with
    | .scalar s tag style =>
      match boolWord? s with
      | some b => if admits .bool tag style then .ok b else .error (scalarMismatch s tag)
      | none => .error (scalarMismatch s tag)
    | n => .error (mismatch n)
  nat bound t := match t.target with
    | .scalar s tag style =>
      match natural? s.toList with
      | some i =>
        if admits .int tag style ∧ i ≤ bound then .ok i else .error (scalarMismatch s tag)
      | none => .error (scalarMismatch s tag)
    | n => .error (mismatch n)
  optional t := match t.target with
    | .scalar s tag style => do
      return if ← isPresent s tag style then some { t with node := .scalar s tag style } else none
    | .void => .ok none
    | .cut | .alias _ => .error .malformed
    | n => .ok (some { t with node := n })
  items t := match t.target with
    | .sequence _ items => if t.depth = 0 then .error .malformed else .ok (items.map t.part)
    | n => if isUnwritten n then .ok [] else .error (mismatch n)
  entries t := match t.target with
    | .mapping _ entries =>
      if t.depth = 0 then .error .malformed
      else .ok (entries.map fun (k, v) => (t.part k, t.part v))
    | n => if isUnwritten n then .ok [] else .error (mismatch n)
  positions? _ := none
  variant t := match t.target with
    | .scalar s tag style =>
      match ownTag? tag with
      | some name => .ok (name, if isUnit s style then .ok () else .error .wrongValue)
      | none => .ok (s, .ok ())
    | .sequence tag _ | .mapping tag _ =>
      match ownTag? tag with
      | some name => .ok (name, .error .wrongType)
      | none => .error .wrongType
    | n => .error (mismatch n)
  data t := ((valueOf t.marks t.depth t.node).run t.jumps).map (·.1)
  skip t := if t.node.isWhole then .ok () else .error .malformed

/-- Read the first document of a text, which must be the only one. A defect behind the part that is
read counts only once that part has been read. -/
def decode {α : Type} (read : Tree → Except Fault α) (text : String) : Except Fault α := do
  let (t, sound) := parse text
  let a ← read t
  if sound then return a else throw .malformed

end Tree

end EntityCatalog.Document.Yaml
