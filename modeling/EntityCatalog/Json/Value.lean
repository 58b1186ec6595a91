import EntityCatalog.Decimal.Binary64
import EntityCatalog.SortedMap
import EntityCatalog.Text

/-!
# JSON values

Numbers keep apart integers and doubles. The members of an object are in ascending order of their
names, one member a name; `Value.ofMembers` brings any list of members into that form.

A pointer into a value is empty, or a list of steps each behind a `/`. A step is a member name, in
which `~1` stands for `/` and `~0` for `~`, or the index of an array item.
-/

namespace EntityCatalog.Json

/-- An integer of 64 bits, signed or unsigned, or a double. -/
inductive Number where
  | int (value : Int)
  | double (value : Binary64)
  deriving DecidableEq, Repr

/-- The integers that are numbers of their own; any other number is a double. -/
def Number.isWord (i : Int) : Bool := -Int.pow 2 63 ≤ i && i < Int.pow 2 64

inductive Value where
  | null
  | bool (b : Bool)
  | number (n : Number)
  | string (s : String)
  | array (items : List Value)
  | object (members : List (String × Value))
  deriving Repr, Inhabited

namespace Value

/-- The object with the given members; of equal names the last wins. -/
def ofMembers (members : List (String × Value)) : Value :=
  object (Assoc.insertAll [] members)

def nat (n : Nat) : Value := number (.int n)

def strings (l : List String) : Value := array (l.map string)

/-- A map as an object. -/
def ofMap {α : Type} (f : α → Value) (m : SortedMap α) : Value :=
  object (m.entries.map fun p => (p.1, f p.2))

/-- The member of an object; any other value has none. -/
def member? : Value → String → Option Value
  | object members, name => Assoc.get? name members
  | _, _ => none

def string? : Value → Option String
  | string s => some s
  | _ => none

def isNull : Value → Bool
  | null => true
  | _ => false

end Value

/-! ## Pointers -/

/-- Undo the two escapes of a step, `~1` before `~0`. -/
def unescapeStep (cs : List Char) : List Char := zero (one cs)
where
  one : List Char → List Char
    | '~' :: '1' :: rest => '/' :: one rest
    | c :: rest => c :: one rest
    | [] => []
  zero : List Char → List Char
    | '~' :: '0' :: rest => '~' :: zero rest
    | c :: rest => c :: zero rest
    | [] => []

/-- An array index: decimal digits without a sign and without a superfluous zero. -/
def index? (step : List Char) : Option Nat :=
  match step with
  | [] => none
  | '0' :: _ :: _ => none
  | _ => if step.all Char.isDigit then (String.ofList step).toNat? else none

/-- Follow one step. -/
def Value.step? (v : Value) (step : List Char) : Option Value :=
  match v with
  | .object members => Assoc.get? (String.ofList step) members
  | .array items => (index? step).bind fun i => items[i]?
  | _ => none

/-- The value a pointer leads to. -/
def Value.pointer? (v : Value) (pointer : String) : Option Value :=
  match pointer.toList with
  | [] => some v
  | '/' :: rest =>
    let (first, more) := Text.splitAll '/' rest
    (first :: more).foldlM (fun w step => w.step? (unescapeStep step)) v
  | _ => none

end EntityCatalog.Json
