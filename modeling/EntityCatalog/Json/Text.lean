import EntityCatalog.Decimal.Shortest
import EntityCatalog.Json.Value

/-!
# The text of a JSON value

The compact form has no blanks, the members of an object in their order, and strings with the
shortest escapes. On several lines every item and every member has a line of its own, two blanks
deeper than what encloses it.
-/

namespace EntityCatalog.Json

/-- A character inside a string. Control characters without an escape of their own are written
with four hexadecimal digits. -/
def escape (c : Char) : List Char :=
  if c = '"' then ['\\', '"']
  else if c = '\\' then ['\\', '\\']
  else if c = '\n' then ['\\', 'n']
  else if c = '\r' then ['\\', 'r']
  else if c = '\t' then ['\\', 't']
  else if c = '\x08' then ['\\', 'b']
  else if c = '\x0c' then ['\\', 'f']
  else if c.toNat < 0x20 then
    '\\' :: 'u' :: '0' :: '0' :: Nat.digitChar (c.toNat / 16) :: Nat.digitChar (c.toNat % 16) :: []
  else [c]

def quote (s : String) : String :=
  "\"" ++ String.ofList (s.toList.flatMap escape) ++ "\""

def Number.text : Number → String
  | .int i => toString i
  | .double x => x.text

mutual

/-- The compact text of a value. -/
def Value.text : Value → String
  | .null => "null"
  | .bool b => if b then "true" else "false"
  | .number n => n.text
  | .string s => quote s
  | .array items => "[" ++ textOfItems items ++ "]"
  | .object members => "\x7b" ++ textOfMembers members ++ "\x7d"

/-- The items of an array, each but the first behind a comma. -/
def textOfItems : List Value → String
  | [] => ""
  | [v] => v.text
  | v :: rest => v.text ++ "," ++ textOfItems rest

/-- The members of an object, each but the first behind a comma. -/
def textOfMembers : List (String × Value) → String
  | [] => ""
  | [(k, v)] => quote k ++ ":" ++ v.text
  | (k, v) :: rest => quote k ++ ":" ++ v.text ++ "," ++ textOfMembers rest

end

/-! ## Several lines -/

def indent (depth : Nat) : String := String.ofList (List.replicate (2 * depth) ' ')

mutual

def Value.pretty (depth : Nat) : Value → String
  | .array [] => "[]"
  | .object [] => "\x7b\x7d"
  | .array items => "[\n" ++ prettyItems (depth + 1) items ++ "\n" ++ indent depth ++ "]"
  | .object members =>
    "\x7b\n" ++ prettyMembers (depth + 1) members ++ "\n" ++ indent depth ++ "\x7d"
  | .null => Value.text .null
  | .bool b => Value.text (.bool b)
  | .number n => Value.text (.number n)
  | .string s => Value.text (.string s)

def prettyItems (depth : Nat) : List Value → String
  | [] => ""
  | [v] => indent depth ++ v.pretty depth
  | v :: rest => indent depth ++ v.pretty depth ++ ",\n" ++ prettyItems depth rest

def prettyMembers (depth : Nat) : List (String × Value) → String
  | [] => ""
  | [(k, v)] => indent depth ++ quote k ++ ": " ++ v.pretty depth
  | (k, v) :: rest =>
    indent depth ++ quote k ++ ": " ++ v.pretty depth ++ ",\n" ++ prettyMembers depth rest

end

end EntityCatalog.Json
