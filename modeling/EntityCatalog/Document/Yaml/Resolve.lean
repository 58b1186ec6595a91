import EntityCatalog.Decimal.Binary64
import EntityCatalog.Json.Value

/-!
# What a scalar stands for

The text of a scalar as a null, a truth value, an integer or a double. Integers are decimal, or
hexadecimal, octal or binary behind `0x`, `0o` or `0b`. Digits behind a superfluous zero are no
number.
-/

namespace EntityCatalog.Document.Yaml

open Json (Value Number)

def isNullWord (s : String) : Bool := s = "null" || s = "Null" || s = "NULL" || s = "~"

def boolWord? (s : String) : Option Bool :=
  if s = "true" ∨ s = "True" ∨ s = "TRUE" then some true
  else if s = "false" ∨ s = "False" ∨ s = "FALSE" then some false
  else none

/-! ## Integers -/

/-- The digit that a character stands for in a base of at most sixteen. -/
def digit? (base : Nat) (c : Char) : Option Nat :=
  let d :=
    if c.isDigit then some (c.toNat - '0'.toNat)
    else if 'a' ≤ c ∧ c ≤ 'f' then some (c.toNat - 'a'.toNat + 10)
    else if 'A' ≤ c ∧ c ≤ 'F' then some (c.toNat - 'A'.toNat + 10)
    else none
  d.filter (· < base)

/-- The number written with the given digits, of which there is at least one. -/
def digits? (base : Nat) (cs : List Char) : Option Nat :=
  if cs.isEmpty then none
  else cs.foldlM (fun n c => (digit? base c).map (n * base + ·)) 0

def dropSign : List Char → List Char
  | '-' :: rest => rest
  | '+' :: rest => rest
  | cs => cs

/-- Whether a text is a zero with further digits behind it, a sign aside. -/
def hasSuperfluousZero (cs : List Char) : Bool :=
  match dropSign cs with
  | '0' :: c :: rest => (c :: rest).all Char.isDigit
  | _ => false

/-- A number without its sign. -/
def magnitude? (cs : List Char) : Option Nat :=
  match cs with
  | '0' :: 'x' :: rest => digits? 16 rest
  | '0' :: 'o' :: rest => digits? 8 rest
  | '0' :: 'b' :: rest => digits? 2 rest
  | _ => if hasSuperfluousZero cs then none else digits? 10 cs

def integer? : List Char → Option Int
  | '-' :: rest => (magnitude? rest).map fun n => -(n : Int)
  | '+' :: rest => (magnitude? rest).map Int.ofNat
  | cs => (magnitude? cs).map Int.ofNat

/-- A number without a minus sign. -/
def natural? : List Char → Option Nat
  | '+' :: rest => magnitude? rest
  | cs => magnitude? cs

/-! ## Doubles -/

/-- A double as the grammar of decimals has it; the outer `none` is a text of another form, the
inner one a number beyond every double. -/
def decimal? (cs : List Char) : Option (Option Binary64) :=
  let (negative, cs) := match cs with
    | '-' :: rest => (true, rest)
    | '+' :: rest => (false, rest)
    | _ => (false, cs)
  let whole := cs.takeWhile Char.isDigit
  let rest := cs.dropWhile Char.isDigit
  let (fraction, rest) := match rest with
    | '.' :: rest => (rest.takeWhile Char.isDigit, rest.dropWhile Char.isDigit)
    | _ => ([], rest)
  if whole.isEmpty && fraction.isEmpty then none
  else do
    let shift ← match rest with
      | [] => some (0 : Int)
      | e :: rest =>
        if e = 'e' ∨ e = 'E' then
          match rest with
          | '-' :: rest => (digits? 10 rest).map fun n => -(n : Int)
          | '+' :: rest => (digits? 10 rest).map Int.ofNat
          | _ => (digits? 10 rest).map Int.ofNat
        else none
    let significand ← digits? 10 (whole ++ fraction)
    return Binary64.ofDecimal? negative significand (shift - fraction.length)

/-- A number that is no integer. An infinity and what is no number have no double. -/
inductive Real where
  | finite (x : Binary64)
  | special

def real? (s : String) : Option Real :=
  let unsigned := match s.toList with
    | '+' :: rest => rest
    | cs => cs
  if String.ofList unsigned ∈ [".inf", ".Inf", ".INF"] ∨ s ∈ ["-.inf", "-.Inf", "-.INF"] ∨
      s ∈ [".nan", ".NaN", ".NAN"] then some .special
  else
    match s.toList, unsigned.head? with
    | '+' :: _, some '+' | '+' :: _, some '-' => none
    | _, _ => (decimal? unsigned).join.map .finite

/-! ## Free data -/

/-- Integers beyond 64 bits up to this magnitude are refused; beyond it they are doubles. -/
def isWide (i : Int) : Bool := -Int.pow 2 127 ≤ i && i < Int.pow 2 128

/-- Why a text has no value in free data. -/
inductive Unfit where
  | tooWide
  | otherForm

def integerValue (s : String) : Except Unfit Value :=
  match integer? s.toList with
  | some i =>
    if Number.isWord i then .ok (.number (.int i))
    else if isWide i then .error .tooWide
    else .error .otherForm
  | none => .error .otherForm

def realValue (s : String) : Option Value :=
  match real? s with
  | some (.finite x) => some (.number (.double x))
  | some .special => some .null
  | none => none

/-- The value of a plain scalar without a tag. -/
def plainValue (s : String) : Except Unfit Value :=
  if s.isEmpty || isNullWord s then .ok .null
  else
    match boolWord? s with
    | some b => .ok (.bool b)
    | none =>
      match integerValue s with
      | .ok v => .ok v
      | .error .tooWide => .error .tooWide
      | .error .otherForm =>
        if hasSuperfluousZero s.toList then .ok (.string s)
        else .ok ((realValue s).getD (.string s))

end EntityCatalog.Document.Yaml
