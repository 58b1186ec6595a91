import EntityCatalog.Document.Source
import EntityCatalog.Text

/-!
# JSON texts

`Doc.parse` reads a JSON text into a tree that keeps the order of the text. Where the text breaks
off or breaks the grammar, the tree ends in a `Doc.cut`: what stands before the defect is still
there to be read, and a reader that comes to the cut reports the defect. `Doc.decode` reads a whole
text.
-/

namespace EntityCatalog.Document

open Json (Value Number)

/-- A JSON text in the order in which it is written. -/
inductive Doc where
  | null
  | bool (b : Bool)
  /-- A number; `none` is one beyond every double. -/
  | number (n : Option Number)
  | string (s : String)
  | array (items : List Doc)
  | object (members : List (Doc × Doc))
  /-- The text is defective from here on. -/
  | cut
  deriving Inhabited

namespace Doc

/-! ## Tokens -/

def isSpace (c : Char) : Bool := c = ' ' || c = '\n' || c = '\t' || c = '\r'

/-- The text after its leading blanks. -/
def skipSpace (cs : List Char) : List Char := cs.dropWhile isSpace

def hexDigit? (c : Char) : Option Nat :=
  if c.isDigit then some (c.toNat - '0'.toNat)
  else if 'a' ≤ c ∧ c ≤ 'f' then some (c.toNat - 'a'.toNat + 10)
  else if 'A' ≤ c ∧ c ≤ 'F' then some (c.toNat - 'A'.toNat + 10)
  else none

/-- The value of four hexadecimal digits, and the text behind them. -/
def hex4? : List Char → Option (Nat × List Char)
  | a :: b :: c :: d :: rest => do
    let a ← hexDigit? a
    let b ← hexDigit? b
    let c ← hexDigit? c
    let d ← hexDigit? d
    return (((a * 16 + b) * 16 + c) * 16 + d, rest)
  | _ => none

def isHighSurrogate (n : Nat) : Bool := 0xD800 ≤ n && n < 0xDC00

def isLowSurrogate (n : Nat) : Bool := 0xDC00 ≤ n && n < 0xE000

/-- The character of a `\u` escape, of two such escapes when the first is a high surrogate. -/
def unicodeEscape? (cs : List Char) : Option (Char × List Char) := do
  let (n, rest) ← hex4? cs
  if isHighSurrogate n then
    match rest with
    | '\\' :: 'u' :: rest =>
      let (low, rest) ← hex4? rest
      if isLowSurrogate low then
        some (Char.ofNat (0x10000 + (n - 0xD800) * 0x400 + (low - 0xDC00)), rest)
      else none
    | _ => none
  else if isLowSurrogate n then none
  else some (Char.ofNat n, rest)

/-- The rest of a string behind its opening quote. `fuel` bounds the number of characters. -/
def stringTail? (fuel : Nat) (acc : List Char) (cs : List Char) : Option (String × List Char) :=
  match fuel, cs with
  | 0, _ => none
  | _, [] => none
  | fuel + 1, c :: rest =>
    if c = '"' then some (String.ofList acc.reverse, rest)
    else if c = '\\' then
      match rest with
      | 'u' :: rest => do
        let (d, rest) ← unicodeEscape? rest
        stringTail? fuel (d :: acc) rest
      | d :: rest => do
        let e ← simpleEscape? d
        stringTail? fuel (e :: acc) rest
      | [] => none
    else if c.toNat < 0x20 then none
    else stringTail? fuel (c :: acc) rest
where
  simpleEscape? (c : Char) : Option Char :=
    match c with
    | '"' => some '"'
    | '\\' => some '\\'
    | '/' => some '/'
    | 'b' => some '\x08'
    | 'f' => some '\x0c'
    | 'n' => some '\n'
    | 'r' => some '\r'
    | 't' => some '\t'
    | _ => none

/-- The digits at the start of a text, and the text behind them. -/
def digits (cs : List Char) : List Char × List Char :=
  (cs.takeWhile Char.isDigit, cs.dropWhile Char.isDigit)

/-- The largest significand of a double's decimal. -/
def maxSignificand : Nat := Nat.pow 2 64 - 1

/-- Digits are taken into a significand as long as it stays within bounds. Answers the
significand and the number of digits taken. -/
def takeDigits (significand taken : Nat) : List Char → Nat × Nat
  | [] => (significand, taken)
  | c :: cs =>
    let next := significand * 10 + (c.toNat - '0'.toNat)
    if next ≤ maxSignificand then takeDigits next (taken + 1) cs else (significand, taken)

/-- The number with the given parts. An integer of 64 bits stays one. Any other is a double of at
most as many leading digits as 64 bits hold; further digits count only for the magnitude. -/
def numberOf (negative : Bool) (whole : List Char) (fraction exponent : Option (List Char))
    (exponentNegative : Bool) : Option Number :=
  let (w, taken) := takeDigits 0 0 whole
  let isInt := fraction.isNone && exponent.isNone && taken == whole.length
  if isInt && !negative then some (.int w)
  else if isInt && 0 < w && w ≤ Nat.pow 2 63 then some (.int (-(w : Int)))
  else
    let dropped := whole.length - taken
    let (s, fractionTaken) := takeDigits w 0 (fraction.getD [])
    let shift := (String.ofList (exponent.getD ['0'])).toNat?.getD 0
    let power : Int := (dropped : Int) - fractionTaken +
      (if exponentNegative then -(shift : Int) else shift)
    (Binary64.ofScaled? negative s power).map .double

/-- A number, and the text behind it. -/
def number? (cs : List Char) : Option (Option Number × List Char) := do
  let (negative, cs) := match cs with
    | '-' :: rest => (true, rest)
    | _ => (false, cs)
  let (whole, cs) ← match digits cs with
    | ([], _) => none
    | ('0' :: _ :: _, _) => none
    | p => some p
  let (fraction, cs) ← match cs with
    | '.' :: rest =>
      match digits rest with
      | ([], _) => none
      | (f, rest) => some (some f, rest)
    | _ => some (none, cs)
  let (exponent, exponentNegative, cs) ← match cs with
    | e :: rest =>
      if e = 'e' ∨ e = 'E' then
        let (exponentNegative, rest) := match rest with
          | '-' :: rest => (true, rest)
          | '+' :: rest => (false, rest)
          | _ => (false, rest)
        match digits rest with
        | ([], _) => none
        | (x, rest) => some (some x, exponentNegative, rest)
      else some (none, false, cs)
    | [] => some (none, false, cs)
  return (numberOf negative whole fraction exponent exponentNegative, cs)

/-! ## Trees -/

/-- The text behind a word, if it starts with the word. -/
def word? (w : String) (cs : List Char) : Option (List Char) :=
  if w.toList.isPrefixOf cs then some (cs.drop w.length) else none

/-- Deeper nesting is a defect. -/
def maxDepth : Nat := 127

mutual

/-- The value at the start of a text and the text behind it, `none` when the text is defective.
`depth` is the nesting that is left; `fuel` exceeds the length of the text. -/
def value (fuel depth : Nat) (cs : List Char) : Doc × Option (List Char) :=
  match fuel with
  | 0 => (cut, none)
  | fuel + 1 =>
    match skipSpace cs with
    | [] => (cut, none)
    | '"' :: rest =>
      match stringTail? (rest.length + 1) [] rest with
      | some (s, rest) => (string s, some rest)
      | none => (cut, none)
    | '[' :: rest =>
      match depth with
      | 0 => (cut, none)
      | depth + 1 =>
        match skipSpace rest with
        | ']' :: rest => (array [], some rest)
        | rest =>
          let (l, rest) := items fuel depth rest
          (array l, rest)
    | '\x7b' :: rest =>
      match depth with
      | 0 => (cut, none)
      | depth + 1 =>
        match skipSpace rest with
        | '\x7d' :: rest => (object [], some rest)
        | rest =>
          let (l, rest) := members fuel depth rest
          (object l, rest)
    | cs =>
      match word? "null" cs, word? "true" cs, word? "false" cs, number? cs with
      | some rest, _, _, _ => (null, some rest)
      | _, some rest, _, _ => (bool true, some rest)
      | _, _, some rest, _ => (bool false, some rest)
      | _, _, _, some (n, rest) => (number n, some rest)
      | _, _, _, _ => (cut, none)

/-- The items of an array from one item on, up to the closing bracket. -/
def items (fuel depth : Nat) (cs : List Char) : List Doc × Option (List Char) :=
  match fuel with
  | 0 => ([cut], none)
  | fuel + 1 =>
    match value fuel depth cs with
    | (v, none) => ([v], none)
    | (v, some rest) =>
      match skipSpace rest with
      | ']' :: rest => ([v], some rest)
      | ',' :: rest =>
        let (l, rest) := items fuel depth rest
        (v :: l, rest)
      | _ => ([v, cut], none)

/-- The members of an object from one name on, up to the closing brace. -/
def members (fuel depth : Nat) (cs : List Char) : List (Doc × Doc) × Option (List Char) :=
  match fuel with
  | 0 => ([(cut, cut)], none)
  | fuel + 1 =>
    match skipSpace cs with
    | '"' :: rest =>
      match stringTail? (rest.length + 1) [] rest with
      | none => ([(cut, cut)], none)
      | some (name, rest) =>
        match skipSpace rest with
        | ':' :: rest =>
          match value fuel depth rest with
          | (v, none) => ([(string name, v)], none)
          | (v, some rest) =>
            match skipSpace rest with
            | '\x7d' :: rest => ([(string name, v)], some rest)
            | ',' :: rest =>
              let (l, rest) := members fuel depth rest
              ((string name, v) :: l, rest)
            | _ => ([(string name, v), (cut, cut)], none)
        | _ => ([(string name, cut)], none)
    | _ => ([(cut, cut)], none)

end

/-- The tree of a text, and whether nothing but blanks stands behind it. -/
def parse (text : String) : Doc × Bool :=
  let cs := text.toList
  match value (2 * cs.length + 2) maxDepth cs with
  | (v, some rest) => (v, (skipSpace rest).isEmpty)
  | (v, none) => (v, false)

/-! ## Reading -/

mutual

/-- The value of a tree without a cut. -/
def toValue : Doc → Except Fault Value
  | null => .ok .null
  | bool b => .ok (.bool b)
  | number (some n) => .ok (.number n)
  | number none => .error .malformed
  | string s => .ok (.string s)
  | array items => do return .array (← toValues items)
  | object members => do return .ofMembers (← toMembers members)
  | cut => .error .malformed

def toValues : List Doc → Except Fault (List Value)
  | [] => .ok []
  | d :: rest => do
    let v ← d.toValue
    return v :: (← toValues rest)

def toMembers : List (Doc × Doc) → Except Fault (List (String × Value))
  | [] => .ok []
  | (string name, d) :: rest => do
    let v ← d.toValue
    return (name, v) :: (← toMembers rest)
  | _ :: _ => .error .malformed

end

mutual

/-- Whether a tree is free of cuts. -/
def isWhole : Doc → Bool
  | cut => false
  | array items => areWhole items
  | object members => membersWhole members
  | _ => true

def areWhole : List Doc → Bool
  | [] => true
  | d :: rest => d.isWhole && areWhole rest

def membersWhole : List (Doc × Doc) → Bool
  | [] => true
  | (k, d) :: rest => k.isWhole && d.isWhole && membersWhole rest

end

/-- The fault of a node that is not of the type wanted. -/
def mismatch : Doc → Fault
  | cut | number none => .malformed
  | _ => .wrongType

instance : Source Doc where
  text
    | string s => .ok s
    | d => .error d.mismatch
  bool
    | bool b => .ok b
    | d => .error d.mismatch
  nat bound
    | number (some n) => natOf bound (.number n)
    | d => .error d.mismatch
  optional
    | null => .ok none
    | cut => .error .malformed
    | d => .ok (some d)
  items
    | array items => .ok items
    | d => .error d.mismatch
  entries
    | object members => .ok members
    | d => .error d.mismatch
  positions?
    | array items => some items
    | _ => none
  variant
    | string s => .ok (s, .ok ())
    | object [(string name, null)] => .ok (name, .ok ())
    | object [(string name, d)] => .ok (name, .error d.mismatch)
    | object _ => .error .malformed
    | d => .error d.mismatch
  data := toValue
  skip d := if d.isWhole then .ok () else .error .malformed

/-- Read a whole JSON text. A defect behind the value counts only once the value has been read. -/
def decode {α : Type} (read : Doc → Except Fault α) (text : String) : Except Fault α := do
  let (d, complete) := parse text
  let a ← read d
  if complete then return a else throw .malformed

end Doc

/-- The JSON value of a text. -/
def parseJson (text : String) : Except Fault Value := Doc.decode Doc.toValue text

end EntityCatalog.Document
