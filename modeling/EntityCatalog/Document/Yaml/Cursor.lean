/-!
# A place in a YAML text

A `Cursor` is the text that is left, with the number of characters, lines and columns before it.
Line breaks are those of YAML 1.1; a pair of carriage return and line feed is one break.
-/

namespace EntityCatalog.Document.Yaml

/-- A line break. -/
def isBreak (c : Char) : Bool :=
  c = '\n' || c = '\r' || c = '\u0085' || c = '\u2028' || c = '\u2029'

/-- A space or a tab. -/
def isWhite (c : Char) : Bool := c = ' ' || c = '\t'

/-- A character of anchor and handle names. -/
def isName (c : Char) : Bool := c.isAlphanum || c = '_' || c = '-'

/-- A character that a YAML text may hold. -/
def isAllowed (c : Char) : Bool :=
  let n := c.toNat
  n == 0x09 || n == 0x0A || n == 0x0D || (0x20 ≤ n && n ≤ 0x7E) || n == 0x85 ||
    (0xA0 ≤ n && n ≤ 0xD7FF) || (0xE000 ≤ n && n ≤ 0xFFFD) || 0x10000 ≤ n

structure Cursor where
  rest : List Char
  index : Nat
  line : Nat
  column : Nat
  deriving Repr

namespace Cursor

def start (text : List Char) : Cursor := ⟨text, 0, 0, 0⟩

/-- The character `n` places ahead. -/
def ahead? (c : Cursor) (n : Nat) : Option Char := c.rest[n]?

/-- Whether the character `n` places ahead is `ch`. -/
def sees (c : Cursor) (n : Nat) (ch : Char) : Bool := c.ahead? n == some ch

def atEnd (c : Cursor) : Bool := c.rest.isEmpty

/-- Whether `p` holds of the next character. -/
def next (c : Cursor) (p : Char → Bool) : Bool := (c.ahead? 0).any p

/-- Whether a blank, a break or the end is `n` places ahead. -/
def gapAt (c : Cursor) (n : Nat) : Bool :=
  match c.ahead? n with
  | none => true
  | some ch => isWhite ch || isBreak ch

/-- Whether a break or the end is next. -/
def lineDone (c : Cursor) : Bool := c.atEnd || c.next isBreak

/-- Pass over `n` characters that are no breaks. -/
def skip (c : Cursor) (n : Nat) : Cursor :=
  ⟨c.rest.drop n, c.index + n, c.line, c.column + n⟩

/-- Pass over the characters of which `p` holds; it must not hold of a break. -/
def takeWhile (c : Cursor) (p : Char → Bool) : List Char × Cursor :=
  let taken := c.rest.takeWhile p
  (taken, c.skip taken.length)

def skipWhile (c : Cursor) (p : Char → Bool) : Cursor := (c.takeWhile p).2

/-- Pass over a break. It reads as a line feed, unless it is a line or paragraph separator. -/
def takeBreak (c : Cursor) : List Char × Cursor :=
  match c.rest with
  | '\r' :: '\n' :: rest => (['\n'], ⟨rest, c.index + 2, c.line + 1, 0⟩)
  | ch :: rest =>
    if isBreak ch then
      (if ch = '\u2028' ∨ ch = '\u2029' then [ch] else ['\n'], ⟨rest, c.index + 1, c.line + 1, 0⟩)
    else ([], c)
  | [] => ([], c)

def skipBreak (c : Cursor) : Cursor := c.takeBreak.2

/-- Whether a line starts here with the three characters `ch`, alone. -/
def marker (c : Cursor) (ch : Char) : Bool :=
  c.column == 0 && c.sees 0 ch && c.sees 1 ch && c.sees 2 ch && c.gapAt 3

/-- Whether a line starts here with the mark of a document's start or end. -/
def documentMark (c : Cursor) : Bool := c.marker '-' || c.marker '.'

/-- Pass over blanks and a comment, up to the end of the line. -/
def skipComment (c : Cursor) : Cursor :=
  let c := c.skipWhile isWhite
  if c.sees 0 '#' then c.skipWhile (!isBreak ·) else c

end Cursor

end EntityCatalog.Document.Yaml
