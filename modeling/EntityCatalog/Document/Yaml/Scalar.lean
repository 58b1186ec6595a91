import EntityCatalog.Document.Yaml.Cursor

/-!
# Scalars of a YAML text

How plain, quoted and block scalars read. Breaks inside a plain or quoted scalar are folded: one
break becomes a space, and of more breaks all but the first stay. Every function answers `none`
where the text breaks the grammar.
-/

namespace EntityCatalog.Document.Yaml

/-- How a scalar is written. -/
inductive Style where
  | plain
  | quoted
  | literal
  | folded
  deriving DecidableEq, Repr

/-! ## Gaps between words -/

/-- The blanks and breaks between two words of a scalar: the blanks before any break, the first
break, and the breaks after it. -/
structure Gap where
  broken : Bool
  blanks : List Char
  first : List Char
  more : List Char

def Gap.none : Gap := ⟨false, [], [], []⟩

/-- A break that is escaped, and so leaves no space. -/
def Gap.escaped : Gap := ⟨true, [], [], []⟩

/-- What a gap reads as. -/
def Gap.text (g : Gap) : List Char :=
  if !g.broken then g.blanks
  else if g.first.head? = some '\n' then (if g.more.isEmpty then [' '] else g.more)
  else g.first ++ g.more

/-- Read blanks and breaks. A tab in front of column `indent` of a later line is a defect. -/
def readGap (indent : Int) : Nat → Gap → Cursor → Option (Gap × Cursor)
  | 0, g, c => some (g, c)
  | fuel + 1, g, c =>
    match c.ahead? 0 with
    | Option.none => some (g, c)
    | some ch =>
      if isWhite ch then
        if g.broken && (c.column : Int) < indent && ch == '\t' then Option.none
        else if g.broken then readGap indent fuel g (c.skip 1)
        else readGap indent fuel { g with blanks := g.blanks ++ [ch] } (c.skip 1)
      else if isBreak ch then
        let (b, c) := c.takeBreak
        if g.broken then readGap indent fuel { g with more := g.more ++ b } c
        else readGap indent fuel ⟨true, [], b, []⟩ c
      else some (g, c)

/-! ## Plain scalars -/

/-- A character that ends a plain scalar in flow context. -/
def isFlowIndicator (c : Char) : Bool :=
  c = ',' || c = '[' || c = ']' || c = '\x7b' || c = '\x7d'

/-- A word of a plain scalar: up to a blank, to a colon in front of one, and in flow context to a
flow indicator. There a colon in front of an indicator is a defect. -/
def plainWord (flow : Bool) : List Char → Option (List Char)
  | [] => some []
  | ch :: rest =>
    if isWhite ch || isBreak ch then some []
    else if flow && ch == ':' && rest.head?.any (fun d => isFlowIndicator d || d == '?') then none
    else if ch == ':' && rest.head?.all (fun d => isWhite d || isBreak d) then some []
    else if flow && isFlowIndicator ch then some []
    else (plainWord flow rest).map (ch :: ·)

/-- Read words and the gaps between them. Answers the text, whether a break was passed behind the
last word, and the place reached. -/
def plainWords (flow : Bool) (indent : Int) :
    Nat → Gap → List Char → Cursor → Option (List Char × Bool × Cursor)
  | 0, g, text, c => some (text, g.broken, c)
  | fuel + 1, g, text, c =>
    if c.documentMark || c.sees 0 '#' then some (text, g.broken, c)
    else
      match plainWord flow c.rest with
      | none => none
      | some word =>
        let text := if word.isEmpty then text else text ++ g.text ++ word
        let g := if word.isEmpty then g else Gap.none
        let c := c.skip word.length
        if !(c.next isWhite || c.next isBreak) then some (text, g.broken, c)
        else
          match readGap indent (c.rest.length + 1) g c with
          | none => none
          | some (g, c) =>
            if !flow && (c.column : Int) < indent then some (text, g.broken, c)
            else plainWords flow indent fuel g text c

def plainScalar (flow : Bool) (indent : Int) (c : Cursor) :
    Option (List Char × Bool × Cursor) :=
  plainWords flow indent (c.rest.length + 1) Gap.none [] c

/-! ## Quoted scalars -/

def hexValue? (cs : List Char) : Option Nat :=
  cs.foldlM (fun n ch =>
    if ch.isDigit then some (n * 16 + (ch.toNat - '0'.toNat))
    else if 'a' ≤ ch ∧ ch ≤ 'f' then some (n * 16 + (ch.toNat - 'a'.toNat + 10))
    else if 'A' ≤ ch ∧ ch ≤ 'F' then some (n * 16 + (ch.toNat - 'A'.toNat + 10))
    else none) 0

/-- A code point given by `n` hexadecimal digits. -/
def codePoint? (n : Nat) (cs : List Char) : Option Char :=
  if cs.length < n then none
  else
    (hexValue? (cs.take n)).bind fun v =>
      if (0xD800 ≤ v && v ≤ 0xDFFF) || 0x10FFFF < v then none else some (Char.ofNat v)

/-- The character of an escape, and how many characters stand for it behind the backslash. -/
def escape? : List Char → Option (Char × Nat)
  | ch :: rest =>
    match ch with
    | '0' => some ('\x00', 1)
    | 'a' => some ('\x07', 1)
    | 'b' => some ('\x08', 1)
    | 't' => some ('\t', 1)
    | '\t' => some ('\t', 1)
    | 'n' => some ('\n', 1)
    | 'v' => some ('\x0b', 1)
    | 'f' => some ('\x0c', 1)
    | 'r' => some ('\r', 1)
    | 'e' => some ('\x1b', 1)
    | ' ' => some (' ', 1)
    | '"' => some ('"', 1)
    | '/' => some ('/', 1)
    | '\\' => some ('\\', 1)
    | 'N' => some ('\u0085', 1)
    | '_' => some ('\u00a0', 1)
    | 'L' => some ('\u2028', 1)
    | 'P' => some ('\u2029', 1)
    | 'x' => (codePoint? 2 rest).map (·, 3)
    | 'u' => (codePoint? 4 rest).map (·, 5)
    | 'U' => (codePoint? 8 rest).map (·, 9)
    | _ => none
  | [] => none

/-- The characters of a quoted scalar up to a blank, a break, the closing quote or an escaped
break; the flag tells that it was an escaped break, which is passed over. -/
def quotedWord (single : Bool) : Nat → List Char → Cursor → Option (List Char × Bool × Cursor)
  | 0, _, _ => none
  | fuel + 1, acc, c =>
    match c.rest with
    | [] => some (acc.reverse, false, c)
    | ch :: rest =>
      if isWhite ch || isBreak ch then some (acc.reverse, false, c)
      else if single && ch == '\'' && rest.head? == some '\'' then
        quotedWord single fuel ('\'' :: acc) (c.skip 2)
      else if ch == (if single then '\'' else '"') then some (acc.reverse, false, c)
      else if !single && ch == '\\' then
        if rest.head?.any isBreak then some (acc.reverse, true, (c.skip 1).skipBreak)
        else
          match escape? rest with
          | none => none
          | some (d, n) => quotedWord single fuel (d :: acc) (c.skip (n + 1))
      else quotedWord single fuel (ch :: acc) (c.skip 1)

/-- Read words and gaps up to the closing quote. -/
def quotedWords (single : Bool) : Nat → List Char → Cursor → Option (List Char × Cursor)
  | 0, _, _ => none
  | fuel + 1, text, c =>
    if c.documentMark || c.atEnd then none
    else
      match quotedWord single (c.rest.length + 1) [] c with
      | none => none
      | some (word, escapedBreak, c) =>
        let text := text ++ word
        if c.sees 0 (if single then '\'' else '"') then some (text, c.skip 1)
        else
          let start := if escapedBreak then Gap.escaped else Gap.none
          match readGap 0 (c.rest.length + 1) start c with
          | none => none
          | some (g, c) => quotedWords single fuel (text ++ g.text) c

/-- A quoted scalar from its opening quote on. -/
def quotedScalar (single : Bool) (c : Cursor) : Option (List Char × Cursor) :=
  quotedWords single (c.rest.length + 1) [] (c.skip 1)

/-! ## Block scalars -/

/-- What becomes of the breaks at the end of a block scalar. -/
inductive Chomp where
  | strip
  | clip
  | keep
  deriving DecidableEq

def chomp? (c : Cursor) : Option Chomp :=
  if c.sees 0 '+' then some .keep else if c.sees 0 '-' then some .strip else none

/-- An indentation given as a digit; zero is a defect. -/
def increment? (c : Cursor) : Option (Option Nat) :=
  match c.ahead? 0 with
  | some ch =>
    if ch.isDigit then if ch = '0' then none else some (some (ch.toNat - '0'.toNat))
    else some none
  | none => some none

/-- The head of a block scalar behind its indicator: chomping and indentation in either order. -/
def blockHead (c : Cursor) : Option (Chomp × Option Nat × Cursor) := do
  match chomp? c with
  | some chomp =>
    let c := c.skip 1
    let n ← increment? c
    return (chomp, n, if n.isSome then c.skip 1 else c)
  | none =>
    match ← increment? c with
    | some n =>
      let c := c.skip 1
      match chomp? c with
      | some chomp => return (chomp, some n, c.skip 1)
      | none => return (.clip, some n, c)
    | none => return (.clip, none, c)

/-- Pass over indentation up to column `indent`, over any when it is `0`. -/
def skipIndent (indent : Nat) : Nat → Cursor → Cursor
  | 0, c => c
  | fuel + 1, c =>
    if (indent == 0 || c.column < indent) && c.sees 0 ' ' then skipIndent indent fuel (c.skip 1)
    else c

/-- Read the empty lines in front of a line with text. Answers the breaks and the widest
indentation met. -/
def blockBreaks (indent : Nat) : Nat → Nat → List Char → Cursor → Option (List Char × Nat × Cursor)
  | 0, widest, breaks, c => some (breaks, widest, c)
  | fuel + 1, widest, breaks, c =>
    let c := skipIndent indent (c.rest.length + 1) c
    let widest := max widest c.column
    if (indent == 0 || c.column < indent) && c.sees 0 '\t' then none
    else if !c.next isBreak then some (breaks, widest, c)
    else
      let (b, c) := c.takeBreak
      blockBreaks indent fuel widest (breaks ++ b) c

/-- The lines of a block scalar of column `indent`. `leading` is the break behind the line before,
`trailing` the breaks of the empty lines after that, `blankBefore` tells whether the line before
started with a blank. Answers the text, and the breaks at its end. -/
def blockLines (folded : Bool) (indent : Nat) :
    Nat → List Char → List Char → List Char → Bool → Cursor →
      Option (List Char × List Char × List Char × Cursor)
  | 0, text, leading, trailing, _, c => some (text, leading, trailing, c)
  | fuel + 1, text, leading, trailing, blankBefore, c =>
    if c.column != indent || c.atEnd then some (text, leading, trailing, c)
    else
      let blank := c.next isWhite
      let joint :=
        if folded && leading.head? == some '\n' && !blankBefore && !blank then
          if trailing.isEmpty then [' '] else trailing
        else leading ++ trailing
      let (line, c) := c.takeWhile (!isBreak ·)
      let (leading, c) := c.takeBreak
      match blockBreaks indent (c.rest.length + 1) 0 [] c with
      | none => none
      | some (trailing, _, c) =>
        blockLines folded indent fuel (text ++ joint ++ line) leading trailing blank c

/-- A block scalar from its indicator on. `parent` is the column of the enclosing block, `-1` when
there is none. -/
def blockScalar (folded : Bool) (parent : Int) (c : Cursor) : Option (List Char × Cursor) := do
  let (chomp, increment, c) ← blockHead (c.skip 1)
  let c := c.skipComment
  if !c.lineDone then none
  let c := c.skipBreak
  let given := match increment with
    | some n => if 0 ≤ parent then parent.toNat + n else n
    | none => 0
  let (breaks, widest, c) ← blockBreaks given (c.rest.length + 1) 0 [] c
  let indent := if given = 0 then max (max widest (parent + 1).toNat) 1 else given
  let (text, leading, trailing, c) ← blockLines folded indent (c.rest.length + 1) [] [] breaks false c
  let ending := match chomp with
    | .strip => []
    | .clip => leading
    | .keep => leading ++ trailing
  return (text ++ ending, c)

end EntityCatalog.Document.Yaml
