import EntityCatalog.Document.Yaml.Scalar

/-!
# Tokens of a YAML text

`Token.scan` cuts a text into tokens. A key of a mapping is known as such only when its colon has
been met, so the token that opens it is put in afterwards; `Scanner.pending` counts the tokens in
front of the first place where that may still happen. If the text turns out to be defective, the
tokens of `Scanner.pending` are those that stand.
-/

namespace EntityCatalog.Document.Yaml

inductive Token where
  | streamEnd
  /-- A version directive, and whether the version is known. -/
  | version (known : Bool)
  | handle (name : List Char) (tagStart : List Char)
  | documentStart
  | documentEnd
  | blockSequenceStart
  | blockMappingStart
  | blockEnd
  | flowSequenceStart
  | flowSequenceEnd
  | flowMappingStart
  | flowMappingEnd
  | blockEntry
  | flowEntry
  | key
  | value
  | alias (name : List Char)
  | anchor (name : List Char)
  | tag (handle suffix : List Char)
  | scalar (text : List Char) (style : Style)
  deriving DecidableEq, Repr

/-- A place where a mapping key may have started: the number of the tokens before it. -/
structure KeyStart where
  required : Bool
  token : Nat
  index : Nat
  line : Nat
  column : Nat
  deriving Repr

/-- What is known after some tokens. `indents` are the columns of the enclosing block collections,
`keys` the possible keys of the enclosing flow collections and, last, of the block context. -/
structure Scanner where
  cursor : Cursor
  tokens : Array Token
  indent : Int
  indents : List Int
  keyAllowed : Bool
  keys : List (Option KeyStart)
  finished : Bool

namespace Scanner

def start (text : List Char) : Scanner :=
  { cursor := .start text, tokens := #[], indent := -1, indents := [], keyAllowed := true,
    keys := [none], finished := false }

def inFlow (s : Scanner) : Bool := 1 < s.keys.length

def emit (s : Scanner) (t : Token) : Scanner := { s with tokens := s.tokens.push t }

/-- The number of tokens that no later key can change. -/
def pending (s : Scanner) : Nat :=
  s.keys.foldl (fun n k => match k with
    | some k => min n k.token
    | none => n) s.tokens.size

/-! ## Possible keys -/

/-- The longest key, in characters. -/
def maxKeyLength : Nat := 1024

/-- Drop the possible keys that ended with their line or grew too long; a required one is a
defect. -/
def dropStale (s : Scanner) : Option Scanner := do
  let keys ← s.keys.mapM fun k => match k with
    | some k =>
      if k.line < s.cursor.line || k.index + maxKeyLength < s.cursor.index then
        if k.required then none else some none
      else some (some k)
    | none => some none
  return { s with keys }

/-- Give up the innermost possible key; a required one is a defect. -/
def dropKey (s : Scanner) : Option Scanner :=
  match s.keys with
  | some k :: rest => if k.required then none else some { s with keys := none :: rest }
  | _ => some s

/-- A key may start here. -/
def saveKey (s : Scanner) : Option Scanner :=
  if !s.keyAllowed then some s
  else do
    let c := s.cursor
    let required := !s.inFlow && s.indent == (c.column : Int)
    let s ← s.dropKey
    let k : KeyStart := ⟨required, s.tokens.size, c.index, c.line, c.column⟩
    return { s with keys := some k :: s.keys.drop 1 }

/-! ## Indentation -/

/-- End the block collections that are deeper than a column. -/
def unroll (column : Int) : Nat → Scanner → Scanner
  | 0, s => s
  | fuel + 1, s =>
    if s.inFlow || s.indent ≤ column then s
    else
      unroll column fuel
        { s.emit .blockEnd with indent := s.indents.headD (-1), indents := s.indents.drop 1 }

def unrollTo (s : Scanner) (column : Int) : Scanner := unroll column (s.indents.length + 1) s

/-- Begin a block collection at a column deeper than the enclosing one, its token at `at?` or
behind all others. -/
def roll (s : Scanner) (column : Nat) (at? : Option Nat) (t : Token) : Scanner :=
  if s.inFlow || (column : Int) ≤ s.indent then s
  else
    let n := at?.getD s.tokens.size
    { s with
      indent := column
      indents := s.indent :: s.indents
      tokens := s.tokens.insertIdx! n t }

/-! ## Names and tags -/

/-- A character of a tag. -/
def isTagChar (verbatim : Bool) (c : Char) : Bool :=
  isName c || c ∈ [';', '/', '?', ':', '@', '&', '=', '+', '$', '.', '!', '~', '*', '\'', '(', ')',
    '%'] || (verbatim && (c = ',' || c = '[' || c = ']'))

/-- The bytes of the escapes that a tag starts with. -/
def escapedBytes : Nat → List Char → List UInt8
  | n + 1, '%' :: a :: b :: rest =>
    match hexValue? [a, b] with
    | some v => v.toUInt8 :: escapedBytes n rest
    | none => []
  | _, _ => []

/-- The number of bytes of a character, by its first byte; `0` if no character starts so. -/
def byteWidth (b : UInt8) : Nat :=
  if b &&& 0x80 == 0 then 1 else if b &&& 0xE0 == 0xC0 then 2
  else if b &&& 0xF0 == 0xE0 then 3 else if b &&& 0xF8 == 0xF0 then 4 else 0

/-- The character escaped at the start of a text, and the number of its bytes. -/
def escapedChar? (cs : List Char) : Option (Char × Nat) :=
  match escapedBytes 4 cs with
  | [] => none
  | b :: rest =>
    let width := byteWidth b
    if width = 0 ∨ rest.length + 1 < width then none
    else
      (String.fromUTF8? ⟨(b :: rest.take (width - 1)).toArray⟩).bind fun s =>
        s.toList.head?.map (·, width)

/-- The characters of a tag, escapes resolved. -/
def tagChars (verbatim : Bool) : Nat → List Char → Cursor → Option (List Char × Cursor)
  | 0, _, _ => none
  | fuel + 1, acc, c =>
    match c.ahead? 0 with
    | some '%' =>
      match escapedChar? c.rest with
      | some (ch, width) => tagChars verbatim fuel (ch :: acc) (c.skip (3 * width))
      | none => none
    | some ch =>
      if isTagChar verbatim ch then tagChars verbatim fuel (ch :: acc) (c.skip 1)
      else some (acc.reverse, c)
    | none => some (acc.reverse, c)

/-- A tag handle: `!`, a name, and usually `!` again, which a directive asks for. -/
def tagHandle (directive : Bool) (c : Cursor) : Option (List Char × Cursor) :=
  if !c.sees 0 '!' then none
  else
    let (name, d) := (c.skip 1).takeWhile isName
    if d.sees 0 '!' then some ('!' :: name ++ ['!'], d.skip 1)
    else if directive && !name.isEmpty then none
    else some ('!' :: name, d)

/-- The characters behind a tag handle; `head` are those read as a handle by mistake. -/
def tagTail (verbatim : Bool) (head : List Char) (c : Cursor) : Option (List Char × Cursor) := do
  let (cs, d) ← tagChars verbatim (c.rest.length + 1) [] c
  if cs.isEmpty && head.isEmpty then none
  return (head.drop 1 ++ cs, d)

/-- A tag in angle brackets. -/
def verbatimTag (c : Cursor) : Option (Token × Cursor) := do
  let (cs, d) ← tagTail true [] (c.skip 2)
  if d.sees 0 '>' then some (.tag [] cs, d.skip 1) else none

/-- A tag of a handle and a suffix; a lone `!` is a suffix. -/
def shortTag (c : Cursor) : Option (Token × Cursor) := do
  let (handle, d) ← tagHandle false c
  if 1 < handle.length && handle.getLast? == some '!' then
    (tagTail false [] d).map fun p => (.tag handle p.1, p.2)
  else
    (tagTail false handle d).map fun p =>
      (if p.1.isEmpty then .tag [] ['!'] else .tag ['!'] p.1, p.2)

/-- A tag, which a blank ends, in flow context also a comma. -/
def tagToken (flow : Bool) (c : Cursor) : Option (Token × Cursor) := do
  let (t, d) ← if c.sees 1 '<' then verbatimTag c else shortTag c
  if d.gapAt 0 || (flow && d.sees 0 ',') then some (t, d) else none

/-- The name of an anchor or alias. -/
def anchorName (c : Cursor) : Option (List Char × Cursor) :=
  let (name, d) := (c.skip 1).takeWhile isName
  if name.isEmpty then none
  else if d.gapAt 0 || d.next (· ∈ ['?', ':', ',', ']', '\x7d', '%', '@', '\x60']) then some (name, d)
  else none

/-! ## Directives -/

/-- A part of a version number, of at most nine digits. -/
def versionPart (c : Cursor) : Option (Nat × Cursor) :=
  let (ds, d) := c.takeWhile Char.isDigit
  if ds.isEmpty || 9 < ds.length then none else (String.ofList ds).toNat?.map (·, d)

/-- The value of a version directive. -/
def versionValue (c : Cursor) : Option (Token × Cursor) := do
  let (major, c) ← versionPart (c.skipWhile isWhite)
  if !c.sees 0 '.' then none
  let (minor, c) ← versionPart (c.skip 1)
  return (.version (major == 1 && (minor == 1 || minor == 2)), c)

/-- The value of a tag directive. -/
def handleValue (c : Cursor) : Option (Token × Cursor) := do
  let (handle, c) ← tagHandle true (c.skipWhile isWhite)
  if !c.next isWhite then none
  let (tagStart, c) ← tagTail true [] (c.skipWhile isWhite)
  if !c.gapAt 0 then none
  return (.handle handle tagStart, c)

/-- A directive from its `%` on, up to the end of its line. -/
def directive (c : Cursor) : Option (Token × Cursor) := do
  let (name, c) := (c.skip 1).takeWhile isName
  if name.isEmpty || !c.gapAt 0 then none
  let (t, c) ← if name = "YAML".toList then versionValue c
    else if name = "TAG".toList then handleValue c
    else none
  let c := c.skipComment
  if !c.lineDone then none
  return (t, c.skipBreak)

/-! ## Fetching -/

/-- Pass over blanks, comments and breaks. A tab is a blank where no key may start. -/
def skipGap : Nat → Scanner → Scanner
  | 0, s => s
  | fuel + 1, s =>
    let c := s.cursor
    let c := if c.index == 0 && c.sees 0 '\ufeff' then c.skip 1 else c
    let c := c.skipWhile fun ch => ch = ' ' || ((s.inFlow || !s.keyAllowed) && ch = '\t')
    let c := if c.sees 0 '#' then c.skipWhile (!isBreak ·) else c
    if c.next isBreak then
      skipGap fuel { s with cursor := c.skipBreak, keyAllowed := s.keyAllowed || !s.inFlow }
    else { s with cursor := c }

/-- Leave the block context at a directive or a document mark. -/
def leaveBlocks (s : Scanner) : Option Scanner := do
  let s ← (s.unrollTo (-1)).dropKey
  return { s with keyAllowed := false }

/-- Take a token of `n` characters. -/
def take (s : Scanner) (n : Nat) (t : Token) : Scanner :=
  { s with cursor := s.cursor.skip n }.emit t

def fetchEnd (s : Scanner) : Option Scanner := do
  let c := s.cursor
  let c : Cursor := if c.column = 0 then c else ⟨c.rest, c.index, c.line + 1, 0⟩
  let s ← { s with cursor := c }.leaveBlocks
  return { s.emit .streamEnd with finished := true }

def fetchFlowStart (s : Scanner) (t : Token) : Option Scanner := do
  let s ← s.saveKey
  return { s with keys := none :: s.keys, keyAllowed := true }.take 1 t

def fetchFlowEnd (s : Scanner) (t : Token) : Option Scanner := do
  let s ← s.dropKey
  let keys := if s.inFlow then s.keys.drop 1 else s.keys
  return { s with keys, keyAllowed := false }.take 1 t

def fetchFlowEntry (s : Scanner) : Option Scanner := do
  let s ← s.dropKey
  return { s with keyAllowed := true }.take 1 .flowEntry

def fetchBlockEntry (s : Scanner) : Option Scanner := do
  if !s.inFlow && !s.keyAllowed then none
  let s := s.roll s.cursor.column none .blockSequenceStart
  let s ← s.dropKey
  return { s with keyAllowed := true }.take 1 .blockEntry

def fetchKey (s : Scanner) : Option Scanner := do
  if !s.inFlow && !s.keyAllowed then none
  let s := s.roll s.cursor.column none .blockMappingStart
  let s ← s.dropKey
  return { s with keyAllowed := !s.inFlow }.take 1 .key

/-- A colon makes the possible key in front of it a key. -/
def fetchValue (s : Scanner) : Option Scanner :=
  match s.keys with
  | some k :: rest =>
    let s := { s with tokens := s.tokens.insertIdx! k.token .key }
    let s := s.roll k.column (some k.token) .blockMappingStart
    some ({ s with keys := none :: rest, keyAllowed := false }.take 1 .value)
  | _ => do
    if !s.inFlow && !s.keyAllowed then none
    let s := s.roll s.cursor.column none .blockMappingStart
    return { s with keyAllowed := !s.inFlow }.take 1 .value

/-- A token that may be a key, read by `read`. -/
def fetchNode (s : Scanner) (read : Cursor → Option (Token × Cursor)) : Option Scanner := do
  let s ← s.saveKey
  let (t, c) ← read s.cursor
  return { s with cursor := c, keyAllowed := false }.emit t

def fetchBlockScalar (s : Scanner) (folded : Bool) : Option Scanner := do
  let s ← s.dropKey
  let (text, c) ← blockScalar folded s.indent s.cursor
  let t := Token.scalar text (if folded then .folded else .literal)
  return { s with cursor := c, keyAllowed := true }.emit t

def fetchPlain (s : Scanner) : Option Scanner := do
  let s ← s.saveKey
  let (text, broken, c) ← plainScalar s.inFlow (s.indent + 1) s.cursor
  return { s with cursor := c, keyAllowed := broken }.emit (.scalar text .plain)

/-- Indicators that start no plain scalar. -/
def isIndicator (c : Char) : Bool :=
  c ∈ ['-', '?', ':', ',', '[', ']', '\x7b', '\x7d', '#', '&', '*', '!', '|', '>', '\'', '"', '%',
    '@', '\x60']

/-- Whether a plain scalar may start here. -/
def plainStart (s : Scanner) : Bool :=
  let c := s.cursor
  (!c.gapAt 0 && !c.next isIndicator) ||
    (c.sees 0 '-' && !(c.ahead? 1).any isWhite) ||
    (!s.inFlow && (c.sees 0 '?' || c.sees 0 ':') && !c.gapAt 1)

/-- Read the next token, and those that it brings about. -/
def fetch (s : Scanner) : Option Scanner := do
  let s ← (skipGap (s.cursor.rest.length + 1) s).dropStale
  let s := s.unrollTo s.cursor.column
  let c := s.cursor
  match c.ahead? 0 with
  | none => s.fetchEnd
  | some ch =>
    if c.column == 0 && ch == '%' then
      let s ← s.leaveBlocks
      let (t, c) ← directive s.cursor
      return { s with cursor := c }.emit t
    else if c.marker '-' then return (← s.leaveBlocks).take 3 .documentStart
    else if c.marker '.' then return (← s.leaveBlocks).take 3 .documentEnd
    else if ch == '[' then s.fetchFlowStart .flowSequenceStart
    else if ch == '\x7b' then s.fetchFlowStart .flowMappingStart
    else if ch == ']' then s.fetchFlowEnd .flowSequenceEnd
    else if ch == '\x7d' then s.fetchFlowEnd .flowMappingEnd
    else if ch == ',' then s.fetchFlowEntry
    else if ch == '-' && c.gapAt 1 then s.fetchBlockEntry
    else if ch == '?' && (s.inFlow || c.gapAt 1) then s.fetchKey
    else if ch == ':' && (s.inFlow || c.gapAt 1) then s.fetchValue
    else if ch == '*' then
      s.fetchNode fun c => (anchorName c).map fun p => (.alias p.1, p.2)
    else if ch == '&' then
      s.fetchNode fun c => (anchorName c).map fun p => (.anchor p.1, p.2)
    else if ch == '!' then s.fetchNode (tagToken s.inFlow)
    else if ch == '|' && !s.inFlow then s.fetchBlockScalar false
    else if ch == '>' && !s.inFlow then s.fetchBlockScalar true
    else if ch == '\'' then
      s.fetchNode fun c => (quotedScalar true c).map fun p => (.scalar p.1 .quoted, p.2)
    else if ch == '"' then
      s.fetchNode fun c => (quotedScalar false c).map fun p => (.scalar p.1 .quoted, p.2)
    else if s.plainStart then s.fetchPlain
    else none

/-- Fetch until the text ends or turns out to be defective. -/
def run : Nat → Scanner → List Token
  | 0, s => s.tokens.toList
  | fuel + 1, s =>
    if s.finished then s.tokens.toList
    else
      match s.fetch.bind dropStale with
      | some t => run fuel t
      | none => s.tokens.toList.take s.pending

end Scanner

/-- The characters of a text behind a mark of its byte order. -/
def dropByteOrder : List Char → List Char
  | '\ufeff' :: rest => rest
  | cs => cs

/-- The tokens of a text, up to a defect. A defective text has no `streamEnd`. -/
def Token.scan (text : String) : List Token :=
  let cs := dropByteOrder text.toList
  if cs.all isAllowed then Scanner.run (cs.length + 2) (.start cs) else []

end EntityCatalog.Document.Yaml
