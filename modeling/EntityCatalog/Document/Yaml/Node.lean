import EntityCatalog.Document.Yaml.Token

/-!
# The tree of a YAML text

`Tree.parse` builds the node of the first document of a text. As long as the tokens keep to the
grammar, nodes are complete; at the first defect the node under construction ends in `Node.cut`,
and so do those around it. Anchored nodes are kept aside as `Mark`s, to which aliases refer by
number.
-/

namespace EntityCatalog.Document.Yaml

inductive Node where
  | scalar (text : String) (tag : Option String) (style : Style)
  | sequence (tag : Option String) (items : List Node)
  | mapping (tag : Option String) (entries : List (Node × Node))
  /-- The node that bears an anchor's number. -/
  | alias (number : Nat)
  /-- A text without a document. -/
  | void
  /-- The text is defective from here on. -/
  | cut
  deriving Inhabited

/-- An anchored node. `left` is the number of tokens left where it starts. -/
structure Mark where
  number : Nat
  left : Nat
  node : Node

namespace Node

/-- A node that is not written. -/
def blank : Node := scalar "" none .plain

mutual

/-- The number of starts and ends of nodes. -/
def events : Node → Nat
  | sequence _ items => 2 + eventsOfItems items
  | mapping _ entries => 2 + eventsOfEntries entries
  | _ => 1

def eventsOfItems : List Node → Nat
  | [] => 0
  | n :: rest => n.events + eventsOfItems rest

def eventsOfEntries : List (Node × Node) → Nat
  | [] => 0
  | (k, v) :: rest => k.events + v.events + eventsOfEntries rest

end

mutual

/-- Whether a node is free of cuts; aliases are not followed. -/
def isWhole : Node → Bool
  | cut => false
  | sequence _ items => areWhole items
  | mapping _ entries => entriesWhole entries
  | _ => true

def areWhole : List Node → Bool
  | [] => true
  | n :: rest => n.isWhole && areWhole rest

def entriesWhole : List (Node × Node) → Bool
  | [] => true
  | (k, v) :: rest => k.isWhole && v.isWhole && entriesWhole rest

end

/-- The node of a number: the one that starts last. -/
def marked (marks : List Mark) (number : Nat) : Node :=
  let found := marks.foldl (fun best m =>
    if m.number ≠ number then best
    else match best with
      | some b => if m.left < b.left then some m else best
      | none => some m) (none : Option Mark)
  match found with
  | some m => m.node
  | none => cut

end Node

/-- What the nodes are built from: the tokens left, the tag handles, and the anchors met. -/
structure Builder where
  tokens : List Token
  handles : List (List Char × List Char)
  anchors : List (List Char × Nat)
  marks : List Mark
  broken : Bool

namespace Builder

def fail (b : Builder) : Builder := { b with broken := true }

def drop (b : Builder) : Builder := { b with tokens := b.tokens.drop 1 }

/-- Number an anchor: by the count of different names before it. -/
def name (b : Builder) (anchor : List Char) : Nat × Builder :=
  let number := b.anchors.length
  (number, { b with anchors := (anchor, number) :: b.anchors.filter (·.1 ≠ anchor) })

def number? (b : Builder) (anchor : List Char) : Option Nat := b.anchors.lookup anchor

/-- The tag that a handle and a suffix stand for. -/
def resolve? (b : Builder) (handle suffix : List Char) : Option String :=
  if handle.isEmpty then some (String.ofList suffix)
  else (b.handles.lookup handle).map fun p => String.ofList (p ++ suffix)

end Builder

/-- The anchor and the tag in front of a node. -/
structure Properties where
  anchor : Option (List Char)
  tag : Option (List Char × List Char)

/-- Read an anchor and a tag, in either order, at most one of each. -/
def Properties.read : List Token → Properties × List Token
  | .anchor a :: .tag h s :: rest => (⟨some a, some (h, s)⟩, rest)
  | .anchor a :: rest => (⟨some a, none⟩, rest)
  | .tag h s :: .anchor a :: rest => (⟨some a, some (h, s)⟩, rest)
  | .tag h s :: rest => (⟨none, some (h, s)⟩, rest)
  | rest => (⟨none, none⟩, rest)

/-- Tokens that stand behind a key or value of a block mapping that is not written. -/
def endsBlockEntry : Token → Bool
  | .key | .value | .blockEnd => true
  | _ => false

mutual

/-- Build the node at the next token. In `block` context the node may be a block collection; after
a key (`loose`) also a sequence that is not indented. -/
def buildNode (fuel : Nat) (block loose : Bool) (b : Builder) : Node × Builder :=
  match fuel with
  | 0 => (.cut, b.fail)
  | fuel + 1 =>
    match b.tokens with
    | .alias name :: rest =>
      match b.number? name with
      | some n => (.alias n, { b with tokens := rest })
      | none => (.cut, b.fail)
    | tokens =>
      let left := tokens.length
      let (p, rest) := Properties.read tokens
      let b := { b with tokens := rest }
      let tag? : Option (Option String) := match p.tag with
        | some (h, s) => (b.resolve? h s).map some
        | none => some none
      match rest, tag? with
      | [], _ => (.cut, b.fail)
      | _, none => (.cut, b.fail)
      | next :: _, some tag =>
        let (number, b) := match p.anchor with
          | some a => let (n, b) := b.name a; (some n, b)
          | none => (none, b)
        let (node, b) := buildContent fuel block loose (p.anchor.isSome || tag.isSome) tag next b
        match number with
        | some n => (node, { b with marks := ⟨n, left, node⟩ :: b.marks })
        | none => (node, b)

/-- Build a node from the token behind its properties. -/
def buildContent (fuel : Nat) (block loose dressed : Bool) (tag : Option String) (next : Token)
    (b : Builder) : Node × Builder :=
  match fuel with
  | 0 => (.cut, b.fail)
  | fuel + 1 =>
    match next, block, loose with
    | .blockEntry, _, true =>
      let (items, b) := looseItems fuel b
      (.sequence tag items, b)
    | .scalar text style, _, _ =>
      let tag := if tag = some "!" then none else tag
      (.scalar (String.ofList text) tag style, b.drop)
    | .flowSequenceStart, _, _ =>
      let (items, b) := flowItems fuel true b.drop
      (.sequence tag items, b)
    | .flowMappingStart, _, _ =>
      let (entries, b) := flowEntries fuel true b.drop
      (.mapping tag entries, b)
    | .blockSequenceStart, true, _ =>
      let (items, b) := blockItems fuel b.drop
      (.sequence tag items, b)
    | .blockMappingStart, true, _ =>
      let (entries, b) := blockEntries fuel b.drop
      (.mapping tag entries, b)
    | _, _, _ =>
      if dressed then (.scalar "" (if tag = some "!" then none else tag) .plain, b)
      else (.cut, b.fail)

/-- Build the node behind an indicator, a blank one if a token of `ends` is next. -/
def buildAfter (fuel : Nat) (block loose : Bool) (ends : Token → Bool) (b : Builder) :
    Node × Builder :=
  match fuel with
  | 0 => (.cut, b.fail)
  | fuel + 1 =>
    match b.tokens with
    | [] => (.cut, b.fail)
    | t :: _ => if ends t then (.blank, b) else buildNode fuel block loose b

/-- The items of a block sequence. -/
def blockItems (fuel : Nat) (b : Builder) : List Node × Builder :=
  match fuel with
  | 0 => ([.cut], b.fail)
  | fuel + 1 =>
    match b.tokens with
    | .blockEntry :: _ =>
      let (v, b) := buildAfter fuel true false (fun t : Token => t = .blockEntry || t = .blockEnd) b.drop
      if b.broken then ([v], b)
      else
        let (l, b) := blockItems fuel b
        (v :: l, b)
    | .blockEnd :: _ => ([], b.drop)
    | _ => ([.cut], b.fail)

/-- The items of a block sequence at the column of its key. -/
def looseItems (fuel : Nat) (b : Builder) : List Node × Builder :=
  match fuel with
  | 0 => ([.cut], b.fail)
  | fuel + 1 =>
    match b.tokens with
    | .blockEntry :: _ =>
      let (v, b) := buildAfter fuel true false (fun t : Token => t = .blockEntry || endsBlockEntry t) b.drop
      if b.broken then ([v], b)
      else
        let (l, b) := looseItems fuel b
        (v :: l, b)
    | [] => ([.cut], b.fail)
    | _ => ([], b)

/-- The entries of a block mapping. -/
def blockEntries (fuel : Nat) (b : Builder) : List (Node × Node) × Builder :=
  match fuel with
  | 0 => ([(.cut, .cut)], b.fail)
  | fuel + 1 =>
    match b.tokens with
    | .key :: _ =>
      let (k, b) := buildAfter fuel true true endsBlockEntry b.drop
      if b.broken then ([(k, .cut)], b)
      else
        let (v, b) : Node × Builder := match b.tokens with
          | .value :: _ => buildAfter fuel true true endsBlockEntry b.drop
          | [] => (.cut, b.fail)
          | _ => (.blank, b)
        if b.broken then ([(k, v)], b)
        else
          let (l, b) := blockEntries fuel b
          ((k, v) :: l, b)
    | .blockEnd :: _ => ([], b.drop)
    | _ => ([(.cut, .cut)], b.fail)

/-- The items of a flow sequence. A key among them makes a mapping of one entry. -/
def flowItems (fuel : Nat) (first : Bool) (b : Builder) : List Node × Builder :=
  match fuel with
  | 0 => ([.cut], b.fail)
  | fuel + 1 =>
    match b.tokens, first with
    | .flowSequenceEnd :: _, _ => ([], b.drop)
    | .flowEntry :: _, false => flowItem fuel b.drop
    | _, true => flowItem fuel b
    | _, false => ([.cut], b.fail)

/-- The items of a flow sequence behind a comma or at the start. -/
def flowItem (fuel : Nat) (b : Builder) : List Node × Builder :=
  match fuel with
  | 0 => ([.cut], b.fail)
  | fuel + 1 =>
    match b.tokens with
    | .flowSequenceEnd :: _ => ([], b.drop)
    | [] => ([.cut], b.fail)
    | t :: _ =>
      let (v, b) := if t = .key then flowPair fuel b.drop else buildNode fuel false false b
      if b.broken then ([v], b)
      else
        let (l, b) := flowItems fuel false b
        (v :: l, b)

/-- The single entry of a mapping inside a flow sequence, behind the key's token. -/
def flowPair (fuel : Nat) (b : Builder) : Node × Builder :=
  match fuel with
  | 0 => (.cut, b.fail)
  | fuel + 1 =>
    let (k, b) : Node × Builder := match b.tokens with
      | [] => (.cut, b.fail)
      | t :: _ =>
        if t = .value || t = .flowEntry || t = .flowSequenceEnd then (.blank, b.drop)
        else buildNode fuel false false b
    if b.broken then (.mapping none [(k, .cut)], b)
    else
      let (v, b) : Node × Builder := match b.tokens with
        | .value :: _ =>
          buildAfter fuel false false (fun t : Token => t = .flowEntry || t = .flowSequenceEnd) b.drop
        | [] => (.cut, b.fail)
        | _ => (.blank, b)
      (.mapping none [(k, v)], b)

/-- The entries of a flow mapping. -/
def flowEntries (fuel : Nat) (first : Bool) (b : Builder) : List (Node × Node) × Builder :=
  match fuel with
  | 0 => ([(.cut, .cut)], b.fail)
  | fuel + 1 =>
    match b.tokens, first with
    | .flowMappingEnd :: _, _ => ([], b.drop)
    | .flowEntry :: _, false => flowEntryNodes fuel b.drop
    | _, true => flowEntryNodes fuel b
    | _, false => ([(.cut, .cut)], b.fail)

/-- The entries of a flow mapping behind a comma or at the start. A node without a key's token is a
key without a value. -/
def flowEntryNodes (fuel : Nat) (b : Builder) : List (Node × Node) × Builder :=
  match fuel with
  | 0 => ([(.cut, .cut)], b.fail)
  | fuel + 1 =>
    match b.tokens with
    | .flowMappingEnd :: _ => ([], b.drop)
    | .key :: _ =>
      let (k, b) := buildAfter fuel false false
        (fun t : Token => t = .value || t = .flowEntry || t = .flowMappingEnd) b.drop
      if b.broken then ([(k, .cut)], b)
      else
        let (v, b) : Node × Builder := match b.tokens with
          | .value :: _ =>
            buildAfter fuel false false (fun t : Token => t = .flowEntry || t = .flowMappingEnd) b.drop
          | [] => (.cut, b.fail)
          | _ => (.blank, b)
        if b.broken then ([(k, v)], b)
        else
          let (l, b) := flowEntries fuel false b
          ((k, v) :: l, b)
    | _ =>
      let (k, b) := buildNode fuel false false b
      if b.broken then ([(k, .cut)], b)
      else
        let (l, b) := flowEntries fuel false b
        ((k, .blank) :: l, b)

end

/-! ## Documents -/

/-- The handles that need no directive. -/
def standardHandles : List (List Char × List Char) :=
  [(['!'], ['!']), (['!', '!'], "tag:yaml.org,2002:".toList)]

/-- Read the directives in front of a document; an unknown version or a repeated directive is a
defect. -/
def readDirectives : List Token → Bool → List (List Char × List Char) →
    Option (List (List Char × List Char) × List Token)
  | .version known :: rest, versioned, handles =>
    if versioned || !known then none else readDirectives rest true handles
  | .handle name tagStart :: rest, versioned, handles =>
    if (handles.lookup name).isSome then none
    else readDirectives rest versioned ((name, tagStart) :: handles)
  | rest, _, handles => some (handles, rest)

/-- A node of a YAML text with the marks that its aliases refer to, the nesting that is left to it,
and the number of aliases that may be followed inside it. -/
structure Tree where
  marks : List Mark
  depth : Nat
  jumps : Nat
  node : Node

namespace Tree

/-- Deeper nesting is refused. -/
def maxDepth : Nat := 128

/-- Aliases that repeat nodes over and over are refused, by the length of the document. -/
def jumpsPerEvent : Nat := 100

/-- Whether nothing but ends of documents is left. -/
def isComplete (b : Builder) : Bool :=
  !b.broken && b.tokens.dropWhile (· = .documentEnd) = [.streamEnd]

/-- The node of the first document among some tokens. -/
def ofTokens (tokens : List Token) : Node × Builder :=
  let fuel := 3 * tokens.length + 3
  let start (handles : List (List Char × List Char)) (rest : List Token) : Builder :=
    ⟨rest, handles ++ standardHandles, [], [], false⟩
  match tokens with
  | [] => (.cut, (start [] []).fail)
  | .streamEnd :: _ => (.void, start [] tokens)
  | .version _ :: _ | .handle _ _ :: _ | .documentStart :: _ =>
    match readDirectives tokens false [] with
    | some (handles, .documentStart :: rest) =>
      buildAfter fuel true false (fun t => match t with
        | .version _ | .handle _ _ | .documentStart | .documentEnd | .streamEnd => true
        | _ => false) (start handles rest)
    | _ => (.cut, (start [] []).fail)
  | _ => buildNode fuel true false (start [] tokens)

/-- The tree of a text, and whether its only document is sound. -/
def parse (text : String) : Tree × Bool :=
  let (node, b) := ofTokens (Token.scan text)
  (⟨b.marks, maxDepth, jumpsPerEvent * node.events, node⟩, isComplete b)

end Tree

end EntityCatalog.Document.Yaml
