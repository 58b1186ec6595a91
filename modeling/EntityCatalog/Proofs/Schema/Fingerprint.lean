import EntityCatalog.Proofs.Schema.Registry
import EntityCatalog.Proofs.Text.ByteOrder
import EntityCatalog.Schema.Registry
import Mathlib.Data.List.Induction

/-!
# What a fingerprint tells apart

The bytes that are hashed are texts and marks: behind the name of a field stand its number, its kind and
whether it is repeated. Marks are found again from their ends, but nothing shows where one text ends and
the next begins. So the bytes tell the contents of a registry together with the lengths of its texts, and
alone they tell the marks and what the texts between them amount to (`TypeRegistry.fingerprint_tells`).
-/

namespace EntityCatalog

/-! ## Texts -/

theorem bytesOf_append (s t : String) : bytesOf (s ++ t) = bytesOf s ++ bytesOf t := by
  rw [bytesOf, String.toList_append, List.flatMap_append]
  rfl

theorem bytesOf_inj {s t : String} (h : bytesOf s = bytesOf t) : s = t := by
  have hbytes : Text.bytes s = Text.bytes t := by rwa [Text.bytes_eq, Text.bytes_eq]
  refine String.le_antisymm (String.not_lt.1 fun hlt => ?_) (String.not_lt.1 fun hlt => ?_)
  · exact List.lt_irrefl _ (hbytes ▸ Text.bytes_lt_iff.2 hlt)
  · exact List.lt_irrefl _ (hbytes ▸ Text.bytes_lt_iff.2 hlt)

/-- Behind anything, texts that take equally many bytes are told from their bytes. -/
theorem append_bytesOf_inj {a b : List UInt8} {s t : String}
    (hlen : (bytesOf s).length = (bytesOf t).length) (h : a ++ bytesOf s = b ++ bytesOf t) :
    a = b ∧ s = t := by
  obtain ⟨hfront, htext⟩ := List.append_inj' h hlen
  exact ⟨hfront, bytesOf_inj htext⟩

/-- A byte that stands at the end of a mark. -/
def IsFlag (b : UInt8) : Prop := b = 0 ∨ b = 1

/-- A text without the two characters that are written as such a byte. -/
def Unflagged (s : String) : Prop := '\x00' ∉ s.toList ∧ '\x01' ∉ s.toList

theorem flag_of_mem_encode {c : Char} {b : UInt8} (hb : b ∈ String.utf8EncodeChar c)
    (hflag : IsFlag b) : c = '\x00' ∨ c = '\x01' := by
  have hsmall : b.toNat < 2 := by rcases hflag with rfl | rfl <;> decide
  have hc : c.val.toNat = 0 ∨ c.val.toNat = 1 := by
    unfold String.utf8EncodeChar at hb
    dsimp only at hb
    generalize c.val.toNat = m at *
    -- a character that takes several bytes has none below 128
    split_ifs at hb <;>
      simp only [List.mem_cons, List.not_mem_nil, or_false, ← UInt8.toNat_inj, UInt8.toNat_ofNat',
        Nat.reducePow] at hb <;>
      omega
  rcases hc with h | h
  · exact .inl (Char.ext (UInt32.toNat_inj.1 h))
  · exact .inr (Char.ext (UInt32.toNat_inj.1 h))

theorem Unflagged.not_mem {s : String} (h : Unflagged s) : ∀ b ∈ bytesOf s, ¬ IsFlag b := by
  intro b hb hflag
  obtain ⟨c, hc, hb⟩ := List.mem_flatMap.1 hb
  rcases flag_of_mem_encode hb hflag with rfl | rfl
  · exact h.1 hc
  · exact h.2 hc

theorem Unflagged.append {s t : String} (hs : Unflagged s) (ht : Unflagged t) : Unflagged (s ++ t) := by
  simp only [Unflagged, String.toList_append, List.mem_append, not_or]
  exact ⟨⟨hs.1, ht.1⟩, hs.2, ht.2⟩

theorem append_flag_inj {a b u v : List UInt8} {x y : UInt8} (hx : IsFlag x) (hy : IsFlag y)
    (hu : ∀ c ∈ u, ¬ IsFlag c) (hv : ∀ c ∈ v, ¬ IsFlag c) (h : a ++ x :: u = b ++ y :: v) :
    a = b ∧ x = y ∧ u = v := by
  rcases List.append_eq_append_iff.1 h with ⟨_ | ⟨c, mid⟩, rfl, hrest⟩ | ⟨_ | ⟨c, mid⟩, rfl, hrest⟩
  · obtain ⟨rfl, rfl⟩ := List.cons.inj hrest
    exact ⟨by simp, rfl, rfl⟩
  · obtain ⟨rfl, rfl⟩ := List.cons.inj hrest
    exact absurd hy (hu y (by simp))
  · obtain ⟨rfl, rfl⟩ := List.cons.inj hrest
    exact ⟨by simp, rfl, rfl⟩
  · obtain ⟨rfl, rfl⟩ := List.cons.inj hrest
    exact absurd hx (hv x (by simp))

/-! ## Marks -/

theorem Hash.wordBytes_inj {a b : UInt32} (h : wordBytes a = wordBytes b) : a = b := by
  simp only [wordBytes, List.cons.injEq, and_true, ← UInt8.toNat_inj, UInt32.toNat_toUInt8,
    UInt32.toNat_shiftRight, UInt32.reduceToNat, Nat.reduceMod, Nat.reducePow] at h
  rw [← UInt32.toNat_inj]
  have ha := a.toNat_lt
  have hb := b.toNat_lt
  omega

/-- The last two bytes of a title tell the kind. -/
theorem FieldKind.append_title_inj {k l : FieldKind} {a b : List UInt8}
    (h : a ++ bytesOf k.title = b ++ bytesOf l.title) : a = b ∧ k = l := by
  have hlen (k : FieldKind) : 2 ≤ (bytesOf k.title).reverse.length := by cases k <;> decide
  have hlast (k : FieldKind) (a : List UInt8) :
      (a ++ bytesOf k.title).reverse.take 2 = (bytesOf k.title).reverse.take 2 := by
    rw [List.reverse_append, List.take_append_of_le_length (hlen k)]
  have htwo : (bytesOf k.title).reverse.take 2 = (bytesOf l.title).reverse.take 2 := by
    rw [← hlast k a, h, hlast]
  have hkind : k = l := by
    revert htwo
    cases k <;> cases l <;> decide
  subst hkind
  exact ⟨List.append_cancel_right h, rfl⟩

/-- What is written between the name of a field and its type name. -/
structure FieldMark where
  number : UInt32
  kind : FieldKind
  repeated : Bool
  deriving DecidableEq

namespace FieldMark

/-- What stands in front of the flag. -/
def head (m : FieldMark) : List UInt8 := Hash.wordBytes m.number ++ bytesOf m.kind.title

def flag (m : FieldMark) : UInt8 := if m.repeated then 1 else 0

def bytes (m : FieldMark) : List UInt8 := m.head ++ [m.flag]

theorem isFlag_flag (m : FieldMark) : IsFlag m.flag := by
  unfold flag
  split
  · exact .inr rfl
  · exact .inl rfl

theorem append_head_inj {a b : List UInt8} {m n : FieldMark} (h : a ++ m.head = b ++ n.head)
    (hflag : m.flag = n.flag) : a = b ∧ m = n := by
  obtain ⟨number, kind, repeated⟩ := m
  obtain ⟨number', kind', repeated'⟩ := n
  simp only [head, ← List.append_assoc] at h
  obtain ⟨hnumber, rfl⟩ := FieldKind.append_title_inj h
  obtain ⟨rfl, hword⟩ := List.append_inj' hnumber rfl
  obtain rfl := Hash.wordBytes_inj hword
  have hrepeated : repeated = repeated' := by
    cases repeated <;> cases repeated' <;> first | rfl | cases hflag
  exact ⟨rfl, by rw [hrepeated]⟩

theorem append_bytes_inj {a b : List UInt8} {m n : FieldMark} (h : a ++ m.bytes = b ++ n.bytes) :
    a = b ∧ m = n := by
  simp only [bytes, ← List.append_assoc] at h
  obtain ⟨hhead, hflag⟩ := List.append_inj' h rfl
  exact append_head_inj hhead (List.cons.inj hflag).1

end FieldMark

namespace FieldDescriptor

def mark (f : FieldDescriptor) : FieldMark := ⟨f.number, f.kind, f.repeated⟩

theorem preimage_eq (f : FieldDescriptor) :
    f.preimage = bytesOf f.name ++ f.mark.bytes ++ (f.typeName.map bytesOf).getD [] := by
  simp only [preimage, FieldMark.bytes, FieldMark.head, List.append_assoc]
  rfl

end FieldDescriptor

/-! ## Contents and lengths -/

/-- Lists are told from their encodings, one behind the other, if elements alike in `c` are. -/
theorem append_flatMap_inj {α γ : Type} {c : α → γ} {f : α → List UInt8}
    (hf : ∀ x y, c x = c y → ∀ a b, a ++ f x = b ++ f y → a = b ∧ x = y) {l l' : List α}
    (hc : l.map c = l'.map c) {a b : List UInt8} (h : a ++ l.flatMap f = b ++ l'.flatMap f) :
    a = b ∧ l = l' := by
  induction l generalizing l' a b with
  | nil =>
    obtain rfl : l' = [] := by simpa using hc.symm
    exact ⟨by simpa using h, rfl⟩
  | cons x l ih =>
    cases l' with
    | nil => cases hc
    | cons y l' =>
      obtain ⟨hxy, hc⟩ := List.cons.inj hc
      simp only [List.flatMap_cons, ← List.append_assoc] at h
      obtain ⟨hfront, rfl⟩ := ih hc h
      obtain ⟨hab, rfl⟩ := hf x y hxy a b hfront
      exact ⟨hab, rfl⟩

namespace FieldDescriptor

/-- How many bytes the texts of a field take. -/
def lengths (f : FieldDescriptor) : Nat × Option Nat :=
  ((bytesOf f.name).length, f.typeName.map fun t => (bytesOf t).length)

theorem append_preimage_inj {f g : FieldDescriptor} (hlen : f.lengths = g.lengths) {a b : List UInt8}
    (h : a ++ f.preimage = b ++ g.preimage) : a = b ∧ f = g := by
  obtain ⟨hname, htype⟩ := Prod.mk.inj hlen
  simp only [preimage_eq, ← List.append_assoc] at h
  have htexts : a ++ bytesOf f.name ++ f.mark.bytes = b ++ bytesOf g.name ++ g.mark.bytes ∧
      f.typeName = g.typeName := by
    cases hf : f.typeName with
    | none =>
      have hg : g.typeName = none := by simpa [hf] using htype.symm
      exact ⟨by simpa [hf, hg] using h, hg.symm⟩
    | some t =>
      obtain ⟨u, hg, hlength⟩ : ∃ u, g.typeName = some u ∧ (bytesOf u).length = (bytesOf t).length := by
        simpa [hf] using htype.symm
      rw [hf, hg] at h
      obtain ⟨hfront, rfl⟩ := append_bytesOf_inj hlength.symm h
      exact ⟨hfront, hg.symm⟩
  obtain ⟨hfront, htypeName⟩ := htexts
  obtain ⟨hnames, hmark⟩ := FieldMark.append_bytes_inj hfront
  obtain ⟨hab, hnameEq⟩ := append_bytesOf_inj hname hnames
  obtain ⟨name, number, kind, repeated, typeName⟩ := f
  cases hmark
  cases hnameEq
  cases htypeName
  exact ⟨hab, rfl⟩

end FieldDescriptor

namespace Descriptor

def lengths (d : Descriptor) : Nat × List (Nat × Option Nat) :=
  ((bytesOf d.fullName).length, d.fields.map FieldDescriptor.lengths)

theorem append_preimage_inj {d e : Descriptor} (hlen : d.lengths = e.lengths) {a b : List UInt8}
    (h : a ++ d.preimage = b ++ e.preimage) : a = b ∧ d = e := by
  obtain ⟨hname, hfields⟩ := Prod.mk.inj hlen
  simp only [preimage, ← List.append_assoc] at h
  obtain ⟨hfront, hfieldsEq⟩ := append_flatMap_inj
    (fun f g hfg a b hab => FieldDescriptor.append_preimage_inj hfg hab) hfields h
  obtain ⟨hab, hnameEq⟩ := append_bytesOf_inj hname hfront
  cases d
  cases e
  exact ⟨hab, by rw [mk.injEq]; exact ⟨hnameEq, hfieldsEq⟩⟩

end Descriptor

namespace TypeRegistry

variable (r s : TypeRegistry)

theorem ext_descriptors {r s : TypeRegistry} (h : r.descriptors = s.descriptors) : r = s :=
  ext_find? fun name => by rw [← find?_descriptors, h, find?_descriptors]

def lengths : List (Nat × List (Nat × Option Nat)) := r.descriptors.map Descriptor.lengths

theorem eq_iff_preimage_lengths : r = s ↔ r.preimage = s.preimage ∧ r.lengths = s.lengths := by
  constructor
  · rintro rfl
    exact ⟨rfl, rfl⟩
  · rintro ⟨hbytes, hlengths⟩
    have hempty : [] ++ r.preimage = [] ++ s.preimage := hbytes
    obtain ⟨-, hdescriptors⟩ := append_flatMap_inj
      (fun d e hde a b hab => Descriptor.append_preimage_inj hde hab) hlengths hempty
    exact ext_descriptors hdescriptors

end TypeRegistry

/-! ## Marks and the texts between them -/

/-- What is written one after another. -/
inductive Piece where
  | text (s : String)
  | mark (m : FieldMark)

def Piece.bytes : Piece → List UInt8
  | text s => bytesOf s
  | mark m => m.bytes

def FieldDescriptor.pieces (f : FieldDescriptor) : List Piece :=
  .text f.name :: .mark f.mark :: (f.typeName.map Piece.text).toList

def Descriptor.pieces (d : Descriptor) : List Piece :=
  .text d.fullName :: d.fields.flatMap FieldDescriptor.pieces

def TypeRegistry.pieces (r : TypeRegistry) : List Piece := r.descriptors.flatMap Descriptor.pieces

theorem FieldDescriptor.preimage_pieces (f : FieldDescriptor) :
    f.preimage = f.pieces.flatMap Piece.bytes := by
  rw [preimage_eq, pieces]
  cases f.typeName <;> simp [Piece.bytes]

theorem Descriptor.preimage_pieces (d : Descriptor) : d.preimage = d.pieces.flatMap Piece.bytes := by
  have hfields : FieldDescriptor.preimage = fun f => f.pieces.flatMap Piece.bytes :=
    funext FieldDescriptor.preimage_pieces
  rw [preimage, pieces, List.flatMap_cons, List.flatMap_assoc, hfields]
  rfl

theorem TypeRegistry.preimage_pieces (r : TypeRegistry) :
    r.preimage = r.pieces.flatMap Piece.bytes := by
  have hdescriptors : Descriptor.preimage = fun d => d.pieces.flatMap Piece.bytes :=
    funext Descriptor.preimage_pieces
  rw [preimage, pieces, List.flatMap_assoc, hdescriptors]

/-- Marks, each with all the text since the one before it, and the text behind the last. -/
structure TextRuns where
  marked : List (String × FieldMark)
  last : String
  deriving DecidableEq

namespace TextRuns

/-- The runs of pieces behind a text. -/
def ofPieces (front : String) : List Piece → TextRuns
  | [] => ⟨[], front⟩
  | .text s :: rest => ofPieces (front ++ s) rest
  | .mark m :: rest => { ofPieces "" rest with marked := (front, m) :: (ofPieces "" rest).marked }

def bytes (p : TextRuns) : List UInt8 :=
  (p.marked.flatMap fun q => bytesOf q.1 ++ q.2.bytes) ++ bytesOf p.last

structure Clean (p : TextRuns) : Prop where
  marked : ∀ q ∈ p.marked, Unflagged q.1
  last : Unflagged p.last

theorem bytes_ofPieces (front : String) (pieces : List Piece) :
    (ofPieces front pieces).bytes = bytesOf front ++ pieces.flatMap Piece.bytes := by
  induction pieces generalizing front with
  | nil => simp [ofPieces, bytes]
  | cons p pieces ih =>
    cases p with
    | text s => rw [ofPieces, ih, bytesOf_append, List.flatMap_cons, Piece.bytes, List.append_assoc]
    | mark m =>
      have hrest : (ofPieces "" pieces).bytes = pieces.flatMap Piece.bytes := ih ""
      simp only [bytes] at hrest
      simp [ofPieces, bytes, hrest, Piece.bytes]

theorem clean_ofPieces {front : String} {pieces : List Piece} (hfront : Unflagged front)
    (h : ∀ s, .text s ∈ pieces → Unflagged s) : (ofPieces front pieces).Clean := by
  induction pieces generalizing front with
  | nil => exact ⟨by simp [ofPieces], hfront⟩
  | cons p pieces ih =>
    have hpieces : ∀ s, .text s ∈ pieces → Unflagged s := fun s hs => h s (by simp [hs])
    cases p with
    | text s => exact ih (hfront.append (h s (by simp))) hpieces
    | mark m =>
      have hrest : (ofPieces "" pieces).Clean := ih (by simp [Unflagged]) hpieces
      exact ⟨List.forall_mem_cons.2 ⟨hfront, hrest.marked⟩, hrest.last⟩

theorem bytes_concat (marked : List (String × FieldMark)) (text : String) (m : FieldMark)
    (last : String) : bytes ⟨marked ++ [(text, m)], last⟩ =
      (bytes ⟨marked, text⟩ ++ m.head) ++ m.flag :: bytesOf last := by
  simp [bytes, FieldMark.bytes]

theorem bytes_concat_ne {text last : String} (h : Unflagged text) {marked : List (String × FieldMark)}
    {run : String × FieldMark} : bytes ⟨marked ++ [run], last⟩ ≠ bytes ⟨[], text⟩ := by
  intro heq
  rw [bytes_concat] at heq
  have hflag : run.2.flag ∈ bytes ⟨[], text⟩ := by simp [← heq]
  exact h.not_mem _ (by simpa [bytes] using hflag) run.2.isFlag_flag

theorem bytes_inj {p q : TextRuns} (hp : p.Clean) (hq : q.Clean) (h : p.bytes = q.bytes) : p = q := by
  obtain ⟨marked, last⟩ := p
  obtain ⟨marked', last'⟩ := q
  -- on the runs from the last one on, which ends at the last flag
  induction marked using List.reverseRecOn generalizing marked' last last' with
  | nil =>
    rcases List.eq_nil_or_concat' marked' with rfl | ⟨marked', run, rfl⟩
    · exact congrArg _ (bytesOf_inj (by simpa [bytes] using h))
    · exact absurd h.symm (bytes_concat_ne hp.last)
  | append_singleton marked run ih =>
    rcases List.eq_nil_or_concat' marked' with rfl | ⟨marked', run', rfl⟩
    · exact absurd h (bytes_concat_ne hq.last)
    · obtain ⟨text, m⟩ := run
      obtain ⟨text', m'⟩ := run'
      rw [bytes_concat, bytes_concat] at h
      obtain ⟨hheads, hflag, hlast⟩ :=
        append_flag_inj m.isFlag_flag m'.isFlag_flag hp.last.not_mem hq.last.not_mem h
      obtain ⟨hfront, rfl⟩ := FieldMark.append_head_inj hheads hflag
      have hclean : Clean ⟨marked, text⟩ :=
        ⟨fun run hrun => hp.marked run (by simp [hrun]), hp.marked (text, m) (by simp)⟩
      have hclean' : Clean ⟨marked', text'⟩ :=
        ⟨fun run hrun => hq.marked run (by simp [hrun]), hq.marked (text', m) (by simp)⟩
      cases ih text hclean marked' text' hclean' hfront
      have hlasts : last = last' := bytesOf_inj hlast
      rw [hlasts]

end TextRuns

namespace TypeRegistry

variable (r s : TypeRegistry)

/-- The marks of all fields in order, with the texts between them. -/
def runs : TextRuns := .ofPieces "" r.pieces

/-- No text has a character that is written like the end of a mark. -/
def PlainTexts : Prop := ∀ t, .text t ∈ r.pieces → Unflagged t

theorem preimage_runs : r.preimage = r.runs.bytes := by
  rw [preimage_pieces, runs, TextRuns.bytes_ofPieces]
  rfl

variable {r s}

theorem preimage_eq_iff_runs (hr : r.PlainTexts) (hs : s.PlainTexts) :
    r.preimage = s.preimage ↔ r.runs = s.runs := by
  rw [preimage_runs, preimage_runs]
  constructor
  · intro h
    have hempty : Unflagged "" := by simp [Unflagged]
    exact TextRuns.bytes_inj (TextRuns.clean_ofPieces hempty hr) (TextRuns.clean_ofPieces hempty hs) h
  · intro h
    rw [h]

end TypeRegistry

/-! ## Fingerprints -/

theorem Hash.hex_inj {a b : List UInt8} (h : hex a = hex b) : a = b := by
  have hdigit : ∀ m < 16, ∀ n < 16, Nat.digitChar m = Nat.digitChar n → m = n := by decide
  replace h := String.ofList_injective h
  induction a generalizing b with
  | nil =>
    cases b with
    | nil => rfl
    | cons y b => cases h
  | cons x a ih =>
    cases b with
    | nil => cases h
    | cons y b =>
      simp only [List.flatMap_cons, List.cons_append, List.nil_append, List.cons.injEq] at h
      obtain ⟨hhigh, hlow, hrest⟩ := h
      have hx := x.toNat_lt
      have hy := y.toNat_lt
      have hhigh := hdigit _ (by omega) _ (by omega) hhigh
      have hlow := hdigit _ (by omega) _ (by omega) hlow
      have hxy : x = y := UInt8.toNat_inj.1 (by omega)
      rw [hxy, ih hrest]

namespace TypeRegistry

/-- **Equal registries have equal fingerprints, and unequal ones have unequal bytes if their texts take
equally many bytes.** Without a collision of the hash on them, fingerprints are equal exactly if the bytes
are. If no text holds a character that is written like the end of a mark, the bytes are equal exactly if
the numbers, kinds and repetitions of all fields are, in order, and the texts between them join to the
same ones. -/
theorem fingerprint_tells (r s : TypeRegistry) :
    ((∀ name, r.find? name = s.find? name) → r.preimage = s.preimage ∧ r.fingerprint = s.fingerprint) ∧
    ((Hash.sha256 r.preimage = Hash.sha256 s.preimage → r.preimage = s.preimage) →
      (r.fingerprint = s.fingerprint ↔ r.preimage = s.preimage)) ∧
    (r = s ↔ r.preimage = s.preimage ∧ r.lengths = s.lengths) ∧
    (r.PlainTexts → s.PlainTexts → (r.preimage = s.preimage ↔ r.runs = s.runs)) := by
  refine ⟨fun h => ?_, fun hhash => ⟨fun h => ?_, fun h => ?_⟩, eq_iff_preimage_lengths r s,
    preimage_eq_iff_runs⟩
  · rw [ext_find? h]
    exact ⟨rfl, rfl⟩
  · exact hhash (Hash.hex_inj h)
  · rw [fingerprint, h, fingerprint]

/-! ### Books -/

/-- A book with a map of authors, and one more field. -/
def books (authors : Option String) (field : String) : TypeRegistry :=
  ofList [⟨"demo.Book", [.ofMap "authors" 1 authors, .plain field 2 .string]⟩]

theorem fingerprint_tells_books :
    (books none "title").preimage ≠ (books none "name").preimage ∧
      (books none "title").fingerprint ≠ (books none "name").fingerprint := by
  obtain ⟨-, hhash, -, hruns⟩ := fingerprint_tells (books none "title") (books none "name")
  have hplain (field : String) (h : Unflagged field) : (books none field).PlainTexts := by
    have hpieces : (books none field).pieces = [.text "demo.Book", .text "authors",
      .mark ⟨1, .map, false⟩, .text field, .mark ⟨2, .string, false⟩] := rfl
    intro t ht
    simp only [hpieces, List.mem_cons, Piece.text.injEq, List.not_mem_nil, or_false, reduceCtorEq,
      false_or] at ht
    rcases ht with rfl | rfl | rfl
    · simp [Unflagged]
    · simp [Unflagged]
    · exact h
  have hbytes : (books none "title").preimage ≠ (books none "name").preimage := by
    rw [ne_eq, hruns (hplain _ (by simp [Unflagged])) (hplain _ (by simp [Unflagged]))]
    decide
  have hcollision : Hash.sha256 (books none "title").preimage ≠
      Hash.sha256 (books none "name").preimage := by decide +kernel
  exact ⟨hbytes, fun h => hbytes ((hhash fun heq => absurd heq hcollision).1 h)⟩

/-- The name of a descriptor runs into that of the next one, and a type name into a field's name. -/
theorem texts_run_together :
    ofList [⟨"ab", []⟩] ≠ ofList [⟨"a", []⟩, ⟨"b", []⟩] ∧
    (ofList [⟨"ab", []⟩]).preimage = (ofList [⟨"a", []⟩, ⟨"b", []⟩]).preimage ∧
    (ofList [⟨"ab", []⟩]).fingerprint = (ofList [⟨"a", []⟩, ⟨"b", []⟩]).fingerprint ∧
    books (some "demo.Person") "al" ≠ books (some "demo.Persona") "l" ∧
    (books (some "demo.Person") "al").fingerprint = (books (some "demo.Persona") "l").fingerprint := by
  have hnames : (ofList [⟨"ab", []⟩]).preimage = (ofList [⟨"a", []⟩, ⟨"b", []⟩]).preimage := by decide
  have htypes : (books (some "demo.Person") "al").preimage = (books (some "demo.Persona") "l").preimage := by
    decide
  refine ⟨by decide, hnames, ?_, by decide, ?_⟩
  · rw [fingerprint, hnames, fingerprint]
  · rw [fingerprint, htypes, fingerprint]

end TypeRegistry

end EntityCatalog
