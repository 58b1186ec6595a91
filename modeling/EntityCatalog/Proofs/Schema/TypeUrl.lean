import EntityCatalog.Proofs.Schema.Registry
import EntityCatalog.Proofs.Text.Split
import EntityCatalog.Schema.Conformance

/-!
# Type names and type URLs

The URL of a type name is resolved by what stands behind its last slash, and no slash is kept out of a
type name. A name is found again from its URL exactly if it holds no slash; any other name is taken for
its last part (`TypeRegistry.found_by_own_url_iff`).
-/

namespace EntityCatalog

open Json (Value)

/-- What a type name is taken for in a URL: itself, or the part behind its last slash. -/
inductive LastPart (name : String) : String → Prop
  | whole (h : '/' ∉ name.toList) : LastPart name name
  | behind {before : List Char} {last : String} (h : '/' ∉ last.toList)
      (hjoin : before ++ '/' :: last.toList = name.toList) : LastPart name last

section names
variable {name last : String}

theorem typeNameOf_eq {url : String} {before : List Char} (h : '/' ∉ last.toList)
    (hjoin : before ++ '/' :: last.toList = url.toList) : typeNameOf url = last := by
  rw [typeNameOf, ← hjoin, Text.splitLast_append before h]
  exact String.ofList_toList

theorem toList_typeUrl (name : String) :
    (typeUrl name).toList = "type.googleapis.com".toList ++ '/' :: name.toList := by
  have hsite : "type.googleapis.com/".toList = "type.googleapis.com".toList ++ ['/'] := by decide
  unfold typeUrl
  rw [String.toList_append, hsite, List.append_assoc, List.singleton_append]

theorem typeNameOf_typeUrl (h : LastPart name last) : typeNameOf (typeUrl name) = last := by
  cases h with
  | whole h => exact typeNameOf_eq h (toList_typeUrl name).symm
  | @behind before _ h hjoin =>
    have hurl : ("type.googleapis.com".toList ++ '/' :: before) ++ '/' :: last.toList =
        (typeUrl name).toList := by
      rw [toList_typeUrl, ← hjoin, List.append_assoc, List.cons_append]
    exact typeNameOf_eq h hurl

theorem exists_lastPart (name : String) : ∃ last, LastPart name last := by
  cases hsplit : Text.splitLast '/' name.toList with
  | none => exact ⟨name, .whole (Text.splitLast_eq_none_iff.1 hsplit)⟩
  | some p =>
    obtain ⟨hjoin, hafter⟩ := Text.splitLast_eq_some_iff.1 hsplit
    exact ⟨String.ofList p.2, .behind (by simpa using hafter) (by simpa using hjoin)⟩

theorem LastPart.eq_iff (h : LastPart name last) : last = name ↔ '/' ∉ name.toList := by
  cases h with
  | whole h => simp [h]
  | behind h hjoin =>
    have hmem : '/' ∈ name.toList := by simp [← hjoin]
    constructor
    · rintro rfl
      exact absurd hmem h
    · intro hnot
      exact absurd hmem hnot

theorem Thing.fullName_pack_iff (name : String) (v : Value) :
    (Thing.pack name v).fullName = name ↔ '/' ∉ name.toList := by
  obtain ⟨last, h⟩ := exists_lastPart name
  rw [Thing.fullName, Thing.pack, typeNameOf_typeUrl h, h.eq_iff]

end names

namespace TypeRegistry

variable (r : TypeRegistry) {name last : String}

theorem ofUrl?_typeUrl (h : LastPart name last) : r.ofUrl? (EntityCatalog.typeUrl name) = r.find? last := by
  rw [ofUrl?, typeNameOf_typeUrl h]

theorem check_packed (h : LastPart name last) (v : Value) :
    r.check (.pack name v) = match r.find? last with
      | some d => r.checkMessage d "" v
      | none => .error (.unknownType (EntityCatalog.typeUrl name)) := by
  cases hlast : r.find? last <;> simp only [check, Thing.pack, ofUrl?_typeUrl r h, hlast]

theorem ofUrl?_own_iff {d : Descriptor} (hd : r.find? d.fullName = some d) :
    r.ofUrl? d.typeUrl = some d ↔ '/' ∉ d.fullName.toList := by
  obtain ⟨last, h⟩ := exists_lastPart d.fullName
  rw [Descriptor.typeUrl, ofUrl?_typeUrl r h, ← h.eq_iff]
  constructor
  · intro hlast
    exact (r.named last d hlast).symm
  · rintro rfl
    exact hd

/-- Things packed under the name of a registered descriptor are checked against it exactly if the name
holds no slash: what is no object tells the descriptors apart, for it is reported with their names. -/
theorem check_own_iff {d : Descriptor} (hd : r.find? d.fullName = some d) :
    (∀ v, r.check (.pack d.fullName v) = r.checkMessage d "" v) ↔ '/' ∉ d.fullName.toList := by
  obtain ⟨last, h⟩ := exists_lastPart d.fullName
  rw [← h.eq_iff]
  constructor
  · intro hall
    have hnull := check_packed r h .null
    rw [hall .null] at hnull
    cases hlast : r.find? last with
    | none => simp [hlast, checkMessage] at hnull
    | some e =>
      have hname : d.fullName = e.fullName := by simpa [hlast, checkMessage] using hnull
      rw [hname, r.named last e hlast]
  · rintro rfl v
    rw [check_packed r h, hd]

/-- **A registered descriptor is found by its own URL, and a thing packed under its name is checked
against it, exactly if the name holds no slash.** A value packed under any name is taken for one of the
type that is named by the last part of it: its descriptor is the one that the URL leads to and the one
that the value is checked against, and without it the URL is reported. -/
theorem found_by_own_url_iff :
    (∀ d ∈ r.descriptors,
      (r.ofUrl? d.typeUrl = some d ↔ '/' ∉ d.fullName.toList) ∧
      ((∀ v, r.check (.pack d.fullName v) = r.checkMessage d "" v) ↔ '/' ∉ d.fullName.toList)) ∧
    (∀ name v, (Thing.pack name v).fullName = name ↔ '/' ∉ name.toList) ∧
    ∀ name, ∃ last, LastPart name last ∧
      r.ofUrl? (EntityCatalog.typeUrl name) = r.find? last ∧
      ∀ v, (Thing.pack name v).fullName = last ∧
        r.check (.pack name v) = match r.find? last with
          | some d => r.checkMessage d "" v
          | none => .error (.unknownType (EntityCatalog.typeUrl name)) := by
  refine ⟨fun d hd => ?_, Thing.fullName_pack_iff, fun name => ?_⟩
  · rw [mem_descriptors_iff] at hd
    exact ⟨r.ofUrl?_own_iff hd, r.check_own_iff hd⟩
  · obtain ⟨last, h⟩ := exists_lastPart name
    exact ⟨last, h, r.ofUrl?_typeUrl h, fun v => ⟨typeNameOf_typeUrl h, r.check_packed h v⟩⟩

/-! ### Books with a dot and with a slash -/

def dottedBook : Descriptor := ⟨"demo.Book", [.plain "isbn" 1 .string]⟩

/-- A descriptor whose last part is the name of another one, which has no fields. -/
def slashedBook : Descriptor := ⟨"demo/Book", [.plain "isbn" 1 .string]⟩

def threeBooks : TypeRegistry := ofList [dottedBook, slashedBook, ⟨"Book", []⟩]

theorem found_by_own_url_iff_books : threeBooks.ofUrl? dottedBook.typeUrl = some dottedBook ∧
    threeBooks.check (.pack "demo.Book" (.object [("isbn", .string "1")])) = .ok () ∧
    threeBooks.ofUrl? slashedBook.typeUrl ≠ some slashedBook := by
  obtain ⟨hown, -⟩ := found_by_own_url_iff threeBooks
  obtain ⟨hdotted, hcheck⟩ := hown dottedBook (by decide)
  obtain ⟨hslashed, -⟩ := hown slashedBook (by decide)
  refine ⟨hdotted.2 (by decide), (hcheck.2 (by decide) _).trans rfl, fun h => ?_⟩
  exact absurd (hslashed.1 h) (by decide)

/-- The value conforms to the descriptor under whose name it is packed, and is refused by another. -/
theorem slashed_checked_by_another : slashedBook ∈ threeBooks.descriptors ∧
    threeBooks.ofUrl? slashedBook.typeUrl = some ⟨"Book", []⟩ ∧
    (∀ v, (Thing.pack "demo/Book" v).fullName = "Book") ∧
    threeBooks.checkMessage slashedBook "" (.object [("isbn", .string "1")]) = .ok () ∧
    threeBooks.check (.pack "demo/Book" (.object [("isbn", .string "1")])) =
      .error (.unknownField "Book" "isbn") := by
  have hlast : LastPart "demo/Book" "Book" := @LastPart.behind _ "demo".toList _ (by decide) (by decide)
  refine ⟨by decide, ?_, fun v => typeNameOf_typeUrl hlast, rfl, ?_⟩
  · exact (threeBooks.ofUrl?_typeUrl hlast).trans rfl
  · exact (threeBooks.check_packed hlast _).trans rfl

end TypeRegistry

end EntityCatalog
