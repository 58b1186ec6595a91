import EntityCatalog.Proofs.Connector
import EntityCatalog.Proofs.Repository
import EntityCatalog.Request

/-!
# Written values are read back

What the model writes is read back as it was, and whatever has been read from any value is the same once
it has been written and read again: defaults, values left open and unknown members are settled by reading
once (`written_values_read_back`). Each record fills its members one after another, also those that are left
out when there is nothing to write. Two things must be able to be read back by themselves: identifiers,
which are canonical as soon as they have been read, and instants, which is left open here
(`Time.Instant.RoundTrips`).
-/

namespace EntityCatalog

open Document
open Json (Value)
open Time (Instant)

/-! ## Identifiers -/

theorem KindId.decode_encode {k : KindId} (h : k.Canonical) : decode k.encode = .ok k := by
  have htext : Source.text k.encode = .ok k.text := rfl
  simp only [decode, htext, bind, Except.bind, parse_text h]
  rfl

theorem EntityId.decode_encode {e : EntityId} (h : e.Canonical) : decode e.encode = .ok e := by
  have htext : Source.text e.encode = .ok e.text := rfl
  simp only [decode, htext, bind, Except.bind, parse_text h]
  rfl

/-! ## Descriptors and things -/

theorem FieldKind.decode_name (k : FieldKind) : decode (Value.string k.name) = .ok k := by
  cases k <;> rfl

theorem FieldDescriptor.decode_encode (f : FieldDescriptor) : decode f.encode = .ok f := by
  have hbound : f.number.toNat ≤ maxNumber := Nat.le_of_lt_succ f.number.toNat_lt
  have hnumber : Source.nat maxNumber (Value.nat f.number.toNat) = .ok f.number.toNat := by
    have hin : (0 : Int) ≤ f.number.toNat ∧ (f.number.toNat : Int) ≤ maxNumber := by omega
    exact (if_pos hin).trans (by rw [Int.toNat_natCast])
  have hword : f.number.toNat.toUInt32 = f.number := UInt32.ofNat_toNat
  have halways : Fills fields [("kind", .string f.kind.name), ("name", .string f.name),
      ("number", .nat f.number.toNat), ("repeated", .bool f.repeated)] (plain "" 0 .string)
      { f with typeName := none } := by
    refine .next rfl (Field.read_put f.kind.decode_name _) (.next rfl rfl
      (.next rfl (Field.read_put hnumber _) (.next rfl rfl ?_)))
    rw [hword]
    exact .none
  have htype : Fills fields (optionalMember "type_name" (f.typeName.map .string))
      { f with typeName := none } f := by
    obtain ⟨name, number, kind, repeated, typeName⟩ := f
    cases typeName with
    | none => exact .none
    | some typeName => exact .member rfl rfl
  refine readRecord_of_fills (halways.append htype) ?_ (by simp [fields, Field.needed, Field.defaulted])
  have hnames : ["kind", "name", "number", "repeated", "type_name"].Nodup := by decide
  refine hnames.sublist ?_
  rw [List.map_append]
  exact (List.Sublist.refl _).append (names_optionalMember _ _)

theorem Descriptor.decode_encode (d : Descriptor) : decode d.encode = .ok d := by
  have hfields : readList FieldDescriptor.decode (Value.array (d.fields.map FieldDescriptor.encode)) =
      .ok d.fields := readList_array fun f _ => f.decode_encode
  have hfills : Fills memberFields [("fields", .array (d.fields.map FieldDescriptor.encode)),
      ("full_name", .string d.fullName)] ⟨"", []⟩ d :=
    .next rfl (Field.read_put hfields _) (.member rfl rfl)
  exact readRecord_of_fills hfills (by simp) (by simp [memberFields, Field.needed, Field.defaulted])

theorem Thing.decode_encode (t : Thing) : decode t.encode = .ok t := by
  have hfills : Fills fields [("type_url", .string t.url), ("value", t.value)] default t :=
    .next rfl rfl (.member rfl rfl)
  exact readRecord_of_fills hfills (by simp) (by simp [fields, Field.needed])

/-! ## Declarations -/

theorem readList_connectors (l : List Connector) :
    readList Connector.decode (Value.array (l.map Connector.encode)) = .ok l :=
  readList_array fun c _ => c.decode_encode

/-- All identifiers of the kind can be read back. -/
structure EntityKind.Canonical (k : EntityKind) : Prop where
  id : k.id.Canonical
  related : ∀ name id, k.related.get? name = some id → id.Canonical

theorem EntityKind.decode_encode {k : EntityKind} (h : k.Canonical) : decode k.encode = .ok k := by
  have hrelated : readMap KindId.decode (Value.ofMap KindId.encode k.related) = .ok k.related :=
    readMap_object fun name id hid => KindId.decode_encode (h.related name id hid)
  have hlinks : readMap Source.text (Value.ofMap .string k.links) = .ok k.links :=
    readMap_object fun _ _ _ => rfl
  have hpaths : readList Source.text (Value.strings k.paths) = .ok k.paths := readList_array fun _ _ => rfl
  have hfront : Fills fields [("connectors", .array (k.connectors.map Connector.encode)),
      ("id", k.id.encode)] (bare default) { bare k.id with connectors := k.connectors } :=
    .next rfl (Field.read_put (readList_connectors k.connectors) _)
      (.member rfl (Field.read_put (KindId.decode_encode h.id) _))
  have hlabel : Fills fields (optionalMember "label" (k.label.map .string))
      { bare k.id with connectors := k.connectors }
      { bare k.id with connectors := k.connectors, label := k.label } := by
    cases hlabel : k.label with
    | none => exact .none
    | some label => exact .member rfl rfl
  have hback : Fills fields [("links", .ofMap .string k.links), ("paths", .strings k.paths),
      ("related", .ofMap KindId.encode k.related)]
      { bare k.id with connectors := k.connectors, label := k.label } k :=
    .next rfl (Field.read_put hlinks _) (.next rfl (Field.read_put hpaths _)
      (.member rfl (Field.read_put hrelated _)))
  refine readRecord_of_fills ((hfront.append hlabel).append hback) ?_
    (by simp [fields, Field.needed, Field.defaulted])
  have hnames : ["connectors", "id", "label", "links", "paths", "related"].Nodup := by decide
  refine hnames.sublist ?_
  rw [List.map_append, List.map_append]
  exact ((List.Sublist.refl _).append (names_optionalMember _ _)).append (List.Sublist.refl _)

theorem EntityKind.related_of_decode {k : EntityKind} {v : Value} (h : decode v = .ok k) (name : String)
    (id : KindId) (hid : k.related.get? name = some id) : id.Canonical := by
  refine readRecord_keeps (P := fun k : EntityKind => ∀ name id, k.related.get? name = some id →
    id.Canonical) ?_ (by intro _ _ hnone; cases hnone) h name id hid
  simp only [fields, List.forall_mem_cons, List.not_mem_nil, false_imp_iff, implies_true, and_true]
  refine ⟨Field.keeps_of_put fun _ _ hk => hk, Field.keeps_of_put fun _ _ hk => hk,
    Field.keeps_of_put fun _ _ hk => hk, Field.keeps_of_put fun _ _ hk => hk,
    Field.Establishes.keeps (Field.establishes_of_put fun n related k hread name id hid => ?_),
    Field.keeps_of_put fun _ _ hk => hk⟩
  obtain ⟨w, hw⟩ := get?_readMap hread hid
  exact KindId.canonical_of_decode hw

theorem TypeDecl.decode_encode (t : TypeDecl) : decode t.encode = .ok t := by
  have hfront : Fills fields [("connectors", .array (t.connectors.map Connector.encode)),
      ("name", .string t.name)] (bare "") { t with uri := none } :=
    .next rfl (Field.read_put (readList_connectors t.connectors) _) (.member rfl rfl)
  have huri : Fills fields (optionalMember "uri" (t.uri.map .string)) { t with uri := none } t := by
    obtain ⟨name, uri, connectors⟩ := t
    cases uri with
    | none => exact .none
    | some uri => exact .member rfl rfl
  refine readRecord_of_fills (hfront.append huri) ?_ (by simp [fields, Field.needed, Field.defaulted])
  have hnames : ["connectors", "name", "uri"].Nodup := by decide
  refine hnames.sublist ?_
  rw [List.map_append]
  exact (List.Sublist.refl _).append (names_optionalMember _ _)

/-! ## Entities -/

/-- The text of the instant stands for it. -/
def Time.Instant.RoundTrips (t : Instant) : Prop := parse? t.text = some t

/-- All identifiers of the entity can be read back. -/
structure Entity.Canonical (e : Entity) : Prop where
  id : e.id.Canonical
  related : ∀ name id, e.related.get? name = some id → id.Canonical

namespace Entity

/-- The instants of an entity. -/
def instants (e : Entity) : List Instant := e.ts.toList

/-- The fields of an entity. -/
def fields : List (Field Value Entity) :=
  .needed "id" EntityId.decode (fun id e => { e with id }) :: bodyFields

theorem decode_eq : decode (ν := Value) = readRecord fields false (bare default) := rfl

theorem fills_data (data : Value) : Fills fields (if data.isNull then [] else [("data", data)])
    (bare default) { bare default with data } := by
  cases data with
  | null => exact .none
  | _ => exact .member rfl rfl

theorem fills_ts {ts : Option Instant} (h : ∀ t ∈ ts, t.RoundTrips) (e : Entity) :
    Fills fields (optionalMember "ts" (ts.map fun t => .string t.text)) { e with ts := none }
      { e with ts } := by
  cases ts with
  | none => exact .none
  | some t =>
    have ht : t.RoundTrips := h t rfl
    have hparse : decodeInstant (Value.string t.text) = .ok t := by
      have htext : Source.text (Value.string t.text) = .ok t.text := rfl
      have hparse : Instant.parse? t.text = some t := ht
      simp only [decodeInstant, htext, bind, Except.bind, hparse]
      rfl
    have hread : readOptional decodeInstant (Value.string t.text) = .ok (some t) :=
      readOptional_eq_ok_iff.2 (.inr ⟨nofun, t, hparse, rfl⟩)
    exact .member rfl (Field.read_put hread _)

theorem decode_encode {e : Entity} (h : e.Canonical) (hinstants : ∀ t ∈ e.instants, t.RoundTrips) :
    decode e.encode = .ok e := by
  obtain ⟨id, ts, links, related, data⟩ := e
  have hid : Fills fields [("id", id.encode)] { bare default with data } { bare id with data } :=
    .member rfl (Field.read_put (EntityId.decode_encode h.id) _)
  have hlinks : Fills fields (mapMember "links" .string links) { bare id with data }
      { bare id with data, links } := by
    have hread : readMap Source.text (Value.ofMap .string links) = .ok links :=
      readMap_object fun _ _ _ => rfl
    refine .map rfl (Field.read_put hread _) ?_
    rintro rfl
    rfl
  have hrelated : Fills fields (mapMember "related" EntityId.encode related)
      { bare id with data, links } { bare id with data, links, related } := by
    have hread : readMap EntityId.decode (Value.ofMap EntityId.encode related) = .ok related :=
      readMap_object fun name id hid => EntityId.decode_encode (h.related name id hid)
    refine .map rfl (Field.read_put hread _) ?_
    rintro rfl
    rfl
  have hts : Fills fields (optionalMember "ts" (ts.map fun t => .string t.text))
      { bare id with data, links, related } ⟨id, ts, links, related, data⟩ :=
    fills_ts (fun t ht => hinstants t (by simpa [instants] using ht)) ⟨id, none, links, related, data⟩
  rw [decode_eq]
  refine readRecord_of_fills (((((fills_data data).append hid).append hlinks).append hrelated).append hts)
    ?_ (by simp [fields, bodyFields, Field.needed, Field.defaulted])
  have hnames : ["data", "id", "links", "related", "ts"].Nodup := by decide
  have hfirst : ((if data.isNull then [] else [("data", data)]).map (·.1)).Sublist ["data"] := by
    split
    · exact List.nil_sublist _
    · exact List.Sublist.refl _
  refine hnames.sublist ?_
  simp only [List.map_append]
  exact (((hfirst.append (List.Sublist.refl ["id"])).append (names_mapMember _ _ _)).append
    (names_mapMember _ _ _)).append (names_optionalMember _ _)

theorem canonical_of_decode {ν : Type} [Source ν] {e : Entity} {n : ν} (h : decode n = .ok e) :
    e.Canonical := by
  have hid : (Field.needed "id" EntityId.decode fun id e => { e with id } :
      Field ν Entity).Establishes (·.id.Canonical) :=
    Field.establishes_of_put fun _ _ _ hid => EntityId.canonical_of_decode hid
  constructor
  · refine readRecord_required (P := (·.id.Canonical)) ?_ rfl rfl hid h
    simp only [bodyFields, List.forall_mem_cons, List.not_mem_nil, false_imp_iff, implies_true, and_true]
    exact ⟨hid.keeps, Field.keeps_of_put fun _ _ hk => hk, Field.keeps_of_put fun _ _ hk => hk,
      Field.keeps_of_put fun _ _ hk => hk, Field.keeps_of_put fun _ _ hk => hk⟩
  · refine readRecord_keeps (P := fun e : Entity => ∀ name id, e.related.get? name = some id →
      id.Canonical) ?_ (by intro _ _ hnone; cases hnone) h
    simp only [bodyFields, List.forall_mem_cons, List.not_mem_nil, false_imp_iff, implies_true, and_true]
    refine ⟨Field.keeps_of_put fun _ _ hk => hk, Field.keeps_of_put fun _ _ hk => hk,
      Field.keeps_of_put fun _ _ hk => hk,
      Field.Establishes.keeps (Field.establishes_of_put fun n related k hread name id hid => ?_),
      Field.keeps_of_put fun _ _ hk => hk⟩
    obtain ⟨w, hw⟩ := get?_readMap hread hid
    exact EntityId.canonical_of_decode hw

end Entity

/-! ## Requests and responses -/

theorem GetRequest.decode_encode (r : GetRequest) : decode r.encode = .ok r := rfl

theorem GetResponse.decode_encode (r : GetResponse) : decode r.encode = .ok r := by
  have hfills : Fills [.needed "thing" Thing.decode fun thing _ => ⟨thing⟩]
      [("thing", r.thing.encode)] default r :=
    .member rfl (Field.read_put r.thing.decode_encode _)
  exact readRecord_of_fills hfills (by simp) (by simp [Field.needed])

namespace ListRequest

/-- The fields of a request for the entities of a kind. -/
def fields : List (Field Value ListRequest) :=
  [.needed "kind" KindId.decode fun kind r => { r with kind },
    .defaulted "filter" (readMap Source.text) fun filter r => { r with filter }]

theorem decode_eq : decode (ν := Value) = readRecord fields false (all default) := rfl

theorem decode_encode {r : ListRequest} (h : r.kind.Canonical) : decode r.encode = .ok r := by
  have hfilter : Fills fields (Entity.mapMember "filter" .string r.filter) (all default)
      { all default with filter := r.filter } := by
    have hread : readMap Source.text (Value.ofMap .string r.filter) = .ok r.filter :=
      readMap_object fun _ _ _ => rfl
    refine .map rfl (Field.read_put hread _) fun hnone => ?_
    rw [hnone]
    rfl
  have hkind : Fills fields [("kind", r.kind.encode)] { all default with filter := r.filter } r :=
    .member rfl (Field.read_put (KindId.decode_encode h) _)
  rw [decode_eq]
  refine readRecord_of_fills (hfilter.append hkind) ?_ (by simp [fields, Field.needed, Field.defaulted])
  have hnames : ["filter", "kind"].Nodup := by decide
  refine hnames.sublist ?_
  rw [List.map_append]
  exact (names_mapMember _ _ _).append (List.Sublist.refl _)

theorem canonical_of_decode {r : ListRequest} {v : Value} (h : decode v = .ok r) :
    r.kind.Canonical := by
  have hkind : (Field.needed "kind" KindId.decode fun kind r => { r with kind } :
      Field Value ListRequest).Establishes (·.kind.Canonical) :=
    Field.establishes_of_put fun _ _ _ hkind => KindId.canonical_of_decode hkind
  rw [decode_eq] at h
  refine readRecord_required (P := (·.kind.Canonical)) ?_ rfl rfl hkind h
  simp only [fields, List.forall_mem_cons, List.not_mem_nil, false_imp_iff, implies_true, and_true]
  exact ⟨hkind.keeps, Field.keeps_of_put fun _ _ hr => hr⟩

end ListRequest

namespace ListResponse

/-- All identifiers of the entities can be read back. -/
def Canonical (r : ListResponse) : Prop := ∀ e ∈ r.entities, e.Canonical

def instants (r : ListResponse) : List Instant := r.entities.flatMap Entity.instants

theorem decode_encode {r : ListResponse} (h : r.Canonical) (hinstants : ∀ t ∈ r.instants, t.RoundTrips) :
    decode r.encode = .ok r := by
  have hentities : readList Entity.decode (Value.array (r.entities.map Entity.encode)) = .ok r.entities :=
    readList_array fun e he =>
      Entity.decode_encode (h e he) fun t ht => hinstants t (List.mem_flatMap.2 ⟨e, he, ht⟩)
  have hfills : Fills [.needed "entities" (readList Entity.decode) fun entities _ => ⟨entities⟩]
      [("entities", .array (r.entities.map Entity.encode))] default r :=
    .member rfl (Field.read_put hentities _)
  exact readRecord_of_fills hfills (by simp) (by simp [Field.needed])

theorem canonical_of_decode {ν : Type} [Source ν] {r : ListResponse} {n : ν} (h : decode n = .ok r) :
    r.Canonical := by
  refine readRecord_keeps (P := Canonical) ?_ (by intro e he; cases he) h
  rw [List.forall_mem_singleton]
  refine Field.Establishes.keeps (Field.establishes_of_put fun n entities _ hread e he => ?_)
  obtain ⟨item, hitem⟩ := mem_readList hread he
  exact Entity.canonical_of_decode hitem

end ListResponse

/-! ## All of them -/

/-- Canonical values are read back from what they are written as, and what has been read from anything is
read again from what it is written as, as far as the texts of the instants stand for them. -/
structure Faithful {α : Type} (decode : Value → Except Fault α) (encode : α → Value)
    (Canonical : α → Prop) (instants : α → List Instant) : Prop where
  reads_back : ∀ a, Canonical a → (∀ t ∈ instants a, t.RoundTrips) → decode (encode a) = .ok a
  settles : ∀ v a, decode v = .ok a → (∀ t ∈ instants a, t.RoundTrips) → decode (encode a) = .ok a

section faithful
variable {α : Type} {decode : Value → Except Fault α} {encode : α → Value} {Canonical : α → Prop}
  {instants : α → List Instant}

theorem Faithful.of_canonical
    (hread : ∀ a, Canonical a → (∀ t ∈ instants a, t.RoundTrips) → decode (encode a) = .ok a)
    (hcanonical : ∀ v a, decode v = .ok a → Canonical a) : Faithful decode encode Canonical instants :=
  ⟨hread, fun v a h => hread a (hcanonical v a h)⟩

theorem Faithful.of_forall (hread : ∀ a, decode (encode a) = .ok a) :
    Faithful decode encode (fun _ => True) (fun _ => []) :=
  .of_canonical (fun a _ _ => hread a) fun _ _ _ => trivial

end faithful

/-- **Written values are read back**, and what has been read settles. An object over the keys of a connector
stands for what its keys declare: nothing, one connector, or several that are all reported in one order. If
a connector is read, then every key that is there has declared something or has been left open. -/
theorem written_values_read_back :
    Faithful Entity.decode Entity.encode Entity.Canonical Entity.instants ∧
    Faithful EntityKind.decode EntityKind.encode EntityKind.Canonical (fun _ => []) ∧
    Faithful TypeDecl.decode TypeDecl.encode (fun _ => True) (fun _ => []) ∧
    Faithful Connector.decode Connector.encode (fun _ => True) (fun _ => []) ∧
    Faithful Descriptor.decode Descriptor.encode (fun _ => True) (fun _ => []) ∧
    Faithful Thing.decode Thing.encode (fun _ => True) (fun _ => []) ∧
    Faithful GetRequest.decode GetRequest.encode (fun _ => True) (fun _ => []) ∧
    Faithful GetResponse.decode GetResponse.encode (fun _ => True) (fun _ => []) ∧
    Faithful ListRequest.decode ListRequest.encode (·.kind.Canonical) (fun _ => []) ∧
    Faithful ListResponse.decode ListResponse.encode ListResponse.Canonical ListResponse.instants ∧
    ∀ members : List (String × Value), Assoc.Ascending members →
      (∀ p ∈ members, ∃ key : Connector.Key, p.1 = key.name) →
      (∀ d : Connector.Key → Option Connector,
        (∀ key, Connector.Declares key (Assoc.get? key.name members) (d key)) →
        Connector.decode (Value.object members) = Connector.only (Connector.declared d)) ∧
      ∀ c, Connector.decode (Value.object members) = .ok c →
        ∃ d : Connector.Key → Option Connector,
          (∀ key, Connector.Declares key (Assoc.get? key.name members) (d key)) ∧
          Connector.only (Connector.declared d) = .ok c := by
  have hkind : Faithful EntityKind.decode EntityKind.encode EntityKind.Canonical (fun _ => []) :=
    .of_canonical (fun k hk _ => k.decode_encode hk) fun v k h =>
      ⟨EntityKind.canonical_of_decode h, EntityKind.related_of_decode h⟩
  refine ⟨?_, hkind, .of_forall TypeDecl.decode_encode, .of_forall Connector.decode_encode,
    .of_forall Descriptor.decode_encode, .of_forall Thing.decode_encode,
    .of_forall GetRequest.decode_encode, .of_forall GetResponse.decode_encode, ?_, ?_,
    fun members hmembers hkeys => Connector.decode_object hmembers hkeys⟩
  · exact .of_canonical (fun e he => e.decode_encode he) fun v e => Entity.canonical_of_decode
  · exact .of_canonical (fun r hr _ => r.decode_encode hr) fun v r => ListRequest.canonical_of_decode
  · exact .of_canonical (fun r hr => r.decode_encode hr) fun v r => ListResponse.canonical_of_decode

/-- An entity with all its parts, and connectors that are declared beside each other. -/
theorem written_values_read_back_parts :
    (let author : EntityId := ⟨⟨"lib.old", "author"⟩, ["herbert", "1"]⟩
     let e : Entity := ⟨⟨⟨"lib", "book"⟩, ["dune"]⟩, some ⟨19723, 45296, 789000000⟩,
       (∅ : SortedMap String).insert "self" "x/y", (∅ : SortedMap EntityId).insert "author" author,
       .object [("title", .string "Dune")]⟩
     Entity.decode e.encode = .ok e) ∧
    Connector.decode (Value.object [("error", .null), ("fs", .null), ("remote", .string "e")]) =
      .error (.ambiguous ["error", "remote"]) := by
  constructor
  · intro author e
    have hauthor : author.Canonical := ⟨by constructor <;> decide, by decide⟩
    refine written_values_read_back.1.reads_back e ⟨⟨by constructor <;> decide, by decide⟩, ?_⟩ ?_
    · intro name id hid
      have hget := SortedMap.get?_insert (∅ : SortedMap EntityId) "author" name author
      have hfound : (if name = "author" then some author else none) = some id := hget.symm.trans hid
      split at hfound
      · cases hfound
        exact hauthor
      · cases hfound
    · intro t ht
      obtain rfl := List.mem_singleton.1 ht
      unfold Instant.RoundTrips
      rfl
  · refine (written_values_read_back.2.2.2.2.2.2.2.2.2.2 _ ?_ ?_).1
      (Connector.Keys.of { error := some "", remote := some "e" }) ?_
    · simp only [Assoc.Ascending]
      decide
    · simp only [List.forall_mem_cons, List.not_mem_nil, false_imp_iff, implies_true, and_true]
      exact ⟨⟨.error, rfl⟩, ⟨.store, rfl⟩, ⟨.remote, rfl⟩⟩
    · intro key
      cases key with
      | error => exact .leftError
      | store => exact .left (by decide)
      | remote => exact .remote
      | extension => exact .absent

end EntityCatalog
