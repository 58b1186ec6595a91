import EntityCatalog.Aspect.Template
import EntityCatalog.Proofs.SortedMap
import EntityCatalog.Proofs.Traversal

/-!
# Filling in templates

`Filled kind id template text` says that `text` is `template` with every placeholder replaced by the
part of `id` that it stands for, without compiling anything. A compiled template expands to exactly
the filled texts (`expand?_eq_some_iff`), and applying the templates of a kind sets every link whose
template can be filled (`apply_compiled`).
-/

namespace EntityCatalog

/-- The segment with a name is the one at the first position of that name. -/
def EntityKind.PathAt (k : EntityKind) (name : String) (i : Nat) : Prop :=
  k.paths[i]? = some name ∧ ∀ j < i, k.paths[j]? ≠ some name

theorem EntityKind.pathIndex?_eq_some_iff {k : EntityKind} {name : String} {i : Nat} :
    k.pathIndex? name = some i ↔ k.PathAt name i := by
  unfold pathIndex? PathAt
  rw [List.findIdx?_eq_some_iff_getElem]
  constructor
  · rintro ⟨hi, hname, hfirst⟩
    refine ⟨by simpa [hi] using hname, fun j hj => ?_⟩
    have hlt : j < k.paths.length := by omega
    simpa [hlt] using hfirst j hj
  · rintro ⟨hname, hfirst⟩
    obtain ⟨hi, hname⟩ := List.getElem?_eq_some_iff.1 hname
    refine ⟨hi, by simpa using hname, fun j hj => ?_⟩
    have hlt : j < k.paths.length := by omega
    simpa [hlt] using hfirst j hj

theorem EntityKind.pathIndex?_eq_none_iff {k : EntityKind} {name : String} :
    k.pathIndex? name = none ↔ name ∉ k.paths := by
  rw [pathIndex?, List.findIdx?_eq_none_iff]
  constructor
  · intro h hk
    simpa using h name hk
  · intro hk other hother
    have hne : other ≠ name := fun heq => hk (heq ▸ hother)
    simp [hne]

theorem EntityKind.PathAt.mem {k : EntityKind} {name : String} {i : Nat} (h : k.PathAt name i) :
    name ∈ k.paths :=
  List.mem_of_getElem? h.1

theorem EntityKind.exists_pathAt_iff {k : EntityKind} {name : String} :
    (∃ i, k.PathAt name i) ↔ name ∈ k.paths := by
  constructor
  · rintro ⟨i, hi⟩
    exact hi.mem
  · intro hname
    cases hi : k.pathIndex? name with
    | none => exact absurd hname (pathIndex?_eq_none_iff.1 hi)
    | some i => exact ⟨i, pathIndex?_eq_some_iff.1 hi⟩

theorem EntityKind.PathAt.unique {k : EntityKind} {name : String} {i j : Nat} (hi : k.PathAt name i)
    (hj : k.PathAt name j) : i = j := by
  rcases Nat.lt_trichotomy i j with h | h | h
  · exact absurd hi.1 (hj.2 i h)
  · exact h
  · exact absurd hj.1 (hi.2 j h)

/-- What a placeholder stands for. The namespace and the name of the kind come before segments of the
same names. -/
inductive Component (kind : EntityKind) (id : EntityId) : String → String → Prop
  | ns : Component kind id "ns" id.kind.ns
  | entity : Component kind id "entity" id.kind.name
  | path {name value : String} {i : Nat} (hns : name ≠ "ns") (hentity : name ≠ "entity")
      (hi : kind.PathAt name i) (hv : id.paths[i]? = some value) : Component kind id name value

theorem component_iff {kind : EntityKind} {id : EntityId} {name value : String} :
    Component kind id name value ↔
      name = "ns" ∧ id.kind.ns = value ∨ name = "entity" ∧ id.kind.name = value ∨
        name ≠ "ns" ∧ name ≠ "entity" ∧ ∃ i, kind.PathAt name i ∧ id.paths[i]? = some value := by
  constructor
  · rintro (_ | _ | ⟨hns, hentity, hi, hv⟩)
    · exact .inl ⟨rfl, rfl⟩
    · exact .inr (.inl ⟨rfl, rfl⟩)
    · exact .inr (.inr ⟨hns, hentity, _, hi, hv⟩)
  · rintro (⟨rfl, rfl⟩ | ⟨rfl, rfl⟩ | ⟨hns, hentity, i, hi, hv⟩)
    · exact .ns
    · exact .entity
    · exact .path hns hentity hi hv

/-- A template with every placeholder replaced by what it stands for. -/
inductive Filled (kind : EntityKind) (id : EntityId) : List Char → List Char → Prop
  | nil : Filled kind id [] []
  | literal {c : Char} {template text : List Char} (hopen : c ≠ '\x7b') (hclose : c ≠ '\x7d')
      (h : Filled kind id template text) : Filled kind id (c :: template) (c :: text)
  | placeholder {name template text : List Char} {value : String}
      (hname : ∀ c ∈ name, c ≠ '\x7b' ∧ c ≠ '\x7d')
      (hv : Component kind id (String.ofList name) value) (h : Filled kind id template text) :
      Filled kind id ('\x7b' :: name ++ '\x7d' :: template) (value.toList ++ text)

/-! ## Texts without braces -/

/-- No brace is among the characters. -/
def BraceFree (cs : List Char) : Prop := ∀ c ∈ cs, c ≠ '\x7b' ∧ c ≠ '\x7d'

theorem BraceFree.concat {cs : List Char} {c : Char} (h : BraceFree cs) (hopen : c ≠ '\x7b')
    (hclose : c ≠ '\x7d') : BraceFree (cs ++ [c]) := by
  intro x hx
  rcases List.mem_append.1 hx with hx | hx
  · exact h x hx
  · rw [List.mem_singleton.1 hx]
    exact ⟨hopen, hclose⟩

section filled
variable {kind : EntityKind} {id : EntityId}

theorem filled_cons_iff {c : Char} {template text : List Char} (hc : c ≠ '\x7b' ∧ c ≠ '\x7d') :
    Filled kind id (c :: template) text ↔
      ∃ rest, text = c :: rest ∧ Filled kind id template rest := by
  constructor
  · intro h
    generalize hs : c :: template = s at h
    cases h with
    | nil => cases hs
    | literal _ _ h =>
      cases hs
      exact ⟨_, rfl, h⟩
    | placeholder => exact absurd (List.cons.inj hs).1 hc.1
  · rintro ⟨rest, rfl, h⟩
    exact .literal hc.1 hc.2 h

theorem filled_append_iff {before template text : List Char} (hb : BraceFree before) :
    Filled kind id (before ++ template) text ↔
      ∃ rest, text = before ++ rest ∧ Filled kind id template rest := by
  induction before generalizing text with
  | nil => simp
  | cons c before ih =>
    have ih {text : List Char} := @ih text fun x hx => hb x (by simp [hx])
    rw [List.cons_append, filled_cons_iff (hb c (by simp))]
    constructor
    · rintro ⟨rest, rfl, hall⟩
      obtain ⟨rest, rfl, h⟩ := ih.1 hall
      exact ⟨rest, rfl, h⟩
    · rintro ⟨rest, rfl, h⟩
      exact ⟨before ++ rest, rfl, ih.2 ⟨rest, rfl, h⟩⟩

theorem append_close_inj {a b s t : List Char} (ha : BraceFree a) (hb : BraceFree b)
    (h : a ++ '\x7d' :: s = b ++ '\x7d' :: t) : a = b ∧ s = t := by
  induction a generalizing b with
  | nil =>
    cases b with
    | nil => exact ⟨rfl, (List.cons.inj h).2⟩
    | cons c b => exact absurd (List.cons.inj h).1.symm (hb c (by simp)).2
  | cons c a ih =>
    cases b with
    | nil => exact absurd (List.cons.inj h).1 (ha c (by simp)).2
    | cons d b =>
      obtain ⟨rfl, hrest⟩ := List.cons.inj h
      have ha' : BraceFree a := fun x hx => ha x (by simp [hx])
      have hb' : BraceFree b := fun x hx => hb x (by simp [hx])
      obtain ⟨rfl, rfl⟩ := ih ha' hb' hrest
      exact ⟨rfl, rfl⟩

theorem filled_placeholder_iff {name template text : List Char} (hn : BraceFree name) :
    Filled kind id ('\x7b' :: name ++ '\x7d' :: template) text ↔
      ∃ value rest, Component kind id (String.ofList name) value ∧
        text = value.toList ++ rest ∧ Filled kind id template rest := by
  constructor
  · intro h
    generalize hs : '\x7b' :: name ++ '\x7d' :: template = s at h
    cases h with
    | nil => simp at hs
    | literal hopen => exact absurd (List.cons.inj hs).1.symm hopen
    | placeholder hname hv h =>
      obtain ⟨rfl, rfl⟩ := append_close_inj hn hname (List.cons.inj hs).2
      exact ⟨_, _, hv, rfl, h⟩
  · rintro ⟨value, rest, hv, rfl, h⟩
    exact .placeholder hn hv h

end filled

/-! ## Compiled templates -/

namespace Template

section expansion
variable {kind : EntityKind} {id : EntityId}

/-- The text that parts give together, if all of them give one. -/
def expandParts (id : EntityId) (parts : List TemplatePart) : Option String :=
  (parts.mapM (TemplatePart.expand? id)).map String.join

theorem expandParts_cons_iff {p : TemplatePart} {parts : List TemplatePart} {s : String} :
    expandParts id (p :: parts) = some s ↔
      ∃ a b, p.expand? id = some a ∧ expandParts id parts = some b ∧ s = a ++ b := by
  unfold expandParts
  rw [List.mapM_cons]
  cases p.expand? id with
  | none => simp
  | some a =>
    cases parts.mapM (TemplatePart.expand? id) with
    | none => simp
    | some texts => simp [String.join_cons, eq_comm]

theorem expandParts_literal_append_iff {cs : List Char} {parts : List TemplatePart} {s : String} :
    expandParts id (literal cs ++ parts) = some s ↔
      ∃ b, expandParts id parts = some b ∧ s = String.ofList cs ++ b := by
  unfold literal
  split
  · next h =>
    rw [List.isEmpty_iff.1 h]
    simp
  · simp [expandParts_cons_iff, TemplatePart.expand?]

theorem expand?_part_eq_some_iff {name : String} {part : TemplatePart} {value : String}
    (h : TemplatePart.ofName? kind name = some part) :
    part.expand? id = some value ↔ Component kind id name value := by
  rw [component_iff]
  unfold TemplatePart.ofName? at h
  split at h
  · next hns =>
    cases h
    simp [TemplatePart.expand?, hns, eq_comm]
  · next hns =>
    split at h
    · next hentity =>
      cases h
      simp [TemplatePart.expand?, hentity, eq_comm]
    · next hentity =>
      obtain ⟨i, hi, rfl⟩ := Option.map_eq_some_iff.1 h
      rw [EntityKind.pathIndex?_eq_some_iff] at hi
      constructor
      · intro hv
        exact .inr (.inr ⟨hns, hentity, i, hi, hv⟩)
      · rintro (⟨hn, -⟩ | ⟨hn, -⟩ | ⟨-, -, j, hj, hv⟩)
        · exact absurd hn hns
        · exact absurd hn hentity
        · rwa [hi.unique hj]

/-! The invariant of a compilation: what is still to come, behind the literal text in front of it, is
filled exactly by the expansions of the parts that are returned. -/

mutual

theorem outside_filled {link template : String} {before : List Char} (hb : BraceFree before) :
    ∀ {cs : List Char} {parts : List TemplatePart},
      outside kind link template before cs = .ok parts → ∀ s : String,
        expandParts id parts = some s ↔ Filled kind id (before ++ cs) s.toList
  | [], parts, h, s => by
    rw [outside, Except.ok.injEq] at h
    subst h
    rw [← List.append_nil (literal before), expandParts_literal_append_iff, filled_append_iff hb]
    constructor
    · rintro ⟨b, hb, rfl⟩
      cases hb
      exact ⟨[], by simp, .nil⟩
    · rintro ⟨rest, hs, ⟨⟩⟩
      exact ⟨"", rfl, by rw [← String.toList_inj, hs]; simp⟩
  | c :: cs, parts, h, s => by
    rw [outside] at h
    split at h
    · next hc =>
      subst hc
      rw [inside_filled hb (by simp [BraceFree]) h s]
      simp
    · next hopen =>
      split at h
      · cases h
      · next hclose =>
        rw [outside_filled (hb.concat hopen hclose) h s]
        simp

theorem inside_filled {link template : String} {before name : List Char} (hb : BraceFree before)
    (hn : BraceFree name) :
    ∀ {cs : List Char} {parts : List TemplatePart},
      inside kind link template before name cs = .ok parts → ∀ s : String,
        expandParts id parts = some s ↔
          Filled kind id (before ++ '\x7b' :: name ++ cs) s.toList
  | [], parts, h, s => by
    rw [inside] at h
    cases h
  | c :: cs, parts, h, s => by
    rw [inside] at h
    split at h
    · cases h
    · next hopen =>
      split at h
      · next hclose =>
        subst hclose
        split at h
        · cases h
        · next part hpart =>
          obtain ⟨rest, hrest, rfl⟩ := map_eq_ok h
          have ih : ∀ b : String, expandParts id rest = some b ↔ Filled kind id ([] ++ cs) b.toList :=
            outside_filled (by simp [BraceFree]) hrest
          rw [expandParts_literal_append_iff, List.append_assoc, filled_append_iff hb]
          constructor
          · rintro ⟨_, hb', rfl⟩
            obtain ⟨value, text, hvalue, htext, rfl⟩ := expandParts_cons_iff.1 hb'
            refine ⟨value.toList ++ text.toList, by simp, (filled_placeholder_iff hn).2 ?_⟩
            exact ⟨value, _, (expand?_part_eq_some_iff hpart).1 hvalue, rfl, (ih text).1 htext⟩
          · rintro ⟨_, hs, hplaceholder⟩
            obtain ⟨value, text, hvalue, rfl, hfilled⟩ := (filled_placeholder_iff hn).1 hplaceholder
            refine ⟨value ++ String.ofList text, expandParts_cons_iff.2 ⟨value, _,
              (expand?_part_eq_some_iff hpart).2 hvalue, (ih _).2 (by simpa using hfilled), rfl⟩, ?_⟩
            rw [← String.toList_inj, hs]
            simp
      · next hclose =>
        rw [inside_filled hb (hn.concat hopen hclose) h s]
        simp

end

theorem expand?_eq_some_iff {link template : String} {t : Template}
    (h : compile kind link template = .ok t) (s : String) :
    t.expand? id = some s ↔ Filled kind id template.toList s.toList := by
  obtain ⟨parts, hparts, rfl⟩ := map_eq_ok h
  exact outside_filled (by simp [BraceFree]) hparts s

end expansion

theorem compile_link {kind : EntityKind} {link template : String} {t : Template}
    (h : compile kind link template = .ok t) : t.link = link := by
  obtain ⟨parts, -, rfl⟩ := map_eq_ok h
  rfl

/-! ## Identifiers with all segments -/

/-- A part that every identifier of the kind has, if it has as many segments as the kind names. -/
def TemplatePart.InKind (kind : EntityKind) : TemplatePart → Prop
  | .path i => i < kind.paths.length
  | _ => True

theorem ofName?_inKind {kind : EntityKind} {name : String} {part : TemplatePart}
    (h : TemplatePart.ofName? kind name = some part) : TemplatePart.InKind kind part := by
  unfold TemplatePart.ofName? at h
  split at h
  · cases h
    trivial
  · split at h
    · cases h
      trivial
    · obtain ⟨i, hi, rfl⟩ := Option.map_eq_some_iff.1 h
      exact (List.getElem?_eq_some_iff.1 (EntityKind.pathIndex?_eq_some_iff.1 hi).1).1

theorem literal_inKind {kind : EntityKind} {cs : List Char} {p : TemplatePart}
    (hp : p ∈ literal cs) : TemplatePart.InKind kind p := by
  unfold literal at hp
  split at hp
  · cases hp
  · rw [List.mem_singleton.1 hp]
    trivial

mutual

theorem outside_inKind {kind : EntityKind} {link template : String} {before : List Char} :
    ∀ {cs : List Char} {parts : List TemplatePart},
      outside kind link template before cs = .ok parts → ∀ p ∈ parts, TemplatePart.InKind kind p
  | [], parts, h, p, hp => by
    rw [outside, Except.ok.injEq] at h
    subst h
    exact literal_inKind hp
  | c :: cs, parts, h, p, hp => by
    rw [outside] at h
    split at h
    · exact inside_inKind h p hp
    · split at h
      · cases h
      · exact outside_inKind h p hp

theorem inside_inKind {kind : EntityKind} {link template : String} {before name : List Char} :
    ∀ {cs : List Char} {parts : List TemplatePart},
      inside kind link template before name cs = .ok parts → ∀ p ∈ parts, TemplatePart.InKind kind p
  | [], parts, h, p, hp => by
    rw [inside] at h
    cases h
  | c :: cs, parts, h, p, hp => by
    rw [inside] at h
    split at h
    · cases h
    · split at h
      · split at h
        · cases h
        · next part hpart =>
          obtain ⟨rest, hrest, rfl⟩ := map_eq_ok h
          rcases List.mem_append.1 hp with hp | hp
          · exact literal_inKind hp
          · rcases List.mem_cons.1 hp with rfl | hp
            · exact ofName?_inKind hpart
            · exact outside_inKind hrest p hp
      · exact inside_inKind h p hp

end

theorem expandParts_ne_none {kind : EntityKind} {id : EntityId}
    (hid : id.paths.length = kind.paths.length) {parts : List TemplatePart}
    (hp : ∀ p ∈ parts, TemplatePart.InKind kind p) : ∃ s, expandParts id parts = some s := by
  induction parts with
  | nil => exact ⟨"", rfl⟩
  | cons p parts ih =>
    obtain ⟨b, hb⟩ := ih fun q hq => hp q (List.mem_cons_of_mem _ hq)
    have ha : ∃ a, p.expand? id = some a := by
      cases p with
      | literal text => exact ⟨text, rfl⟩
      | ns => exact ⟨_, rfl⟩
      | entity => exact ⟨_, rfl⟩
      | path i =>
        have hi : i < kind.paths.length := hp (.path i) List.mem_cons_self
        exact ⟨_, List.getElem?_eq_getElem (hid ▸ hi)⟩
    obtain ⟨a, ha⟩ := ha
    exact ⟨a ++ b, expandParts_cons_iff.2 ⟨a, b, ha, hb, rfl⟩⟩

theorem filled_of_compile {kind : EntityKind} {link template : String} {t : Template}
    (h : compile kind link template = .ok t) {id : EntityId}
    (hid : id.paths.length = kind.paths.length) :
    ∃ uri : String, Filled kind id template.toList uri.toList := by
  obtain ⟨parts, hparts, rfl⟩ := map_eq_ok h
  obtain ⟨uri, huri⟩ := expandParts_ne_none hid (outside_inKind hparts)
  exact ⟨uri, (expand?_eq_some_iff h uri).1 huri⟩

/-! ## Applying templates -/

theorem apply_eq (templates : List Template) (e : Entity) :
    ∃ links, apply templates e = { e with links } := by
  induction templates generalizing e with
  | nil => exact ⟨e.links, rfl⟩
  | cons t templates ih =>
    rw [apply, List.foldl_cons]
    split
    · obtain ⟨links, h⟩ := ih { e with links := e.links.insert t.link _ }
      exact ⟨links, h⟩
    · exact ih e

theorem apply_id (templates : List Template) (e : Entity) : (apply templates e).id = e.id := by
  obtain ⟨links, h⟩ := apply_eq templates e
  rw [h]

theorem get?_apply_of_not_mem {templates : List Template} {link : String}
    (h : link ∉ templates.map Template.link) (e : Entity) :
    (apply templates e).links.get? link = e.links.get? link := by
  induction templates generalizing e with
  | nil => rfl
  | cons t templates ih =>
    simp only [List.map_cons, List.mem_cons, not_or] at h
    rw [apply, List.foldl_cons]
    refine (ih h.2 _).trans ?_
    split
    · exact SortedMap.get?_insert_ne _ h.1 _
    · rfl

theorem get?_apply {templates : List Template} (hd : (templates.map Template.link).Nodup)
    {t : Template} (ht : t ∈ templates) (e : Entity) {uri : String}
    (huri : t.expand? e.id = some uri) : (apply templates e).links.get? t.link = some uri := by
  induction templates generalizing e with
  | nil => cases ht
  | cons u templates ih =>
    obtain ⟨hu, hd⟩ := List.nodup_cons.1 hd
    rw [apply, List.foldl_cons]
    rcases List.mem_cons.1 ht with rfl | ht
    · refine (get?_apply_of_not_mem hu _).trans ?_
      simp [huri]
    · refine ih hd ht _ ?_
      split
      · exact huri
      · exact huri

/-! ## The templates of a kind -/

section kind
variable {kind : EntityKind} {templates : List Template}

theorem compileAll_links (h : compileAll kind = .ok templates) :
    templates.map Template.link = kind.links.keys := by
  have hall := mapM_eq_ok_iff.1 h
  unfold SortedMap.keys
  clear h
  generalize kind.links.entries = entries at hall
  induction hall with
  | nil => rfl
  | cons hx _ ih => simp [compile_link hx, ih]

/-- **Every link of a kind is set to its filled template**, whatever was there before, on every
entity with all segments of the kind. -/
theorem apply_compiled (h : compileAll kind = .ok templates) {e : Entity}
    (he : e.id.paths.length = kind.paths.length) {link template : String}
    (hl : kind.links.get? link = some template) :
    ∃ uri, (apply templates e).links.get? link = some uri ∧
      ∀ text : String, Filled kind e.id template.toList text.toList ↔ text = uri := by
  obtain ⟨t, ht, hcompile⟩ := exists_mem_of_mapM h ((kind.links.mem_entries_iff).2 hl)
  obtain ⟨uri, hfilled⟩ := filled_of_compile hcompile he
  have huri := (expand?_eq_some_iff hcompile uri).2 hfilled
  refine ⟨uri, ?_, fun text => ?_⟩
  · rw [← compile_link hcompile]
    refine get?_apply ?_ ht e huri
    rw [compileAll_links h]
    exact kind.links.keys_nodup
  · rw [← expand?_eq_some_iff hcompile, huri, Option.some.injEq, eq_comm]

end kind

end Template

end EntityCatalog
