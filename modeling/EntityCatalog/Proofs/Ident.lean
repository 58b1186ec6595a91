import EntityCatalog.Ident
import EntityCatalog.Proofs.Text.Split
import EntityCatalog.Proofs.Traversal

/-!
# Identifiers and their texts

An identifier is `Canonical` if its text can be read back. Such identifiers and the texts that are
accepted determine each other: reading a text gives the only canonical identifier that is written so
(`KindId.parse_eq_ok_iff`, `EntityId.parse_eq_ok_iff`). Any other text is refused as it stands.
Different identifiers have one ascending order (`EntityId.eq_of_ascending`), and sorting finds it.

That a kind is read back hangs on its last dot: the namespace may hold dots, the name may not. Path
segments are read back because none holds a slash.
-/

namespace EntityCatalog

/-- A text that stands for one step down: there is something in it, it is no step that stays or goes
up, and it holds no slash. -/
structure IsSegment (s : String) : Prop where
  nonempty : s ≠ ""
  not_here : s ≠ "."
  not_up : s ≠ ".."
  no_slash : '/' ∉ s.toList

instance (s : String) : Decidable (IsSegment s) :=
  decidable_of_iff (s ≠ "" ∧ s ≠ "." ∧ s ≠ ".." ∧ '/' ∉ s.toList)
    ⟨fun ⟨hempty, hhere, hup, hslash⟩ => ⟨hempty, hhere, hup, hslash⟩,
      fun h => ⟨h.nonempty, h.not_here, h.not_up, h.no_slash⟩⟩

/-! ## Kinds -/

structure KindId.Canonical (k : KindId) : Prop where
  ns_nonempty : k.ns ≠ ""
  name_nonempty : k.name ≠ ""
  ns_no_slash : '/' ∉ k.ns.toList
  name_no_slash : '/' ∉ k.name.toList
  name_no_dot : '.' ∉ k.name.toList

namespace KindId

variable {k : KindId} {s : String}

theorem toList_text (k : KindId) : k.text.toList = k.ns.toList ++ '.' :: k.name.toList := by
  simp [text]

theorem Canonical.no_slash (h : k.Canonical) : '/' ∉ k.text.toList := by
  rw [toList_text]
  simp [h.ns_no_slash, h.name_no_slash]

theorem parse_text (h : k.Canonical) : parse k.text = .ok k := by
  have hsplit : Text.splitLast '.' k.text.toList = some (k.ns.toList, k.name.toList) :=
    Text.splitLast_eq_some_iff.2 ⟨(toList_text k).symm, h.name_no_dot⟩
  rw [parse, hsplit]
  simp [h.ns_nonempty, h.name_nonempty, h.no_slash]

theorem canonical_of_parse (h : parse s = .ok k) : k.text = s ∧ k.Canonical := by
  rw [parse] at h
  cases hsplit : Text.splitLast '.' s.toList with
  | none =>
    rw [hsplit] at h
    cases h
  | some p =>
    obtain ⟨ns, name⟩ := p
    obtain ⟨hjoin, hdot⟩ := Text.splitLast_eq_some_iff.1 hsplit
    rw [hsplit] at h
    dsimp only at h
    split at h
    · cases h
    · next hgood =>
      cases h
      simp only [← hjoin, Bool.or_eq_true, List.isEmpty_iff, List.contains_iff_mem, List.mem_append,
        List.mem_cons, not_or] at hgood
      obtain ⟨⟨hns, hname⟩, hns_slash, -, hname_slash⟩ := hgood
      refine ⟨?_, ?_⟩
      · rw [← String.toList_inj, toList_text, String.toList_ofList, String.toList_ofList, hjoin]
      · constructor <;> simpa

theorem parse_eq_ok_iff : parse s = .ok k ↔ k.text = s ∧ k.Canonical :=
  ⟨canonical_of_parse, fun ⟨htext, h⟩ => htext ▸ parse_text h⟩

theorem Canonical.eq_of_text {k' : KindId} (h : k.Canonical) (h' : k'.Canonical)
    (htext : k.text = k'.text) : k = k' := by
  have hread := parse_text h
  rw [htext, parse_text h'] at hread
  exact (Except.ok.inj hread).symm

theorem fault_of_parse {e : InvalidId} (h : parse s = .error e) : e = ⟨s⟩ := by
  rw [parse] at h
  split at h
  · split at h
    · exact (Except.error.inj h).symm
    · cases h
  · exact (Except.error.inj h).symm

end KindId

/-! ## Entities -/

structure EntityId.Canonical (e : EntityId) : Prop where
  kind : e.kind.Canonical
  segments : ∀ p ∈ e.paths, IsSegment p

namespace EntityId

variable {e : EntityId} {s : String}

theorem toList_pathText (paths : List String) :
    (pathText paths).toList = (paths.map String.toList).flatMap ('/' :: ·) := by
  simp [pathText, List.flatMap_map]

theorem toList_text (e : EntityId) :
    e.text.toList = e.kind.text.toList ++ (e.paths.map String.toList).flatMap ('/' :: ·) := by
  rw [text, String.toList_append, toList_pathText]

theorem isRelative_eq_false_iff {p : String} :
    isRelative p = false ↔ p ≠ "" ∧ p ≠ "." ∧ p ≠ ".." := by
  simp [isRelative, and_assoc]

theorem splitAll_text (h : e.Canonical) :
    Text.splitAll '/' e.text.toList = (e.kind.text.toList, e.paths.map String.toList) := by
  rw [toList_text]
  exact Text.splitAll_join_toList h.kind.no_slash fun p hp => (h.segments p hp).no_slash

theorem parse_text (h : e.Canonical) : parse e.text = .ok e := by
  have hpaths : (e.paths.map String.toList).map String.ofList = e.paths := by
    simp [Function.comp_def]
  have hplain : e.paths.any isRelative = false := by
    rw [List.any_eq_false]
    intro p hp
    have hseg := h.segments p hp
    simp [isRelative_eq_false_iff.2 ⟨hseg.nonempty, hseg.not_here, hseg.not_up⟩]
  rw [parse, splitAll_text h]
  dsimp only
  rw [String.ofList_toList, KindId.parse_text h.kind]
  dsimp only
  rw [hpaths, hplain]
  rfl

theorem canonical_of_parse (h : parse s = .ok e) : e.text = s ∧ e.Canonical := by
  rw [parse] at h
  cases hsplit : Text.splitAll '/' s.toList with
  | mk head segments =>
    obtain ⟨hjoin, hfree⟩ := Text.splitAll_eq_iff.1 hsplit
    rw [hsplit] at h
    dsimp only at h
    split at h
    · cases h
    · next kind hkind =>
      obtain ⟨hkindText, hcanonical⟩ := KindId.canonical_of_parse hkind
      split at h
      · cases h
      · next hplain =>
        cases h
        refine ⟨?_, hcanonical, fun p hp => ?_⟩
        · rw [← String.toList_inj, toList_text, hkindText, ← hjoin]
          simp [Function.comp_def]
        · obtain ⟨q, hq, rfl⟩ := List.mem_map.1 hp
          have hrel : isRelative (String.ofList q) = false := by
            simpa using List.any_eq_false.1 (Bool.eq_false_iff.2 hplain) _ hp
          obtain ⟨hempty, hhere, hup⟩ := isRelative_eq_false_iff.1 hrel
          exact ⟨hempty, hhere, hup, by
            rw [String.toList_ofList]
            exact hfree q (List.mem_cons_of_mem _ hq)⟩

theorem parse_eq_ok_iff : parse s = .ok e ↔ e.text = s ∧ e.Canonical :=
  ⟨canonical_of_parse, fun ⟨htext, h⟩ => htext ▸ parse_text h⟩

theorem Canonical.eq_of_text {e' : EntityId} (h : e.Canonical) (h' : e'.Canonical)
    (htext : e.text = e'.text) : e = e' := by
  have hread := parse_text h
  rw [htext, parse_text h'] at hread
  exact (Except.ok.inj hread).symm

theorem fault_of_parse {f : InvalidId} (h : parse s = .error f) : f = ⟨s⟩ := by
  rw [parse] at h
  dsimp only at h
  split at h
  · exact (Except.error.inj h).symm
  · split at h
    · exact (Except.error.inj h).symm
    · cases h

theorem takeWhile_text (h : e.Canonical) :
    e.text.toList.takeWhile (· ≠ '/') = e.kind.text.toList := by
  rw [← Text.splitAll_fst, splitAll_text h]

/-! ### Ascending order -/

theorem le_iff {a b : EntityId} : le a b = true ↔ ¬ b.parts < a.parts := by
  simp [le]

theorem parts_inj {a b : EntityId} (h : a.parts = b.parts) : a = b := by
  obtain ⟨⟨ns, name⟩, paths⟩ := a
  obtain ⟨⟨ns', name'⟩, paths'⟩ := b
  simp only [parts, List.cons.injEq] at h
  obtain ⟨rfl, rfl, rfl⟩ := h
  rfl

theorem le_trans {a b c : EntityId} (hab : le a b = true) (hbc : le b c = true) :
    le a c = true := by
  rw [le_iff, List.not_lt] at hab hbc ⊢
  exact List.le_trans hab hbc

theorem le_total (a b : EntityId) : (le a b || le b a) = true := by
  rw [Bool.or_eq_true, le_iff, le_iff, List.not_lt, List.not_lt]
  exact List.le_total a.parts b.parts

theorem lt_of_le_of_ne {a b : EntityId} (hle : le a b = true) (hne : a ≠ b) : a.parts < b.parts := by
  by_contra hlt
  rw [le_iff, List.not_lt] at hle
  exact hne (parts_inj (List.le_antisymm hle (List.not_lt.1 hlt)))

theorem ascending_sort {ids : List EntityId} (h : ids.Nodup) :
    (sort ids).Pairwise fun a b => a.parts < b.parts := by
  have hsorted : (sort ids).Pairwise fun a b => le a b = true :=
    @List.pairwise_mergeSort EntityId le (fun _ _ _ => le_trans) le_total ids
  have hdistinct : (sort ids).Nodup := (List.mergeSort_perm ids le).nodup_iff.2 h
  exact (hsorted.and hdistinct).imp fun ⟨hle, hne⟩ => lt_of_le_of_ne hle hne

theorem mem_sort {ids : List EntityId} {id : EntityId} : id ∈ sort ids ↔ id ∈ ids :=
  List.mem_mergeSort

theorem eq_of_ascending {ids ids' : List EntityId}
    (h : ids.Pairwise fun a b => a.parts < b.parts) (h' : ids'.Pairwise fun a b => a.parts < b.parts)
    (hmem : ∀ id, id ∈ ids ↔ id ∈ ids') : ids = ids' := by
  have hdistinct {l : List EntityId} (hl : l.Pairwise fun a b => a.parts < b.parts) : l.Nodup := by
    refine hl.imp fun {a b} hlt => ?_
    rintro rfl
    exact List.lt_irrefl a.parts hlt
  have hperm : ids.Perm ids' := (List.perm_ext_iff_of_nodup (hdistinct h) (hdistinct h')).2 hmem
  refine hperm.eq_of_pairwise (fun a b _ _ hab hba => ?_) h h'
  exact absurd (List.lt_trans hab hba) (List.lt_irrefl a.parts)

end EntityId

/-! ## Both -/

/-- **Canonical identifiers and accepted texts determine each other**, for kinds and for entities.
Every other text is refused with itself, and the kind of an entity is what stands in front of the
first slash. -/
theorem identifiers_determined :
    (∀ s k, KindId.parse s = .ok k ↔ k.text = s ∧ k.Canonical) ∧
    (∀ s e, EntityId.parse s = .ok e ↔ e.text = s ∧ e.Canonical) ∧
    (∀ s f, KindId.parse s = .error f ↔ f = ⟨s⟩ ∧ ∀ k : KindId, ¬ (k.text = s ∧ k.Canonical)) ∧
    (∀ s f, EntityId.parse s = .error f ↔
      f = ⟨s⟩ ∧ ∀ e : EntityId, ¬ (e.text = s ∧ e.Canonical)) ∧
    (∀ k k' : KindId, k.Canonical → k'.Canonical → k.text = k'.text → k = k') ∧
    (∀ e e' : EntityId, e.Canonical → e'.Canonical → e.text = e'.text → e = e') ∧
    (∀ s e, EntityId.parse s = .ok e →
      String.ofList (s.toList.takeWhile (· ≠ '/')) = e.kind.text) := by
  refine ⟨fun _ _ => KindId.parse_eq_ok_iff, fun _ _ => EntityId.parse_eq_ok_iff,
    fun _ => refused_iff (fun _ => KindId.parse_eq_ok_iff) fun _ => KindId.fault_of_parse,
    fun _ => refused_iff (fun _ => EntityId.parse_eq_ok_iff) fun _ => EntityId.fault_of_parse,
    ?_, ?_, ?_⟩
  · intro k k' hk hk' htext
    exact hk.eq_of_text hk' htext
  · intro e e' he he' htext
    exact he.eq_of_text he' htext
  · intro s e hparse
    obtain ⟨rfl, he⟩ := EntityId.canonical_of_parse hparse
    rw [EntityId.takeWhile_text he, String.ofList_toList]

/-- A namespace of dots only, and a segment that starts with dots. -/
theorem identifiers_determined_dots :
    EntityId.parse "...book/..dune/1" = .ok ⟨⟨"..", "book"⟩, ["..dune", "1"]⟩ ∧
      (⟨⟨"..", "book"⟩, ["..dune", "1"]⟩ : EntityId).Canonical := by
  have hparse : EntityId.parse "...book/..dune/1" = .ok ⟨⟨"..", "book"⟩, ["..dune", "1"]⟩ := by
    rfl
  exact ⟨hparse, ((identifiers_determined.2.1 _ _).1 hparse).2⟩

end EntityCatalog
