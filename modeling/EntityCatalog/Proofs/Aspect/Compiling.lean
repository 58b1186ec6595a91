import EntityCatalog.Proofs.Aspect.Filling

/-!
# Which templates compile

A template is read as a row of stretches, each a literal text without braces or a placeholder for
something that the kind has. `Written` says that a row of stretches in order is written as a text, and
`Broken` that a text goes wrong behind such a row, with what is reported. `Template.compile_exact` puts
the two against the compilation, and the values of the stretches against the expansion.
-/

namespace EntityCatalog

/-- The names that a placeholder may have. -/
def EntityKind.Knows (k : EntityKind) (name : String) : Prop :=
  name = "ns" ∨ name = "entity" ∨ name ∈ k.paths

namespace Template

section ofName
variable {kind : EntityKind} {name : String}

theorem ofName?_eq_none_iff : TemplatePart.ofName? kind name = none ↔ ¬ kind.Knows name := by
  unfold TemplatePart.ofName? EntityKind.Knows
  by_cases hns : name = "ns"
  · simp [hns]
  · by_cases hentity : name = "entity"
    · simp [hentity]
    · simp [hns, hentity, EntityKind.pathIndex?_eq_none_iff]

theorem exists_ofName? (h : kind.Knows name) : ∃ part, TemplatePart.ofName? kind name = some part := by
  cases hpart : TemplatePart.ofName? kind name with
  | none => exact absurd h (ofName?_eq_none_iff.1 hpart)
  | some part => exact ⟨part, rfl⟩

end ofName

/-! ## Stretches -/

/-- A stretch of a template. -/
inductive Stretch where
  | literal (text : String)
  | placeholder (name : String)
  deriving DecidableEq

namespace Stretch

def written : Stretch → List Char
  | literal text => text.toList
  | placeholder name => '\x7b' :: name.toList ++ ['\x7d']

/-- No brace is inside the stretch, and a placeholder has a name that the kind knows. -/
def InOrder (kind : EntityKind) : Stretch → Prop
  | literal text => BraceFree text.toList
  | placeholder name => BraceFree name.toList ∧ kind.Knows name

/-- What stands in place of a stretch after the expansion for an identifier. -/
def Yields (kind : EntityKind) (id : EntityId) : Stretch → String → Prop
  | literal text, value => value = text
  | placeholder name, value => Component kind id name value

/-- A placeholder for a segment that an identifier does not have. -/
def Missing (kind : EntityKind) (id : EntityId) : Stretch → Prop
  | literal _ => False
  | placeholder name =>
    name ≠ "ns" ∧ name ≠ "entity" ∧ ∃ i, kind.PathAt name i ∧ id.paths.length ≤ i

variable {kind : EntityKind} {id : EntityId} {s : Stretch}

theorem InOrder.yields_or_missing (h : s.InOrder kind) :
    (∃ value, s.Yields kind id value) ↔ ¬ s.Missing kind id := by
  cases s with
  | literal text => simp [Yields, Missing]
  | placeholder name =>
    simp only [Yields, component_iff, Missing]
    constructor
    · rintro ⟨value, ⟨hns, -⟩ | ⟨hentity, -⟩ | ⟨-, -, i, hi, hv⟩⟩ ⟨hns', hentity', j, hj, hlen⟩
      · exact hns' hns
      · exact hentity' hentity
      · rw [hi.unique hj, List.getElem?_eq_none hlen] at hv
        cases hv
    · intro hnot
      by_cases hns : name = "ns"
      · exact ⟨_, .inl ⟨hns, rfl⟩⟩
      by_cases hentity : name = "entity"
      · exact ⟨_, .inr (.inl ⟨hentity, rfl⟩)⟩
      have hpath : name ∈ kind.paths := by simpa [EntityKind.Knows, hns, hentity] using h.2
      obtain ⟨i, hi⟩ := EntityKind.exists_pathAt_iff.2 hpath
      have hlt : i < id.paths.length := by
        by_contra hlen
        exact hnot ⟨hns, hentity, i, hi, Nat.le_of_not_lt hlen⟩
      exact ⟨_, .inr (.inr ⟨hns, hentity, i, hi, List.getElem?_eq_getElem hlt⟩)⟩

end Stretch

/-- The stretches are in order, and one after another they are the text. -/
def Written (kind : EntityKind) (stretches : List Stretch) (text : List Char) : Prop :=
  (∀ s ∈ stretches, s.InOrder kind) ∧ stretches.flatMap Stretch.written = text

/-- What is wrong right at the front of a text, and how it is reported. -/
inductive Defect (kind : EntityKind) (link template : String) : List Char → TemplateError → Prop
  | stray {rest : List Char} : Defect kind link template ('\x7d' :: rest) (.unbalanced link template)
  | unclosed {rest : List Char} (h : '\x7d' ∉ rest) :
      Defect kind link template ('\x7b' :: rest) (.unbalanced link template)
  | nested {name rest : List Char} (hname : BraceFree name) :
      Defect kind link template ('\x7b' :: name ++ '\x7b' :: rest) (.unbalanced link template)
  | unknown {name rest : List Char} (hname : BraceFree name)
      (h : ¬ kind.Knows (String.ofList name)) :
      Defect kind link template ('\x7b' :: name ++ '\x7d' :: rest)
        (.unknownVariable link (String.ofList name))

/-- Behind stretches in order, the template has its leftmost defect. -/
def Broken (kind : EntityKind) (link template : String) (e : TemplateError) : Prop :=
  ∃ stretches text rest, Written kind stretches text ∧ template.toList = text ++ rest ∧
    Defect kind link template rest e

section written
variable {kind : EntityKind} {stretches : List Stretch} {text : List Char}

theorem written_nil : Written kind [] [] := ⟨by simp, rfl⟩

theorem Written.cons {s : Stretch} (hs : s.InOrder kind) (h : Written kind stretches text) :
    Written kind (s :: stretches) (s.written ++ text) := by
  refine ⟨fun s' hs' => ?_, by rw [List.flatMap_cons, h.2]⟩
  rcases List.mem_cons.1 hs' with rfl | hs'
  · exact hs
  · exact h.1 s' hs'

theorem written_cons_iff {s : Stretch} :
    Written kind (s :: stretches) text ↔
      s.InOrder kind ∧ ∃ rest, text = s.written ++ rest ∧ Written kind stretches rest := by
  constructor
  · rintro ⟨hall, rfl⟩
    exact ⟨hall s (by simp), _, List.flatMap_cons, fun s' hs' => hall s' (by simp [hs']), rfl⟩
  · rintro ⟨hs, rest, rfl, h⟩
    exact h.cons hs

theorem written_literal {run : List Char} (h : BraceFree run) :
    Written kind [.literal (String.ofList run)] run := by
  have hrun : (Stretch.literal (String.ofList run)).InOrder kind := by simpa [Stretch.InOrder] using h
  simpa [Stretch.written] using written_nil.cons hrun

theorem Written.behind_placeholder {before name : List Char} (h : Written kind stretches text)
    (hbefore : BraceFree before) (hname : BraceFree name) (hknown : kind.Knows (String.ofList name)) :
    Written kind (.literal (String.ofList before) :: .placeholder (String.ofList name) :: stretches)
      (before ++ '\x7b' :: (name ++ '\x7d' :: text)) := by
  have hliteral : (Stretch.literal (String.ofList before)).InOrder kind := by
    simpa [Stretch.InOrder] using hbefore
  have hplaceholder : (Stretch.placeholder (String.ofList name)).InOrder kind :=
    ⟨by simpa using hname, hknown⟩
  simpa [Stretch.written] using (h.cons hplaceholder).cons hliteral

theorem filled_written_iff {id : EntityId} (h : Written kind stretches text) {filled : List Char} :
    Filled kind id text filled ↔
      ∃ values, List.Forall₂ (Stretch.Yields kind id) stretches values ∧
        filled = (String.join values).toList := by
  induction stretches generalizing text filled with
  | nil =>
    obtain ⟨-, rfl⟩ := h
    constructor
    · rintro ⟨⟩
      exact ⟨[], .nil, rfl⟩
    · rintro ⟨_, ⟨⟩, rfl⟩
      exact .nil
  | cons s stretches ih =>
    obtain ⟨hs, behind, rfl, hbehind⟩ := written_cons_iff.1 h
    have hfront : Filled kind id (s.written ++ behind) filled ↔
        ∃ value rest, s.Yields kind id value ∧ filled = value.toList ++ rest ∧
          Filled kind id behind rest := by
      cases s with
      | literal run => simp [Stretch.written, Stretch.Yields, filled_append_iff hs]
      | placeholder name =>
        have hname : Filled kind id ('\x7b' :: name.toList ++ '\x7d' :: behind) filled ↔ _ :=
          filled_placeholder_iff hs.1
        simpa [Stretch.written, Stretch.Yields] using hname
    rw [hfront]
    constructor
    · rintro ⟨value, rest, hvalue, rfl, hrest⟩
      obtain ⟨values, hvalues, rfl⟩ := (ih hbehind).1 hrest
      exact ⟨value :: values, .cons hvalue hvalues, by simp⟩
    · rintro ⟨_, hall, rfl⟩
      obtain _ | ⟨hvalue, hvalues⟩ := hall
      exact ⟨_, _, hvalue, by simp, (ih hbehind).2 ⟨_, hvalues, rfl⟩⟩

theorem exists_yields_iff {id : EntityId} (h : Written kind stretches text) :
    (∃ values, List.Forall₂ (Stretch.Yields kind id) stretches values) ↔
      ∀ s ∈ stretches, ¬ s.Missing kind id := by
  constructor
  · rintro ⟨values, hvalues⟩ s hs
    obtain ⟨value, -, hvalue⟩ := exists_of_forall₂ hvalues hs
    exact (h.1 s hs).yields_or_missing.1 ⟨value, hvalue⟩
  · intro hnone
    induction stretches generalizing text with
    | nil => exact ⟨[], .nil⟩
    | cons s stretches ih =>
      obtain ⟨hs, behind, rfl, hbehind⟩ := written_cons_iff.1 h
      obtain ⟨value, hvalue⟩ := hs.yields_or_missing.2 (hnone s (by simp))
      obtain ⟨values, hvalues⟩ := ih hbehind fun s' hs' => hnone s' (by simp [hs'])
      exact ⟨value :: values, .cons hvalue hvalues⟩

end written

/-! ## The scan over stretches and defects -/

section scan
variable {kind : EntityKind} {link template : String}

theorem outside_literal {before text : List Char} (h : BraceFree text) (rest : List Char) :
    outside kind link template before (text ++ rest) =
      outside kind link template (before ++ text) rest := by
  induction text generalizing before with
  | nil => simp
  | cons c text ih =>
    obtain ⟨hopen, hclose⟩ := h c (by simp)
    rw [List.cons_append, outside, if_neg hopen, if_neg hclose, ih fun x hx => h x (by simp [hx])]
    simp

theorem inside_literal {before name text : List Char} (h : BraceFree text) (rest : List Char) :
    inside kind link template before name (text ++ rest) =
      inside kind link template before (name ++ text) rest := by
  induction text generalizing name with
  | nil => simp
  | cons c text ih =>
    obtain ⟨hopen, hclose⟩ := h c (by simp)
    rw [List.cons_append, inside, if_neg hopen, if_neg hclose, ih fun x hx => h x (by simp [hx])]
    simp

theorem outside_open {before name : List Char} (h : BraceFree name) (rest : List Char) :
    outside kind link template before ('\x7b' :: name ++ rest) =
      inside kind link template before name rest := by
  rw [List.cons_append, outside, if_pos rfl, inside_literal h, List.nil_append]

theorem outside_placeholder {before name : List Char} (h : BraceFree name) {part : TemplatePart}
    (hpart : TemplatePart.ofName? kind (String.ofList name) = some part) (rest : List Char) :
    outside kind link template before ('\x7b' :: name ++ '\x7d' :: rest) =
      (outside kind link template [] rest).map (literal before ++ part :: ·) := by
  rw [outside_open h, inside, if_neg (by decide), if_pos rfl, hpart]
  rfl

/-- Stretches in order are behind the scan with nothing dropped: the rest is scanned as it would be
alone, apart from a literal text in front of it, and the parts are put in front of what it gives. -/
theorem outside_written (link template : String) {stretches : List Stretch} {text : List Char}
    (h : Written kind stretches text) (before : List Char) :
    ∃ before' parts, ∀ rest, outside kind link template before (text ++ rest) =
      (outside kind link template before' rest).map (parts ++ ·) := by
  induction stretches generalizing text before with
  | nil =>
    obtain ⟨-, rfl⟩ := h
    refine ⟨before, [], fun rest => ?_⟩
    cases hrest : outside kind link template before rest <;> simp [hrest, Except.map]
  | cons s stretches ih =>
    obtain ⟨hs, behind, rfl, hbehind⟩ := written_cons_iff.1 h
    cases s with
    | literal run =>
      obtain ⟨before', parts, hscan⟩ := ih hbehind (before ++ run.toList)
      refine ⟨before', parts, fun rest => ?_⟩
      rw [Stretch.written, List.append_assoc, outside_literal hs, hscan]
    | placeholder name =>
      obtain ⟨part, hpart⟩ := exists_ofName? hs.2
      obtain ⟨before', parts, hscan⟩ := ih hbehind []
      refine ⟨before', literal before ++ part :: parts, fun rest => ?_⟩
      have hsplit : (Stretch.placeholder name).written ++ behind ++ rest =
          '\x7b' :: name.toList ++ '\x7d' :: (behind ++ rest) := by simp [Stretch.written]
      rw [hsplit, outside_placeholder hs.1 (by rwa [String.ofList_toList]), hscan]
      cases outside kind link template before' rest <;> simp [Except.map]

theorem inside_unclosed {before : List Char} {rest : List Char} (h : '\x7d' ∉ rest)
    (name : List Char) :
    inside kind link template before name rest = .error (.unbalanced link template) := by
  induction rest generalizing name with
  | nil => rw [inside]
  | cons c rest ih =>
    simp only [List.mem_cons, not_or] at h
    rw [inside]
    by_cases hopen : c = '\x7b'
    · rw [if_pos hopen]
    · rw [if_neg hopen, if_neg (Ne.symm h.1), ih h.2]

theorem outside_defect {rest : List Char} {e : TemplateError} (h : Defect kind link template rest e)
    (before : List Char) : outside kind link template before rest = .error e := by
  cases h with
  | stray => rw [outside, if_neg (by decide), if_pos rfl]
  | unclosed h => rw [outside, if_pos rfl, inside_unclosed h]
  | nested hname => rw [outside_open hname, inside, if_pos rfl]
  | unknown hname h =>
    rw [outside_open hname, inside, if_neg (by decide), if_pos rfl, ofName?_eq_none_iff.2 h]

theorem braceFree_or_first (text : List Char) :
    BraceFree text ∨ ∃ before c rest, BraceFree before ∧ (c = '\x7b' ∨ c = '\x7d') ∧
      text = before ++ c :: rest := by
  induction text with
  | nil => exact .inl (by simp [BraceFree])
  | cons c text ih =>
    by_cases hc : c = '\x7b' ∨ c = '\x7d'
    · exact .inr ⟨[], c, text, by simp [BraceFree], hc, rfl⟩
    · rw [not_or] at hc
      rcases ih with hfree | ⟨before, d, rest, hbefore, hd, rfl⟩
      · exact .inl (List.forall_mem_cons.2 ⟨hc, hfree⟩)
      · exact .inr ⟨c :: before, d, rest, List.forall_mem_cons.2 ⟨hc, hbefore⟩, hd, rfl⟩

/-- A text is in order, or it goes wrong behind stretches that are. -/
theorem written_or_defect (kind : EntityKind) (link template : String) (text : List Char) :
    (∃ stretches, Written kind stretches text) ∨
      ∃ stretches front rest e, Written kind stretches front ∧ text = front ++ rest ∧
        Defect kind link template rest e := by
  -- on the length: behind a placeholder there is a shorter text
  induction hn : text.length using Nat.strongRecOn generalizing text with
  | ind n ih =>
    subst hn
    rcases braceFree_or_first text with hfree | ⟨before, c, rest, hbefore, rfl | rfl, rfl⟩
    · exact .inl ⟨_, written_literal hfree⟩
    · have hfront : Written kind _ before := written_literal hbefore
      rcases braceFree_or_first rest with hrest | ⟨name, d, rest, hname, rfl | rfl, rfl⟩
      · exact .inr ⟨_, _, _, _, hfront, rfl, .unclosed fun h => (hrest _ h).2 rfl⟩
      · exact .inr ⟨_, _, _, _, hfront, rfl, .nested hname⟩
      by_cases hknown : kind.Knows (String.ofList name)
      · rcases ih rest.length (by simp; omega) rest rfl with
          ⟨stretches, h⟩ | ⟨stretches, front, rest, e, h, rfl, hdefect⟩
        · exact .inl ⟨_, h.behind_placeholder hbefore hname hknown⟩
        · exact .inr ⟨_, _, _, _, h.behind_placeholder hbefore hname hknown, by simp, hdefect⟩
      · exact .inr ⟨_, _, _, _, hfront, rfl, .unknown hname hknown⟩
    · exact .inr ⟨_, _, _, _, written_literal hbefore, rfl, .stray⟩

end scan

/-! ## Compilation -/

theorem compile_of_written {kind : EntityKind} {template : String} {stretches : List Stretch}
    (link : String) (h : Written kind stretches template.toList) :
    ∃ t, compile kind link template = .ok t := by
  obtain ⟨before, parts, hscan⟩ := outside_written link template h []
  have hparts := hscan []
  rw [List.append_nil, outside] at hparts
  exact ⟨⟨link, parts ++ literal before⟩, by rw [compile, hparts]; rfl⟩

theorem compile_of_broken {kind : EntityKind} {link template : String} {e : TemplateError}
    (h : Broken kind link template e) : compile kind link template = .error e := by
  obtain ⟨stretches, text, rest, hw, htext, hdefect⟩ := h
  obtain ⟨before, parts, hscan⟩ := outside_written link template hw []
  rw [compile, htext, hscan, outside_defect hdefect]
  rfl

theorem compile_settles (kind : EntityKind) (link template : String) :
    Settles (compile kind link template) (∃ stretches, Written kind stretches template.toList)
      (Broken kind link template) := by
  rcases written_or_defect kind link template template.toList with
    ⟨stretches, hw⟩ | ⟨stretches, text, rest, e, hw, htext, hdefect⟩
  · obtain ⟨t, ht⟩ := compile_of_written link hw
    rw [ht]
    refine .success ⟨stretches, hw⟩ fun e he => ?_
    rw [compile_of_broken he] at ht
    cases ht
  · have hbroken : Broken kind link template e := ⟨stretches, text, rest, hw, htext, hdefect⟩
    have herror := compile_of_broken hbroken
    rw [herror]
    refine .report (fun ⟨stretches, hw⟩ => ?_) fun e' => ⟨fun he' => ?_, fun he' => he' ▸ hbroken⟩
    · obtain ⟨t, ht⟩ := compile_of_written link hw
      rw [herror] at ht
      cases ht
    · rw [compile_of_broken he'] at herror
      exact Except.error.inj herror

theorem compileAll_settles_written (kind : EntityKind) :
    Settles (compileAll kind)
      (∀ link template, kind.links.get? link = some template →
        ∃ stretches, Written kind stretches template.toList)
      (fun e => ∃ link template, kind.links.get? link = some template ∧ Broken kind link template e ∧
        ∀ link' < link, ∀ template', kind.links.get? link' = some template' →
          ∃ stretches, Written kind stretches template'.toList) := by
  refine (Settles.mapM (fun p : String × String => compile_settles kind p.1 p.2) 0
    kind.links.entries).congr ?_ fun e => kind.links.firstAt_entries_iff
  simp only [Prod.forall, SortedMap.mem_entries_iff]

theorem expand?_written {kind : EntityKind} {link template : String} {t : Template}
    {stretches : List Stretch} (h : compile kind link template = .ok t)
    (hw : Written kind stretches template.toList) (id : EntityId) :
    (∀ uri, t.expand? id = some uri ↔
        ∃ values, List.Forall₂ (Stretch.Yields kind id) stretches values ∧ uri = String.join values) ∧
      (t.expand? id = none ↔ ∃ s ∈ stretches, s.Missing kind id) := by
  have hsome (uri : String) : t.expand? id = some uri ↔
      ∃ values, List.Forall₂ (Stretch.Yields kind id) stretches values ∧ uri = String.join values := by
    rw [expand?_eq_some_iff h, filled_written_iff hw]
    simp only [String.toList_inj]
  refine ⟨hsome, ?_⟩
  rw [Option.eq_none_iff_forall_ne_some]
  have hmissing : (∃ s ∈ stretches, s.Missing kind id) ↔
      ¬ ∃ values, List.Forall₂ (Stretch.Yields kind id) stretches values := by
    rw [exists_yields_iff hw]
    simp
  rw [hmissing]
  constructor
  · rintro hnone ⟨values, hvalues⟩
    exact hnone _ ((hsome _).2 ⟨values, hvalues, rfl⟩)
  · rintro hnot uri huri
    obtain ⟨values, hvalues, -⟩ := (hsome uri).1 huri
    exact hnot ⟨values, hvalues⟩

/-- **Exactly the templates in order compile, and their expansion is a substitution.** A template that
is not in order is refused for its leftmost defect, and of the links of a kind the first bad one in the
order of their names is reported. A compiled template expands, for every identifier, to the text with
each placeholder replaced by what it stands for; without a segment that it names there is no
expansion. -/
theorem compile_exact (kind : EntityKind) :
    (∀ link template,
      ((∃ t, compile kind link template = .ok t) ↔
        ∃ stretches, Written kind stretches template.toList) ∧
      (∀ e, compile kind link template = .error e ↔ Broken kind link template e) ∧
      ∀ t stretches, compile kind link template = .ok t → Written kind stretches template.toList →
        ∀ id,
          (∀ uri, t.expand? id = some uri ↔ ∃ values,
            List.Forall₂ (Stretch.Yields kind id) stretches values ∧ uri = String.join values) ∧
          (t.expand? id = none ↔ ∃ s ∈ stretches, s.Missing kind id)) ∧
    ((∃ templates, compileAll kind = .ok templates) ↔
      ∀ link template, kind.links.get? link = some template →
        ∃ stretches, Written kind stretches template.toList) ∧
    ∀ e, compileAll kind = .error e ↔
      ∃ link template, kind.links.get? link = some template ∧ Broken kind link template e ∧
        ∀ link' < link, ∀ template', kind.links.get? link' = some template' →
          ∃ stretches, Written kind stretches template'.toList := by
  have hall := compileAll_settles_written kind
  refine ⟨fun link template => ?_, hall.ok, hall.error⟩
  have hone := compile_settles kind link template
  exact ⟨hone.ok, hone.error, fun t stretches ht hw id => expand?_written ht hw id⟩

/-! ### Pages of a book -/

/-- A kind whose first segment is named like the namespace. -/
def pages : EntityKind := { EntityKind.bare ⟨"demo", "page"⟩ with paths := ["ns", "number"] }

/-- The namespace comes before the segment of that name, and a number that is not there is missed. -/
theorem compile_exact_pages : ∃ t, compile pages "self" "/\x7bns\x7d/p\x7bnumber\x7d" = .ok t ∧
    t.expand? ⟨⟨"demo", "page"⟩, ["dune", "12"]⟩ = some "/demo/p12" ∧
    t.expand? ⟨⟨"demo", "page"⟩, ["dune"]⟩ = none ∧
    compile pages "self" "/\x7bns\x7d/\x7bbook\x7d\x7d" = .error (.unknownVariable "self" "book") := by
  have hw : Written pages [.literal "/", .placeholder "ns", .literal "/p", .placeholder "number"]
      "/\x7bns\x7d/p\x7bnumber\x7d".toList := by
    simp [Written, Stretch.InOrder, Stretch.written, BraceFree, EntityKind.Knows, pages]
  have hnumber : pages.PathAt "number" 1 := EntityKind.pathIndex?_eq_some_iff.1 rfl
  obtain ⟨hok, -, hexpand⟩ := (compile_exact pages).1 "self" "/\x7bns\x7d/p\x7bnumber\x7d"
  obtain ⟨t, ht⟩ := hok.2 ⟨_, hw⟩
  refine ⟨t, ht, ?_, ?_, ?_⟩
  · refine ((hexpand t _ ht hw _).1 _).2 ⟨["/", "demo", "/p", "12"], ?_, rfl⟩
    exact .cons rfl (.cons .ns (.cons rfl (.cons (.path (by decide) (by decide) hnumber rfl) .nil)))
  · refine (hexpand t _ ht hw _).2.2 ⟨.placeholder "number", by simp, by decide, by decide, 1, hnumber, ?_⟩
    decide
  · have hw : Written pages [.literal "/", .placeholder "ns", .literal "/"] "/\x7bns\x7d/".toList := by
      simp [Written, Stretch.InOrder, Stretch.written, BraceFree, EntityKind.Knows]
    have hdefect : Defect pages "self" "/\x7bns\x7d/\x7bbook\x7d\x7d"
        ('\x7b' :: "book".toList ++ ['\x7d', '\x7d']) (.unknownVariable "self" "book") :=
      .unknown (by simp [BraceFree]) (by simp [EntityKind.Knows, pages, EntityKind.bare])
    exact (((compile_exact pages).1 "self" _).2.1 _).2 ⟨_, _, _, hw, by simp, hdefect⟩

end Template

end EntityCatalog
