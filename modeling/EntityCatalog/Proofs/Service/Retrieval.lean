import EntityCatalog.Proofs.Aspect.Listing
import EntityCatalog.Proofs.Chain.Grouping

/-!
# Listed entities can be retrieved

For a kind whose connectors all are stores, whatever a listing returns is what a request for the printed
identifier gets (`Service.listed_retrieved`). Both run the same chain, and both start from an entity of
which only the identifier is known: stores report nothing else in a listing, and merging such reports
leaves nothing else (`AspectChain.bare_of_discover`).

What the stores add depends on the files alone (`Store.filledBy`), and so do the links. Only the clock is
read in between, and only for an entity that no store has a timestamp for.
-/

namespace EntityCatalog

/-! ## Stores in turn -/

/-- All connectors of a kind are stores. -/
def EntityKind.FileBacked (kind : EntityKind) : Prop :=
  ∀ x ∈ kind.connectors, ∃ root format, x = .store root format

/-- The stores that a kind declares. -/
def EntityKind.stores (kind : EntityKind) (strict : Bool) : List Store :=
  kind.connectors.filterMap fun x => match x with
    | .store root format => some ⟨root, format, strict⟩
    | _ => none

theorem EntityKind.FileBacked.aspects {kind : EntityKind} (h : kind.FileBacked) {cx : BuildContext}
    {declared : List Aspect} (hdeclared : List.Forall₂ cx.Yields kind.connectors declared) :
    declared = (kind.stores cx.config.strict).map Aspect.store := by
  unfold FileBacked at h
  unfold stores
  generalize kind.connectors = connectors at h hdeclared
  induction hdeclared with
  | nil => rfl
  | cons hyields _ ih =>
    rw [List.forall_mem_cons] at h
    obtain ⟨⟨root, format, rfl⟩, hrest⟩ := h
    obtain ⟨s, s', hmakes⟩ := hyields
    cases hmakes
    rw [ih hrest]
    rfl

namespace Store

/-- An entity with what files say about it in one store after another. -/
def filledBy (files : FileTree) (stores : List Store) (e : Entity) : Except AspectError Entity :=
  stores.foldlM (fun e s => s.filled files e) e

variable {s : Store} {files : FileTree} {e out : Entity}

theorem filledBy_cons_eq_ok {rest : List Store} (h : filledBy files (s :: rest) e = .ok out) :
    ∃ mid, s.filled files e = .ok mid ∧ filledBy files rest mid = .ok out := by
  rw [filledBy, List.foldlM_cons] at h
  exact bind_eq_ok h

theorem filledBy_id {stores : List Store} (h : filledBy files stores e = .ok out) :
    out.id = e.id := by
  induction stores generalizing e with
  | nil => rw [Except.ok.inj h]
  | cons s rest ih =>
    obtain ⟨mid, hmid, hrest⟩ := filledBy_cons_eq_ok h
    rw [ih hrest, filled_id hmid]

theorem no_ts_of_filledBy {stores : List Store} (h : filledBy files stores e = .ok out)
    (hts : out.ts = none) : e.ts = none ∧
      ∀ s ∈ stores, ∀ report, s.stored files e.id = .ok (some report) → report.ts = none := by
  induction stores generalizing e with
  | nil =>
    obtain rfl := Except.ok.inj h
    exact ⟨hts, by simp⟩
  | cons s rest ih =>
    obtain ⟨mid, hmid, hrest⟩ := filledBy_cons_eq_ok h
    obtain ⟨hmidTs, hothers⟩ := ih hrest
    rw [filled_id hmid] at hothers
    rcases (filled_eq_ok hmid).2 with ⟨hnone, rfl⟩ | ⟨report, hreport, rfl⟩
    · refine ⟨hmidTs, List.forall_mem_cons.2 ⟨fun report hreport => ?_, hothers⟩⟩
      rw [hnone] at hreport
      cases hreport
    · obtain ⟨hreportTs, heTs⟩ := Option.or_eq_none_iff.1 hmidTs
      refine ⟨heTs, List.forall_mem_cons.2 ⟨fun other hother => ?_, hothers⟩⟩
      rw [hreport] at hother
      cases hother
      exact hreportTs

end Store

namespace AspectChain

variable {kind : EntityKind} {env : Env}

theorem pass_stores (kind : EntityKind) {stores : List Store} {e out : Entity}
    (h : Store.filledBy env.world.files stores e = .ok out) (rest : List Aspect) (j : Journal) :
    ∃ j', pass kind (stores.map Aspect.store ++ rest) e env j = pass kind rest out env j' := by
  induction stores generalizing e j with
  | nil =>
    obtain rfl := Except.ok.inj h
    exact ⟨j, rfl⟩
  | cons s stores ih =>
    obtain ⟨mid, hmid, hstores⟩ := Store.filledBy_cons_eq_ok h
    obtain ⟨j', hpass⟩ := ih hstores (j ++ s.reads e.id)
    refine ⟨j', ?_⟩
    rw [List.map_cons, List.cons_append, pass, Run.bind_apply, Aspect.augment, Store.augment_eq, hmid]
    exact hpass

theorem filledBy_of_pass {stores : List Store} {rest : List Aspect} {e out : Entity} {j : Journal}
    (h : (pass kind (stores.map Aspect.store ++ rest) e env j).1 = .success out) :
    ∃ mid, Store.filledBy env.world.files stores e = .ok mid := by
  induction stores generalizing e j with
  | nil => exact ⟨e, rfl⟩
  | cons s stores ih =>
    obtain ⟨mid, j', hmid, hstores⟩ := pass_cons_success h
    obtain ⟨known, hknown⟩ := ih hstores
    rw [Aspect.augment, Store.augment_eq] at hmid
    cases hfilled : s.filled env.world.files e with
    | error failure =>
      rw [hfilled] at hmid
      cases hmid
    | ok filled =>
      rw [hfilled] at hmid
      cases hmid
      refine ⟨known, ?_⟩
      rw [Store.filledBy, List.foldlM_cons, hfilled]
      exact hknown

theorem aspects_of_fileBacked {cx : BuildContext} {c : AspectChain} (hstores : kind.FileBacked)
    (hc : BuiltFor cx kind c) : c.kind = kind ∧ ∃ templates, c.aspects =
      (kind.stores cx.config.strict).map Aspect.store ++ [.links templates, .timestamp, .validation] := by
  obtain ⟨hkind, declared, templates, hdeclared, -, haspects⟩ := hc.aspects_eq
  obtain rfl := hstores.aspects hdeclared
  exact ⟨hkind, templates, haspects⟩

theorem pass_stores_success_iff (templates : List Template) {stores : List Store}
    {e known : Entity} (h : Store.filledBy env.world.files stores e = .ok known) (j : Journal) :
    ∃ n, ∀ out, (pass kind (stores.map Aspect.store ++ [.links templates, .timestamp, .validation])
        e env j).1 = .success out ↔
      e.id.kind = kind.id ∧ e.id.paths.length = kind.paths.length ∧
        out = { Template.apply templates known with
          ts := some (known.ts.getD (env.world.clock n)) } := by
  obtain ⟨j', hpass⟩ := pass_stores kind h [.links templates, .timestamp, .validation] j
  refine ⟨j'.readings, fun out => ?_⟩
  rw [hpass, pass_closing_success_iff, Store.filledBy_id h]

/-! ## Reports of stores -/

theorem bare_of_store {s : Store} {request : ListRequest} {before after : List Entity}
    {j j' : Journal}
    (h : Aspect.list request kind before (.store s) env j = (.success after, j'))
    (hbefore : ∀ e ∈ before, e = .bare e.id) : ∀ e ∈ after, e = .bare e.id := by
  have hlist : (s.list kind before env j).1 = .success after := congrArg (·.1) h
  obtain ⟨ids, hids⟩ := Store.search_of_list (congrArg Attempt.failure? hlist)
  rw [Store.list_of_search hids] at hlist
  obtain rfl := congrArg Attempt.left hlist
  intro e he
  rcases List.mem_append.1 he with he | he
  · exact hbefore e he
  · obtain ⟨id, -, rfl⟩ := List.mem_map.1 he
    rfl

theorem foldl_merge_bare {id : EntityId} {rest : List Entity} (h : ∀ e ∈ rest, e = .bare e.id) :
    rest.foldl Entity.merge (.bare id) = .bare id := by
  induction rest with
  | nil => rfl
  | cons e rest ih =>
    rw [List.forall_mem_cons] at h
    have hmerge : (Entity.bare id).merge e = .bare id := by
      rw [h.1]
      rfl
    rw [List.foldl_cons, hmerge]
    exact ih h.2

theorem bare_of_mem_group {reports : List Entity} (h : ∀ e ∈ reports, e = .bare e.id) {e : Entity}
    (he : e ∈ group reports) : e = .bare e.id ∧ e.id ∈ reports.map (·.id) := by
  obtain ⟨first, rest, hreports, hmerged⟩ := (grouped_group reports).merged e he
  have hfiltered : ∀ x ∈ first :: rest, x ∈ reports ∧ x.id = e.id := by
    intro x hx
    rw [← hreports] at hx
    simpa using List.mem_filter.1 hx
  obtain ⟨hfirst, hrest⟩ := List.forall_mem_cons.1 hfiltered
  rw [h first hfirst.1, hfirst.2, foldl_merge_bare fun x hx => h x (hrest x hx).1] at hmerged
  exact ⟨hmerged, List.mem_map.2 ⟨first, hfirst⟩⟩

theorem bare_of_discover {cx : BuildContext} {c : AspectChain} (hstores : kind.FileBacked)
    (hc : BuiltFor cx kind c) {request : ListRequest} {found : List Entity} {j j' : Journal}
    (h : c.discover request env j = (.ok found, j')) {e : Entity} (he : e ∈ found) :
    e = .bare e.id ∧ kind.stores cx.config.strict ≠ [] := by
  obtain ⟨rfl, templates, haspects⟩ := aspects_of_fileBacked hstores hc
  obtain ⟨reports, hgathered, rfl⟩ := discover_eq_ok_iff.1 h
  have hreports : ∀ e ∈ reports, e = .bare e.id ∧ c.kind.stores cx.config.strict ≠ [] := by
    refine hgathered.keeps (I := fun reports => ∀ e ∈ reports, e = .bare e.id ∧
      c.kind.stores cx.config.strict ≠ []) (fun a ha => ?_) (by simp)
    rw [haspects, List.mem_append] at ha
    intro before after j j' hlist hbefore
    rcases ha with hstore | hclosing
    · obtain ⟨s, hs, rfl⟩ := List.mem_map.1 hstore
      have hbare := bare_of_store hlist fun e he => (hbefore e he).1
      exact fun e he => ⟨hbare e he, List.ne_nil_of_mem hs⟩
    · -- the closing aspects report nothing
      simp only [List.mem_cons, List.not_mem_nil, or_false] at hclosing
      rcases hclosing with rfl | rfl | rfl <;> cases hlist <;> exact hbefore
  obtain ⟨hbare, hknown⟩ := bare_of_mem_group (fun e he => (hreports e he).1) he
  obtain ⟨first, hfirst, -⟩ := List.mem_map.1 hknown
  exact ⟨hbare, (hreports first hfirst).2⟩

end AspectChain

namespace Service

variable {kind : EntityKind} {cx : BuildContext} {c : AspectChain} {env : Env} {j : Journal}

theorem entityId_text {text : String} (hkind : KindId.parse text = .ok kind.id) {id : EntityId}
    (hid : id.kind = kind.id) (hsegments : ∀ p ∈ id.paths, IsSegment p) :
    entityId kind id.text = .ok id := by
  have hcanonical : id.Canonical := ⟨hid ▸ (KindId.canonical_of_parse hkind).2, hsegments⟩
  rw [entityId, EntityId.parse_text hcanonical]
  exact if_pos hid

theorem get_kind {iri : String} {id : EntityId} {e : Entity} (hid : entityId c.kind iri = .ok id)
    (h : (c.augment (.bare id) env j).1 = .success e) :
    (get iri (.kind c) env j).1 = .ok (.ofEntity e) := by
  rw [get, Run.bind_apply, getEntity, hid]
  dsimp only
  rw [Run.bind_apply, h]
  rfl

/-- **What is listed can be retrieved.** Let all connectors of a kind be stores, of any number. Each
entity of a listing that succeeds is what a request for its printed identifier gets from the same files,
whenever it is made. Only a timestamp that no store has may be another: the two are read from the clock. -/
theorem listed_retrieved {text : String} (hid : KindId.parse text = .ok kind.id)
    (hstores : kind.FileBacked) (hc : AspectChain.BuiltFor cx kind c) {request : ListRequest}
    {es : List Entity} (h : (list request (.kind c) env j).1 = .ok es) :
    ∀ e ∈ es, ∀ (env' : Env) (j' : Journal), env'.world.files = env.world.files →
      ∃ e', (get e.id.text (.kind c) env' j').1 = .ok (.ofEntity e') ∧
        (e' = e ∨
          (∀ s ∈ kind.stores cx.config.strict, ∀ j report,
            (s.report? e.id env j).1 = .ok (some report) → report.ts = none) ∧
          ∃ n n', e.ts = some (env.world.clock n) ∧
            e' = { e with ts := some (env'.world.clock n') }) := by
  intro e he env' j' hfiles
  obtain ⟨found, j₁, hdiscover, haugment⟩ := listEntities_eq_ok h
  obtain ⟨first, hfirst, j₂, hpassed, -⟩ := mem_augmentAll haugment he
  obtain ⟨hbare, hsome⟩ := AspectChain.bare_of_discover hstores hc hdiscover hfirst
  obtain ⟨rfl, templates, haspects⟩ := AspectChain.aspects_of_fileBacked hstores hc
  rw [AspectChain.augment, haspects] at hpassed
  obtain ⟨known, hknown⟩ := AspectChain.filledBy_of_pass hpassed
  obtain ⟨n, hout⟩ := AspectChain.pass_stores_success_iff templates hknown j₂
  obtain ⟨hkind, hlength, rfl⟩ := (hout e).1 hpassed
  -- the identifier has a file in the first store
  have hplain : ∀ part ∈ first.id.parts, Store.Plain part := by
    obtain ⟨s, rest, hcons⟩ := List.exists_cons_of_ne_nil hsome
    rw [hcons] at hknown
    obtain ⟨mid, hmid, -⟩ := Store.filledBy_cons_eq_ok hknown
    exact (Store.filled_eq_ok hmid).1
  have hprinted : (Template.apply templates known).id = first.id := by
    rw [Template.apply_id, Store.filledBy_id hknown]
  have hsegments : ∀ p ∈ first.id.paths, IsSegment p := fun p hp =>
    (hplain p (by simp [EntityId.parts, hp])).toIsSegment
  have hread := entityId_text hid hkind hsegments
  -- and a request for it runs the same chain
  rw [← hfiles] at hknown
  obtain ⟨n', hout'⟩ := AspectChain.pass_stores_success_iff templates hknown j'
  have hanswer := (hout' _).2 ⟨hkind, hlength, rfl⟩
  rw [← haspects, ← AspectChain.augment, hbare] at hanswer
  refine ⟨_, by rw [hprinted]; exact get_kind hread hanswer, ?_⟩
  cases hts : known.ts with
  | some t => exact .inl rfl
  | none =>
    obtain ⟨-, hreports⟩ := Store.no_ts_of_filledBy hknown hts
    refine .inr ⟨fun s hs j report hreport => ?_, n, n', rfl, rfl⟩
    rw [Store.report?_eq, hprinted, ← hfiles] at hreport
    exact hreports s hs report hreport

/-! ### A book that is stored twice -/

/-- Books in two stores, which are one and the same. -/
def storedBooks : EntityKind :=
  { Store.booksOf "demo" with connectors := [.store "store" .yaml, .store "store" .yaml] }

def storedChain : AspectChain :=
  ⟨storedBooks, [.store ⟨"store", .yaml, false⟩, .store ⟨"store", .yaml, false⟩,
    .links [], .timestamp, .validation]⟩

/-- A store with a book, and a clock that goes on by a day at each reading. -/
def passingEnv : Env :=
  ⟨⟨Store.shelf Store.ownBook, fun _ _ => none, fun n => ⟨n, 0, 0⟩⟩, .empty⟩

/-- The book of the stores on a day. -/
def storedBook (day : Int) : Entity :=
  { Entity.bare ⟨⟨"demo", "book"⟩, ["2"]⟩ with ts := some ⟨day, 0, 0⟩ }

theorem listed_retrieved_book :
    KindId.parse "demo.book" = .ok storedBooks.id ∧ storedBooks.FileBacked ∧
      AspectChain.BuiltFor bookContext storedBooks storedChain ∧
      (list (.all storedBooks.id) (.kind storedChain) passingEnv []).1 = .ok [storedBook 0] ∧
      ∃ day, (get (storedBook 0).id.text (.kind storedChain) passingEnv [.clock]).1 =
        .ok (.ofEntity (storedBook day)) := by
  have hparse : KindId.parse "demo.book" = .ok storedBooks.id := rfl
  have hstores : storedBooks.FileBacked := by
    simp [EntityKind.FileBacked, storedBooks]
  have hbuild : AspectChain.BuiltFor bookContext storedBooks storedChain := ⟨.start, _, rfl⟩
  have hsearch (j : Journal) : Store.search ⟨"store", .yaml, false⟩ storedBooks passingEnv j =
      (.ok [⟨⟨"demo", "book"⟩, ["2"]⟩], j ++ [.enter ⟨"store", ["demo", "book"]⟩]) := by
    rw [Store.search_of_paths (List.cons_ne_nil _ _), Store.walk_eq_visit]
    rfl
  have hstore (before : List Entity) (j : Journal) :
      Store.list ⟨"store", .yaml, false⟩ storedBooks before passingEnv j =
        (.success (before ++ [.bare ⟨⟨"demo", "book"⟩, ["2"]⟩]),
          j ++ [.enter ⟨"store", ["demo", "book"]⟩]) := by
    rw [Store.list_eq, Run.bind_apply, hsearch]
    simp [EntityId.sort]
  have hlist : (list (.all storedBooks.id) (.kind storedChain) passingEnv []).1 =
      .ok [storedBook 0] := by
    have hgathered : Run.Steps (AspectChain.listing storedChain.kind (.all storedBooks.id)) passingEnv
        storedChain.aspects [] [] [.bare ⟨⟨"demo", "book"⟩, ["2"]⟩, .bare ⟨⟨"demo", "book"⟩, ["2"]⟩]
        [.enter ⟨"store", ["demo", "book"]⟩, .enter ⟨"store", ["demo", "book"]⟩] :=
      .next (hstore [] []) (.next (hstore _ _) (.next rfl (.next rfl (.next rfl .none))))
    have hdiscover : storedChain.discover (.all storedBooks.id) passingEnv [] =
        (.ok [.bare ⟨⟨"demo", "book"⟩, ["2"]⟩],
          [.enter ⟨"store", ["demo", "book"]⟩, .enter ⟨"store", ["demo", "book"]⟩]) := by
      rw [AspectChain.discover_eq_ok_iff.2 ⟨_, hgathered, rfl⟩]
      rfl
    rw [list, listEntities, if_neg (by decide), Run.bind_apply, hdiscover]
    rfl
  refine ⟨hparse, hstores, hbuild, hlist, ?_⟩
  obtain ⟨e', hget, hsame⟩ := listed_retrieved hparse hstores hbuild hlist (storedBook 0)
    (List.mem_singleton_self _) passingEnv [.clock] rfl
  rcases hsame with rfl | ⟨-, n, n', -, rfl⟩
  · exact ⟨0, hget⟩
  · exact ⟨n', hget⟩

end Service

end EntityCatalog
