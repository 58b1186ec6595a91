import EntityCatalog.Proofs.Aspect.Discovery
import EntityCatalog.Proofs.Service.Filter
import EntityCatalog.Proofs.Service.Stopping

/-!
# Filters as conjunctions

If no aspect of a kind looks at the filter of a listing, the filter is applied in the end and to nothing but
the entities that have passed the whole chain: a listing is the listing without a filter, with those left out
that do not satisfy the filter, and it fails if that one fails (`Service.list_filtered`). Hence a listing for
two filters together is what the listings for each have in common (`Service.filters_conjoin`).
-/

namespace EntityCatalog

/-! ## Aspects that do not look at filters -/

/-- An extension lists the same whatever a request filters for. -/
def AspectExtension.IgnoresFilters (x : AspectExtension) : Prop :=
  ∀ (o : Occasion) (asked : KindId) (f g : SortedMap String), x.list o ⟨asked, f⟩ = x.list o ⟨asked, g⟩

/-- No connector of a kind looks at filters: there are no remotes, and no extensions that do. -/
def EntityKind.IgnoresFilters (kind : EntityKind) (extensions : Extensions) : Prop :=
  ∀ x ∈ kind.connectors, (∀ endpoint, x ≠ .remote endpoint) ∧
    ∀ name own, x = .extension name → extensions.aspects.get? name = some own → own.IgnoresFilters

namespace Aspect

/-- An aspect lists the same, and looks at the same, whatever a request filters for. -/
def IgnoresFilters (a : Aspect) : Prop :=
  ∀ (asked : KindId) (f g : SortedMap String) (kind : EntityKind) (before : List Entity),
    a.list ⟨asked, f⟩ kind before = a.list ⟨asked, g⟩ kind before

theorem ignoresFilters_extension {o : AspectObject} (h : o.extension.IgnoresFilters) :
    (extension o).IgnoresFilters := by
  intro asked f g kind before
  rw [list, list]
  simp only [h _ asked f g]

end Aspect

namespace AspectChain

variable {cx : BuildContext} {c : AspectChain} {kind : EntityKind} {asked : KindId} {f g : SortedMap String}
  {aspects : List Aspect}

theorem ignoresFilters_of_build (hc : BuiltFor cx kind c) (hkind : kind.IgnoresFilters cx.extensions) :
    ∀ a ∈ c.aspects, a.IgnoresFilters := by
  intro a ha
  rcases hc.declared_or_closing ha with ⟨x, hx, s, s', hbuilt⟩ | ⟨templates, rfl⟩ | rfl | rfl
  · obtain ⟨hremote, hextension⟩ := hkind x hx
    cases hbuilt with
    | error => exact fun _ _ _ _ _ => rfl
    | store => exact fun _ _ _ _ _ => rfl
    | remote => exact absurd rfl (hremote _)
    | extension hown => exact Aspect.ignoresFilters_extension (hextension _ _ rfl hown)
  all_goals exact fun _ _ _ _ _ => rfl

theorem gather_ignores (h : ∀ a ∈ aspects, a.IgnoresFilters) (reports : List Entity) :
    gather kind ⟨asked, f⟩ aspects reports = gather kind ⟨asked, g⟩ aspects reports := by
  induction aspects generalizing reports with
  | nil => rfl
  | cons a rest ih =>
    rw [List.forall_mem_cons] at h
    rw [gather, gather, h.1 asked f g]
    simp only [ih h.2]

theorem discover_ignores (h : ∀ a ∈ c.aspects, a.IgnoresFilters) :
    c.discover ⟨asked, f⟩ = c.discover ⟨asked, g⟩ := by
  rw [discover, discover, gather_ignores h]

/-- Entities have passed a chain, one after another. -/
inductive Passed (c : AspectChain) (env : Env) : List Entity → Journal → List Entity → Journal → Prop
  | none {j : Journal} : Passed c env [] j [] j
  | next {e out : Entity} {rest outs : List Entity} {j j₁ j' : Journal}
      (haugment : c.augment e env j = (.success out, j₁)) (hrest : Passed c env rest j₁ outs j') :
      Passed c env (e :: rest) j (out :: outs) j'

end AspectChain

/-! ## Filters -/

namespace Service
open AspectChain

variable {kind : EntityKind} {c : AspectChain} {asked : KindId} {f g : SortedMap String} {e : Entity}
  {found all : List Entity} {env : Env} {j j' : Journal}

instance (kind : EntityKind) (filter : SortedMap String) (e : Entity) : Decidable (Satisfies kind filter e) :=
  decidable_of_iff (matchesFilter kind filter e = true) matchesFilter_iff

theorem satisfies_override_iff
    (hagree : ∀ key wanted wanted', f.get? key = some wanted → g.get? key = some wanted' → wanted = wanted') :
    Satisfies kind (f.override g) e ↔ Satisfies kind f e ∧ Satisfies kind g e := by
  constructor
  · intro h
    constructor
    · intro key wanted hf
      refine h key wanted ?_
      rw [SortedMap.get?_override]
      cases hg : g.get? key with
      | none => exact hf
      | some wanted' => rw [hagree key wanted wanted' hf hg, Option.some_or]
    · intro key wanted hg
      refine h key wanted ?_
      rw [SortedMap.get?_override, hg, Option.some_or]
  · rintro ⟨hf, hg⟩ key wanted h
    rw [SortedMap.get?_override, Option.or_eq_some_iff] at h
    rcases h with h | ⟨-, h⟩
    · exact hg key wanted h
    · exact hf key wanted h

/-- The filter does not decide what passes, only what is kept. -/
theorem augmentAll_filtered (c : AspectChain) (filter : SortedMap String) (found : List Entity) (env : Env)
    (j : Journal) : augmentAll c filter found env j =
      ((augmentAll c ∅ found env j).1.map (·.filter fun e => Satisfies c.kind filter e),
        (augmentAll c ∅ found env j).2) := by
  induction found generalizing j with
  | nil => rfl
  | cons e rest ih =>
    cases haugment : c.augment e env j with
    | mk attempt j₁ =>
      obtain ⟨out, _ | own⟩ := attempt
      · rw [augmentAll_of_success haugment, augmentAll_of_success haugment, ih]
        obtain ⟨own | kept, j₂⟩ := augmentAll c ∅ rest env j₁
        · rfl
        · have hkept : (out :: kept).filter (fun e => Satisfies c.kind filter e) =
              if matchesFilter c.kind filter out = true then out :: kept.filter (fun e => Satisfies c.kind filter e)
              else kept.filter fun e => Satisfies c.kind filter e := by
            rw [List.filter_cons]
            simp only [decide_eq_true_eq, ← matchesFilter_iff]
          exact Prod.ext (congrArg Except.ok hkept.symm) rfl
      · rw [augmentAll_of_failure haugment, augmentAll_of_failure haugment]
        rfl

theorem augmentAll_empty_eq_ok_iff :
    augmentAll c ∅ found env j = (.ok all, j') ↔ Passed c env found j all j' := by
  constructor
  · intro h
    induction found generalizing all j with
    | nil =>
      cases h
      exact .none
    | cons e rest ih =>
      cases haugment : c.augment e env j with
      | mk attempt j₁ =>
        obtain ⟨out, _ | own⟩ := attempt
        · rw [augmentAll_of_success haugment] at h
          cases hrest : augmentAll c ∅ rest env j₁ with
          | mk answer j₂ =>
            rw [hrest] at h
            obtain own | kept := answer
            · cases h
            · cases h
              exact .next haugment (ih hrest)
        · rw [augmentAll_of_failure haugment] at h
          cases h
  · intro h
    induction h with
    | none => rfl
    | next haugment _ ih =>
      rw [augmentAll_of_success haugment, ih]
      rfl

theorem list_filtered (h : ∀ a ∈ c.aspects, a.IgnoresFilters) (asked : KindId) (f : SortedMap String) (env : Env)
    (j : Journal) : list ⟨asked, f⟩ (.kind c) env j =
      ((list (.all asked) (.kind c) env j).1.map (·.filter fun e => Satisfies c.kind f e),
        (list (.all asked) (.kind c) env j).2) := by
  by_cases hasked : asked = c.kind.id
  · rw [list_directed hasked, list_directed hasked, ListRequest.all, discover_ignores h]
    obtain ⟨own | found, j₁⟩ := c.discover ⟨asked, ∅⟩ env j
    · rfl
    · exact augmentAll_filtered c f found env j₁
  · rw [list_misdirected hasked, list_misdirected hasked]
    rfl

theorem passed_of_list {asked : KindId} (h : (list (.all asked) (.kind c) env j).1 = .ok all) :
    ∃ found j₁ j', c.discover (.all asked) env j = (.ok found, j₁) ∧ Passed c env found j₁ all j' := by
  obtain ⟨found, j₁, hdiscover, haugment⟩ := listEntities_eq_ok h
  exact ⟨found, j₁, _, hdiscover, augmentAll_empty_eq_ok_iff.1 (Prod.ext haugment rfl)⟩

/-- **Filters are conjunctions that are applied after the chain.** Let no connector of a kind look at filters.
A listing fails exactly if the one without a filter fails, and with the same error. Otherwise the latter is
everything that is discovered, after it has passed the chain, and a listing with a filter is what of it
satisfies the filter, in the same order. Two filters together, if they agree where both ask for something, get
what the answers to each have in common. -/
theorem filters_conjoin {cx : BuildContext} (hc : AspectChain.BuiltFor cx kind c)
    (hkind : kind.IgnoresFilters cx.extensions) (asked : KindId) (env : Env) (j : Journal) :
    (∀ f failure, (list ⟨asked, f⟩ (.kind c) env j).1 = .error failure ↔
      (list (.all asked) (.kind c) env j).1 = .error failure) ∧
    ∀ all, (list (.all asked) (.kind c) env j).1 = .ok all →
      (∃ found j₁ j', c.discover (.all asked) env j = (.ok found, j₁) ∧ Passed c env found j₁ all j') ∧
      (∀ f, (list ⟨asked, f⟩ (.kind c) env j).1 = .ok (all.filter fun e => Satisfies kind f e)) ∧
      ∀ f g, (∀ key v w, f.get? key = some v → g.get? key = some w → v = w) →
        ∃ answer answer' both, (list ⟨asked, f⟩ (.kind c) env j).1 = .ok answer ∧
          (list ⟨asked, g⟩ (.kind c) env j).1 = .ok answer' ∧
          (list ⟨asked, f.override g⟩ (.kind c) env j).1 = .ok both ∧
          both.Sublist all ∧ (∀ e, e ∈ both ↔ e ∈ answer ∧ e ∈ answer') ∧
          both = answer.filter (fun e => Satisfies kind g e) ∧
          both = answer'.filter fun e => Satisfies kind f e := by
  obtain rfl := hc.aspects_eq.1
  have hlist (f : SortedMap String) := list_filtered (ignoresFilters_of_build hc hkind) asked f env j
  refine ⟨fun f failure => ?_, fun all hall => ⟨passed_of_list hall, ?_⟩⟩
  · rw [hlist f]
    obtain own | all := (list (.all asked) (.kind c) env j).1
    · rfl
    · exact ⟨nofun, nofun⟩
  · have hanswer (f : SortedMap String) :
        (list ⟨asked, f⟩ (.kind c) env j).1 = .ok (all.filter fun e => Satisfies c.kind f e) := by
      rw [hlist f, hall]
      rfl
    refine ⟨hanswer, fun f g hagree => ⟨_, _, _, hanswer f, hanswer g, hanswer (f.override g), ?_⟩⟩
    have hboth (e : Entity) : Satisfies c.kind (f.override g) e ↔ Satisfies c.kind f e ∧ Satisfies c.kind g e :=
      satisfies_override_iff hagree
    refine ⟨List.filter_sublist, fun e => ?_, ?_, ?_⟩
    · simp only [List.mem_filter, decide_eq_true_eq, hboth]
      tauto
    · simp only [List.filter_filter, hboth, Bool.decide_and, Bool.and_comm]
    · simp only [List.filter_filter, hboth, Bool.decide_and]

/-! ### Books in a store and in a catalog -/

/-- Books in a store, and in a catalog that is an extension. -/
def cataloguedBooks : EntityKind :=
  { Store.booksOf "demo" with connectors := [.store "store" .yaml, .extension "catalog"] }

def cataloguedChain : AspectChain :=
  ⟨cataloguedBooks,
    [.store ⟨"store", .yaml, false⟩, .extension ⟨0, catalog, []⟩, .links [], .timestamp, .validation]⟩

/-- The books of the catalog, after they have passed the chain. -/
def cataloguedAnswer : List Entity :=
  [{ catalogReport "b" [("extra", .nat 1), ("from", .string "first")] with ts := some ⟨0, 0, 0⟩ },
    { catalogReport "a" [] with ts := some ⟨0, 0, 0⟩ }]

theorem list_catalogued :
    (list (.all cataloguedBooks.id) (.kind cataloguedChain) (Store.shelfEnv Store.ownBook) []).1 =
      .ok cataloguedAnswer := by
  have hsearch : Store.search ⟨"store", .yaml, false⟩ cataloguedBooks (Store.shelfEnv Store.ownBook) [] =
      (.ok [⟨⟨"demo", "book"⟩, ["2"]⟩], [.enter ⟨"store", ["demo", "book"]⟩]) := by
    rw [Store.search_of_paths (List.cons_ne_nil _ _), Store.walk_eq_visit]
    rfl
  have hstore : Store.list ⟨"store", .yaml, false⟩ cataloguedBooks [] (Store.shelfEnv Store.ownBook) [] =
      (.success [.bare ⟨⟨"demo", "book"⟩, ["2"]⟩], [.enter ⟨"store", ["demo", "book"]⟩]) := by
    rw [Store.list_eq, Run.bind_apply, hsearch]
    simp [EntityId.sort]
  have hgathered : Run.Steps (listing cataloguedChain.kind (.all cataloguedBooks.id))
      (Store.shelfEnv Store.ownBook) cataloguedChain.aspects [] [] catalogReports [.enter ⟨"store", ["demo", "book"]⟩, .ask "catalog"] :=
    .next hstore (.next rfl (.next rfl (.next rfl (.next rfl .none))))
  rw [list_directed rfl, discover_eq_ok_iff.2 ⟨_, hgathered, rfl⟩]
  rfl

/-- One of the two books is asked for by its segment, and by a number in its data. -/
theorem filters_conjoin_catalog :
    AspectChain.BuiltFor refusingContext cataloguedBooks cataloguedChain ∧
      cataloguedBooks.IgnoresFilters refusingContext.extensions ∧
      ∃ both, (list ⟨cataloguedBooks.id, .override (.ofList [("isbn", "b")]) (.ofList [("extra", "1")])⟩
          (.kind cataloguedChain) (Store.shelfEnv Store.ownBook) []).1 = .ok both ∧
        both.map (·.id.paths) = [["b"]] := by
  have hbuild : AspectChain.BuiltFor refusingContext cataloguedBooks cataloguedChain := ⟨.start, _, rfl⟩
  have hkind : cataloguedBooks.IgnoresFilters refusingContext.extensions := by
    intro x hx
    simp only [cataloguedBooks, List.mem_cons, List.not_mem_nil, or_false] at hx
    rcases hx with rfl | rfl
    · exact ⟨nofun, nofun⟩
    · refine ⟨nofun, fun name own hname hown => ?_⟩
      cases hname
      cases hown
      exact fun _ _ _ _ => rfl
  have hagree : ∀ key v w, (SortedMap.ofList [("isbn", "b")]).get? key = some v →
      (SortedMap.ofList [("extra", "1")]).get? key = some w → v = w := by
    intro key v w hf hg
    have hisbn := SortedMap.mem_of_get?_ofList hf
    have hextra := SortedMap.mem_of_get?_ofList hg
    simp only [List.mem_singleton, Prod.mk.injEq] at hisbn hextra
    exact absurd (hisbn.1.symm.trans hextra.1) (by decide)
  obtain ⟨-, hlists⟩ := filters_conjoin hbuild hkind cataloguedBooks.id (Store.shelfEnv Store.ownBook) []
  obtain ⟨-, hfilter, hjoint⟩ := hlists _ list_catalogued
  obtain ⟨answer, answer', both, hanswer, -, hboth, -, -, hsome, -⟩ := hjoint _ _ hagree
  obtain rfl := Except.ok.inj (hanswer.symm.trans (hfilter _))
  exact ⟨hbuild, hkind, both, hboth, by rw [hsome]; rfl⟩

end Service

end EntityCatalog
