import EntityCatalog.Proofs.Aspect.Listing
import EntityCatalog.Proofs.Aspect.Sight
import EntityCatalog.Proofs.Aspect.Sources
import EntityCatalog.Proofs.Chain.Grouping
import EntityCatalog.Proofs.Merging

/-!
# What aspects leave alone

An aspect of the library that fails has done nothing: the entity, or the reports so far, are what they were.
One that succeeds touches the part of an entity that is its own (`Aspect.Touches`), and takes nothing away
(`Entity.Extends`). To the reports it appends entities of the kind that is listed (`Aspect.fails_cleanly`).
So an entity that passes a chain of such aspects only gains, even if the chain fails in the end
(`AspectChain.extends_of_augment`).
-/

namespace EntityCatalog

open Json (Value)

/-! ## Entities that gain -/

/-- An entity still is what another one was, and has everything that the other one had, perhaps with other
values. -/
structure Entity.Extends (e out : Entity) : Prop where
  id : out.id = e.id
  ts : e.ts.isSome → out.ts.isSome
  links : ∀ name, (e.links.get? name).isSome → (out.links.get? name).isSome
  related : ∀ name, (e.related.get? name).isSome → (out.related.get? name).isSome
  data : e.data ≠ .null → out.data ≠ .null

namespace Entity

variable {e mid out report : Entity}

theorem Extends.refl (e : Entity) : Extends e e :=
  ⟨rfl, fun h => h, fun _ h => h, fun _ h => h, fun h => h⟩

theorem Extends.trans (h : Extends e mid) (h' : Extends mid out) : Extends e out :=
  ⟨h'.id.trans h.id, fun hts => h'.ts (h.ts hts), fun name hlink => h'.links name (h.links name hlink),
    fun name hrelated => h'.related name (h.related name hrelated), fun hdata => h'.data (h.data hdata)⟩

theorem mergeData_ne_null {mine : Value} (h : mine ≠ .null) (theirs : Value) : mergeData mine theirs ≠ .null := by
  cases theirs with
  | null => exact h
  | object members => cases mine <;> nofun
  | _ => nofun

theorem extends_merge (e report : Entity) : Extends e (e.merge report) := by
  refine ⟨rfl, fun hts => ?_, fun name hlink => ?_, fun name hrelated => ?_,
    fun hdata => mergeData_ne_null hdata _⟩
  · rw [merge, Option.isSome_or, hts, Bool.or_true]
  · rw [merge, SortedMap.get?_override, Option.isSome_or, hlink, Bool.or_true]
  · rw [merge, SortedMap.get?_override, Option.isSome_or, hrelated, Bool.or_true]

end Entity

theorem Template.extends_apply (templates : List Template) (e : Entity) : e.Extends (apply templates e) := by
  induction templates generalizing e with
  | nil => exact .refl e
  | cons t templates ih =>
    rw [apply, List.foldl_cons]
    refine .trans ?_ (ih _)
    split
    · next uri _ =>
      refine { Entity.Extends.refl e with links := fun name hlink => ?_ }
      dsimp only
      rw [SortedMap.get?_insert]
      split
      · rfl
      · exact hlink
    · exact .refl e

/-! ## Listings of one kind -/

theorem Store.kind_of_search {s : Store} {kind : EntityKind} {env : Env} {j : Journal} {ids : List EntityId}
    (h : (s.search kind env j).1 = .ok ids) : ∀ id ∈ ids, id.kind = kind.id := by
  intro id hid
  by_cases hpaths : kind.paths = []
  · rw [search_of_no_paths hpaths] at h
    obtain ⟨-, -, hsingle⟩ := single_spec s kind env j
    rw [(hsingle ids h id hid).1]
  · rw [search_of_paths hpaths] at h
    obtain ⟨-, -, -, hwalked⟩ := walk_spec s kind env j
    rw [hwalked ids h] at hid
    obtain ⟨stop, -, hfound⟩ := List.mem_flatMap.1 hid
    obtain ⟨-, stem, entry, -, -, -, rfl⟩ := mem_found_iff.1 hfound
    rfl

/-- What somebody makes of reports who appends entities of a kind or fails. -/
inductive Appends (kind : EntityKind) (before : List Entity) : Attempt AspectError (List Entity) → Prop
  | failure (cause : AspectError) : Appends kind before (.failure before cause)
  | success {found : List Entity} (hkind : ∀ e ∈ found, e.id.kind = kind.id) :
      Appends kind before (.success (before ++ found))

theorem Appends.nothing (kind : EntityKind) (before : List Entity) : Appends kind before (.success before) := by
  have h : Appends kind before (.success (before ++ [])) := .success (by simp)
  rwa [List.append_nil] at h

namespace Store

variable (s : Store) (kind : EntityKind)

theorem appends_list (before : List Entity) (env : Env) (j : Journal) :
    Appends kind before (s.list kind before env j).1 := by
  rw [list_eq, Run.bind_apply]
  cases hsearch : (s.search kind env j).1 with
  | error cause => exact .failure cause
  | ok ids =>
    refine .success fun e he => ?_
    obtain ⟨id, hid, rfl⟩ := List.mem_map.1 he
    exact kind_of_search hsearch id (EntityId.mem_sort.1 hid)

end Store

namespace Remote

variable (r : Remote) (request : ListRequest) (kind : EntityKind)

theorem appends_list (before : List Entity) (env : Env) (j : Journal) :
    Appends kind before (r.list request kind before env j).1 := by
  rw [list, Run.bind_apply]
  obtain ⟨cause | _ | body, j'⟩ := r.post "list" request.encode env j
  · exact .failure cause
  · exact .nothing kind before
  · dsimp only
    cases receive ListResponse.decode body with
    | error cause => exact .failure cause
    | ok response =>
      refine .success fun e he => ?_
      obtain ⟨-, hkind⟩ := List.mem_filter.1 he
      exact of_decide_eq_true hkind

end Remote

/-! ## Aspects -/

namespace Aspect

variable {a : Aspect} {kind : EntityKind} {env : Env} {j j' : Journal}

/-- What an aspect of the library may do to an entity: stores and remotes merge what they say into it. -/
def Touches (env : Env) (j : Journal) (e out : Entity) (a : Aspect) : Prop :=
  match a with
  | store _ | remote _ => ∃ report?, (a.answer e.id env j).1 = .ok report? ∧ out = report?.elim e e.merge
  | links _ => ∃ links, out = { e with links }
  | timestamp => ∃ now, out = { e with ts := some (e.ts.getD now) }
  | error _ | validation => out = e
  | extension _ => True

/-- What somebody makes of an entity who touches only what is his own, or fails. -/
inductive Handles (env : Env) (j : Journal) (a : Aspect) (e : Entity) : Attempt AspectError Entity → Prop
  | failure (cause : AspectError) : Handles env j a e (.failure e cause)
  | success {out : Entity} (htouches : a.Touches env j e out) (hextends : e.Extends out) :
      Handles env j a e (.success out)

theorem Source.handles_augment (h : a.Source) (kind : EntityKind) (e : Entity) (env : Env) (j : Journal) :
    a.Handles env j e (a.augment kind e env j).1 := by
  have htouches {report? : Option Entity} (hanswer : (a.answer e.id env j).1 = .ok report?) :
      a.Touches env j e (report?.elim e e.merge) := by
    cases h <;> exact ⟨report?, hanswer, rfl⟩
  rw [augment_of_source h, Run.bind_apply]
  cases hanswer : (a.answer e.id env j).1 with
  | error cause => exact .failure cause
  | ok report? =>
    cases report? with
    | none => exact .success (htouches hanswer) (.refl e)
    | some report => exact .success (htouches hanswer) (e.extends_merge report)

theorem handles_augment (h : a.BuiltIn) (kind : EntityKind) (e : Entity) (env : Env) (j : Journal) :
    a.Handles env j e (a.augment kind e env j).1 := by
  cases a with
  | error message => exact .failure _
  | store s => exact (Source.store s).handles_augment kind e env j
  | remote r => exact (Source.remote r).handles_augment kind e env j
  | links templates =>
    obtain ⟨links, happly⟩ := Template.apply_eq templates e
    exact .success ⟨links, happly⟩ (Template.extends_apply templates e)
  | timestamp =>
    have hstamped := stamp_fst e env j
    exact .success ⟨_, hstamped⟩ (hstamped ▸ { Entity.Extends.refl e with ts := fun _ => rfl })
  | validation =>
    rw [augment]
    cases validate kind e with
    | error cause => exact .failure cause
    | ok _ => exact .success rfl (.refl e)
  | extension o => exact absurd rfl (h o)

theorem appends_list (h : a.BuiltIn) (request : ListRequest) (kind : EntityKind) (before : List Entity)
    (env : Env) (j : Journal) : Appends kind before (a.list request kind before env j).1 := by
  cases a with
  | error message => exact .failure _
  | store s => exact s.appends_list kind before env j
  | remote r => exact r.appends_list request kind before env j
  | extension o => exact absurd rfl (h o)
  | _ => exact .nothing kind before

/-- **The aspects of the library fail cleanly and touch only what is their own.** One that fails leaves the
entity, or the reports so far, exactly as they were. After a success the entity differs in the part that is
the aspect's own; it is the same entity, and no link, no relation, no timestamp and no payload is gone. The
reports so far stay in front, and what is added is of the kind that is listed. -/
theorem fails_cleanly (h : a.BuiltIn) (kind : EntityKind) (env : Env) (j : Journal) :
    (∀ e left cause, (a.augment kind e env j).1 = .failure left cause → left = e) ∧
    (∀ e out, (a.augment kind e env j).1 = .success out → a.Touches env j e out ∧ out.id = e.id ∧
      (∀ name, (e.links.get? name).isSome → (out.links.get? name).isSome) ∧
      (∀ name, (e.related.get? name).isSome → (out.related.get? name).isSome) ∧
      (e.ts.isSome → out.ts.isSome) ∧ (e.data ≠ .null → out.data ≠ .null)) ∧
    (∀ request before left cause, (a.list request kind before env j).1 = .failure left cause → left = before) ∧
    ∀ request before after, (a.list request kind before env j).1 = .success after →
      ∃ found, after = before ++ found ∧ ∀ e ∈ found, e.id.kind = kind.id := by
  refine ⟨fun e left cause hfails => ?_, fun e out hsucceeds => ?_,
    fun request before left cause hfails => ?_, fun request before after hsucceeds => ?_⟩
  · have hhandles := handles_augment h kind e env j
    rw [hfails] at hhandles
    cases hhandles
    rfl
  · have hhandles := handles_augment h kind e env j
    rw [hsucceeds] at hhandles
    cases hhandles with
    | success htouches hextends =>
      exact ⟨htouches, hextends.id, hextends.links, hextends.related, hextends.ts, hextends.data⟩
  · have happends := appends_list h request kind before env j
    rw [hfails] at happends
    cases happends
    rfl
  · have happends := appends_list h request kind before env j
    rw [hsucceeds] at happends
    cases happends with
    | success hkind => exact ⟨_, rfl, hkind⟩

/-! ### A remote that answers with a stranger -/

def strangerAnswer : String := "\x7b\"id\":\"demo.page/1\"\x7d"

def stranger : Entity := .bare ⟨⟨"demo", "page"⟩, ["1"]⟩

/-- A store with a book, and remotes that know of the page only. -/
def strangerEnv : Env :=
  ⟨⟨Store.shelf Store.ownBook, fun _ _ => some ⟨200, strangerAnswer⟩, fun _ => ⟨0, 0, 0⟩⟩, .empty⟩

theorem reportOn_strangerAnswer (id : EntityId) (h : stranger.id ≠ id) :
    Remote.reportOn id strangerAnswer = .error (.remote (.otherEntity id stranger.id)) := by
  have hparse : Document.Doc.parse strangerAnswer = (.object [(.string "id", .string "demo.page/1")], true) := by
    cbv
  have hread : Remote.receive Entity.decode strangerAnswer = .ok stranger := by
    rw [Remote.receive, Document.Doc.decode, hparse]
    rfl
  rw [Remote.reportOn, hread]
  exact if_pos h

/-- The remote fails before it has done anything. The store keeps the report on the page. -/
theorem fails_cleanly_stranger :
    (∃ left cause, ((remote ⟨"http://a"⟩).augment Service.books Service.secondBook strangerEnv []).1 =
        .failure left cause ∧ left = Service.secondBook) ∧
      ∃ after, ((store ⟨"store", .yaml, false⟩).list (.all Service.books.id) Service.books [stranger]
          strangerEnv []).1 = .success after ∧
        ∃ found, after = [stranger] ++ found ∧ ∀ e ∈ found, e.id.kind = Service.books.id := by
  have hremote : BuiltIn (remote ⟨"http://a"⟩) := nofun
  have hstore : BuiltIn (store ⟨"store", .yaml, false⟩) := nofun
  have hreply : strangerEnv.world.remote (Journal.posts []) ⟨(Remote.mk "http://a").url "get",
      .object [("id", Service.secondBook.id.encode)]⟩ = some ⟨200, strangerAnswer⟩ := rfl
  have hfails : ((remote ⟨"http://a"⟩).augment Service.books Service.secondBook strangerEnv []).1 =
      .failure Service.secondBook (.remote (.otherEntity Service.secondBook.id stranger.id)) := by
    rw [augment_of_source (.remote _), Run.bind_apply, answer, Remote.answer_of_reply hreply rfl,
      reportOn_strangerAnswer _ (by decide)]
    rfl
  have hsearch : (Store.search ⟨"store", .yaml, false⟩ Service.books strangerEnv []).1 =
      .ok [⟨⟨"demo", "book"⟩, ["2"]⟩] := by
    rw [Store.search_of_paths (List.cons_ne_nil _ _), Store.walk_eq_visit]
    rfl
  have hlists := Store.list_of_search hsearch [stranger]
  exact ⟨⟨_, _, hfails, (fails_cleanly hremote _ _ _).1 _ _ _ hfails⟩,
    _, hlists, (fails_cleanly hstore _ _ _).2.2.2 (.all Service.books.id) _ _ hlists⟩

end Aspect

/-! ## Chains -/

namespace AspectChain

variable {kind : EntityKind} {request : ListRequest} {env : Env} {aspects : List Aspect} {j j' : Journal}

theorem extends_of_pass (h : ∀ a ∈ aspects, a.BuiltIn) (e : Entity) (j : Journal) :
    e.Extends (pass kind aspects e env j).1.left := by
  induction aspects generalizing e j with
  | nil => exact .refl e
  | cons a rest ih =>
    rw [List.forall_mem_cons] at h
    have hhandles := Aspect.handles_augment h.1 kind e env j
    rw [pass, Run.bind_apply]
    generalize a.augment kind e env j = result at hhandles ⊢
    obtain ⟨attempt, j₁⟩ := result
    cases hhandles with
    | failure cause => exact .refl e
    | success _ hextends => exact hextends.trans (ih h.2 _ j₁)

theorem extends_of_augment {c : AspectChain} (h : ∀ a ∈ c.aspects, a.BuiltIn) (e : Entity) (j : Journal) :
    e.Extends (c.augment e env j).1.left :=
  extends_of_pass h e j

theorem appended_of_gathered {before after : List Entity} (h : ∀ a ∈ aspects, a.BuiltIn)
    (hgathered : Run.Steps (listing kind request) env aspects before j after j') :
    ∃ found, after = before ++ found ∧ ∀ e ∈ found, e.id.kind = kind.id := by
  induction hgathered with
  | none => exact ⟨[], (List.append_nil _).symm, by simp⟩
  | @next a rest before mid after j j₁ j₂ hlist _ ih =>
    rw [List.forall_mem_cons] at h
    have happends := Aspect.appends_list h.1 request kind before env j
    rw [← listing, hlist] at happends
    cases happends with
    | success hkind =>
      obtain ⟨found, rfl, hfound⟩ := ih h.2
      exact ⟨_, List.append_assoc .., List.forall_mem_append.2 ⟨hkind, hfound⟩⟩

end AspectChain

end EntityCatalog
