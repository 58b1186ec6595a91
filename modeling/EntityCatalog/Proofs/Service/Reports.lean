import EntityCatalog.Proofs.Codec
import EntityCatalog.Proofs.Document.Payload
import EntityCatalog.Proofs.Service.Traffic

/-!
# Listings of stores and remotes

A kind whose connectors all are stores or remotes is listed without repetitions, and every identifier of a
listing can be read back: a remote's has been read, and one from a store has passed that store, which lets
through only plain names. Of what a remote lists, entities of other kinds count for nothing. Two worlds
that differ in such entities only have the same listings (`Service.listed_once`).
-/

namespace EntityCatalog

open Document
open Run (Steps)

/-! ## Kinds of stores and remotes -/

/-- All connectors of a kind are stores or remotes. -/
def EntityKind.StoresAndRemotes (kind : EntityKind) : Prop :=
  ∀ x ∈ kind.connectors, (∃ root format, x = .store root format) ∨ ∃ endpoint, x = .remote endpoint

theorem EntityKind.StoresAndRemotes.builtIn {kind : EntityKind} (h : kind.StoresAndRemotes) :
    kind.BuiltIn := by
  intro name hname
  rcases h _ hname with ⟨root, format, hx⟩ | ⟨endpoint, hx⟩ <;> cases hx

theorem AspectChain.aspect_of_storesAndRemotes {cx : BuildContext} {kind : EntityKind} {c : AspectChain}
    (hkind : kind.StoresAndRemotes) (hc : BuiltFor cx kind c) {a : Aspect} (ha : a ∈ c.aspects) :
    (∃ s, a = .store s) ∨ (∃ r, a = .remote r) ∨
      (∃ templates, a = .links templates) ∨ a = .timestamp ∨ a = .validation := by
  rcases hc.declared_or_closing ha with ⟨x, hx, s, s', hbuilt⟩ | hclosing
  · rcases hkind x hx with ⟨root, format, rfl⟩ | ⟨endpoint, rfl⟩
    · cases hbuilt
      exact .inl ⟨_, rfl⟩
    · cases hbuilt
      exact .inr (.inl ⟨_, rfl⟩)
  · exact .inr (.inr hclosing)

/-! ## What a remote lists -/

namespace Remote

variable {r : Remote} {env env' : Env} {j j' : Journal}

theorem post_congr {route : String} {body : Json.Value}
    (h : env.world.remote j.posts ⟨r.url route, body⟩ = env'.world.remote j.posts ⟨r.url route, body⟩) :
    r.post route body env j = r.post route body env' j := by
  rw [post, Run.bind_apply, Run.bind_apply, Run.post_apply, Run.post_apply, h]
  cases env'.world.remote j.posts ⟨r.url route, body⟩ with
  | none => rfl
  | some reply =>
    dsimp only
    split
    · rfl
    · split <;> rfl

theorem augment_congr {e : Entity}
    (h : env.world.remote j.posts ((Errand.entity e.id).post r.endpoint) =
      env'.world.remote j.posts ((Errand.entity e.id).post r.endpoint)) :
    r.augment e env j = r.augment e env' j := by
  rw [entity_post] at h
  rw [augment, Run.bind_apply, Run.bind_apply, post_congr h]
  obtain ⟨_ | _ | body, j₁⟩ := r.post "get" (.object [("id", e.id.encode)]) env' j <;> rfl

section list
variable {request : ListRequest} {kind : EntityKind} {before after : List Entity}

theorem list_congr
    (h : env.world.remote j.posts ((Errand.listing request).post r.endpoint) =
      env'.world.remote j.posts ((Errand.listing request).post r.endpoint)) :
    r.list request kind before env j = r.list request kind before env' j := by
  rw [listing_post] at h
  rw [list, Run.bind_apply, Run.bind_apply, post_congr h]
  obtain ⟨_ | _ | body, j₁⟩ := r.post "list" request.encode env' j <;> rfl

/-- A reply lists entities. -/
structure Lists (reply : Reply) (listed : List Entity) : Prop where
  status : Status.isSuccess reply.status = true
  body : Doc.decode ListResponse.decode reply.body = .ok ⟨listed⟩

theorem list_of_lists {reply : Reply} {listed : List Entity} (h : Lists reply listed)
    (hreply : env.world.remote j.posts ((Errand.listing request).post r.endpoint) = some reply) :
    r.list request kind before env j =
      (.success (before ++ listed.filter (·.id.kind == kind.id)),
        j ++ [.post ((Errand.listing request).post r.endpoint)]) := by
  have hfound : reply.status ≠ Status.notFound := by
    intro hstatus
    have hsuccess := h.status
    rw [hstatus] at hsuccess
    cases hsuccess
  have hpost : r.post "list" request.encode env j =
      (.ok (some reply.body), j ++ [.post ((Errand.listing request).post r.endpoint)]) := by
    rw [listing_post] at hreply ⊢
    rw [post, Run.bind_apply, Run.post_apply, hreply]
    dsimp only
    rw [if_neg hfound, if_pos h.status]
    rfl
  rw [list, Run.bind_apply, hpost]
  simp only [receive, h.body]
  rfl

theorem canonical_of_list (h : r.list request kind before env j = (.success after, j'))
    (hbefore : ∀ e ∈ before, e.id.Canonical) : ∀ e ∈ after, e.id.Canonical := by
  rw [list, Run.bind_apply] at h
  generalize r.post "list" request.encode env j = answer at h
  obtain ⟨_ | _ | body, j₁⟩ := answer
  · cases h
  · cases h
    exact hbefore
  · dsimp only at h
    cases hreceive : receive ListResponse.decode body with
    | error failure =>
      rw [hreceive] at h
      cases h
    | ok response =>
      rw [hreceive] at h
      cases h
      obtain ⟨d, hd⟩ := Doc.read_of_decode (mapError_eq_ok hreceive)
      intro e he
      rcases List.mem_append.1 he with he | he
      · exact hbefore e he
      · exact (ListResponse.canonical_of_decode hd e (List.mem_filter.1 he).1).id

end list

end Remote

/-! ## Reports and listed entities -/

namespace Run

variable {α ε σ : Type} {step : α → σ → Run (Attempt ε σ)} {env : Env} {I : σ → Prop} {l : List α}
  {s s' : σ} {j j' : Journal}

theorem Steps.reaches (h : Steps step env l s j s' j')
    (hkeep : ∀ a ∈ l, ∀ s mid j j₁, I s → step a s env j = (.success mid, j₁) → I mid) (hs : I s) :
    ∀ a ∈ l, ∃ s j mid j₁, I s ∧ step a s env j = (.success mid, j₁) := by
  induction h with
  | none => simp
  | next hstep _ ih =>
    rw [List.forall_mem_cons] at hkeep ⊢
    exact ⟨⟨_, _, _, _, hs, hstep⟩, ih hkeep.2 (hkeep.1 _ _ _ _ hs hstep)⟩

end Run

namespace AspectChain

variable {cx : BuildContext} {kind : EntityKind} {c : AspectChain} {request : ListRequest} {env : Env}
  {reports : List Entity} {e out : Entity} {j j' : Journal}

theorem canonical_of_gathered (hkind : kind.StoresAndRemotes) (hc : BuiltFor cx kind c)
    (h : Steps (listing c.kind request) env c.aspects [] j reports j') :
    ∀ e ∈ reports, e.id.Canonical ∨ ∃ s, .store s ∈ c.aspects := by
  by_cases hstore : ∃ s, .store s ∈ c.aspects
  · exact fun e _ => .inr hstore
  · refine fun e he => .inl (h.keeps (I := fun reports => ∀ e ∈ reports, e.id.Canonical) (fun a ha => ?_)
      (by simp) e he)
    intro before after j j' hlist hbefore
    rcases aspect_of_storesAndRemotes hkind hc ha with ⟨s, rfl⟩ | ⟨r, rfl⟩ | ⟨templates, rfl⟩ | rfl | rfl
    · exact absurd ⟨s, ha⟩ hstore
    · exact r.canonical_of_list hlist hbefore
    -- the closing aspects report nothing
    all_goals
      cases hlist
      exact hbefore

theorem id_of_augment (hbuiltIn : ∀ a ∈ c.aspects, a.BuiltIn)
    (h : c.augment e env j = (.success out, j')) : out.id = e.id :=
  ((Errand.runs_augmenting hbuiltIn c.kind env e.id).posts_of_steps (List.Subset.refl _)
    (augment_eq_success_iff.1 h) rfl).2

theorem plain_of_augment (hbuiltIn : ∀ a ∈ c.aspects, a.BuiltIn) {s : Store} (hs : .store s ∈ c.aspects)
    (h : c.augment e env j = (.success out, j')) : ∀ part ∈ e.id.parts, Store.Plain part := by
  have hruns := Errand.runs_augmenting hbuiltIn c.kind env e.id
  have hkeep : ∀ a ∈ c.aspects, ∀ x mid j j₁, x.id = e.id →
      augmenting c.kind a x env j = (.success mid, j₁) → mid.id = e.id := by
    intro a ha x mid j j₁ hx hstep
    have hleft := hruns.keeps a ha x j hx
    rwa [hstep] at hleft
  obtain ⟨x, j, mid, j₁, hx, hstep⟩ := (augment_eq_success_iff.1 h).reaches hkeep rfl _ hs
  rw [augmenting, Aspect.augment, Store.augment_eq] at hstep
  rw [← hx]
  cases hfilled : s.filled env.world.files x with
  | error failure =>
    rw [hfilled] at hstep
    cases hstep
  | ok filled => exact (Store.filled_eq_ok hfilled).1

end AspectChain

namespace Service

variable {cx : BuildContext} {kind : EntityKind} {c : AspectChain} {env : Env} {j j' : Journal}

theorem sublist_of_augmentAll (hbuiltIn : ∀ a ∈ c.aspects, a.BuiltIn) {filter : SortedMap String}
    {found es : List Entity} (h : (augmentAll c filter found env j).1 = .ok es) :
    (es.map (·.id)).Sublist (found.map (·.id)) := by
  induction found generalizing j es with
  | nil =>
    cases h
    exact .slnil
  | cons e found ih =>
    rw [augmentAll] at h
    obtain ⟨out, j₁, haugment, h⟩ := Run.bind_success h fun _ _ _ h => by cases h
    obtain ⟨kept, j₂, hrest, h⟩ := Run.bind_ok h fun _ _ h => by cases h
    cases h
    have hkept := ih (congrArg (·.1) hrest)
    split
    · rw [List.map_cons, List.map_cons, AspectChain.id_of_augment hbuiltIn haugment]
      exact hkept.cons_cons _
    · exact hkept.cons _

theorem canonical_of_listed (hid : kind.id.Canonical) (hkind : kind.StoresAndRemotes)
    (hc : AspectChain.BuiltFor cx kind c) {request : ListRequest} {reports es : List Entity}
    {j₁ : Journal} (hgathered : Steps (AspectChain.listing c.kind request) env c.aspects [] j reports j₁)
    (h : (augmentAll c request.filter (AspectChain.group reports) env j₁).1 = .ok es) :
    ∀ e ∈ es, e.id.Canonical := by
  intro e he
  have hbuiltIn := AspectChain.builtIn_of_build hc hkind.builtIn
  obtain ⟨first, hfirst, j₂, haugment, -⟩ := mem_augmentAll h he
  have hcomplete := AspectChain.complete_of_augment hc haugment
  have haugment : c.augment first env j₂ = (.success e, (c.augment first env j₂).2) :=
    Prod.ext haugment rfl
  have hsame := AspectChain.id_of_augment hbuiltIn haugment
  have hreported : first.id ∈ reports.map (·.id) :=
    (AspectChain.grouped_group reports).mem_ids.1 (List.mem_map_of_mem hfirst)
  obtain ⟨report, hreport, hidReport⟩ := List.mem_map.1 hreported
  rw [hsame, ← hidReport]
  rcases AspectChain.canonical_of_gathered hkind hc hgathered report hreport with hcanonical | ⟨s, hs⟩
  · exact hcanonical
  · have hplain := AspectChain.plain_of_augment hbuiltIn hs haugment
    have hofKind : first.id.kind = kind.id := hsame ▸ hcomplete.ofKind
    rw [hidReport]
    refine ⟨hofKind ▸ hid, fun p hp => ?_⟩
    exact (hplain p (by simp [EntityId.parts, hp])).toIsSegment

end Service

/-! ## Entities of other kinds -/

/-- Two replies list the same entities of a kind, and any others besides. -/
inductive Remote.ListAlike (kind : KindId) : Option Reply → Option Reply → Prop
  | intro {reply reply' : Reply} {listed listed' : List Entity} (h : Lists reply listed)
      (h' : Lists reply' listed')
      (hsame : listed.filter (·.id.kind == kind) = listed'.filter (·.id.kind == kind)) :
      ListAlike kind (some reply) (some reply')

/-- Two worlds differ at most in the entities of other kinds that remotes list. -/
structure World.SameFor (kind : KindId) (w w' : World) : Prop where
  files : w.files = w'.files
  clock : w.clock = w'.clock
  replies : ∀ sent p, w.remote sent p = w'.remote sent p ∨
    (∃ endpoint, p.url = endpoint ++ "/list") ∧
      Remote.ListAlike kind (w.remote sent p) (w'.remote sent p)

theorem Errand.entity_url_ne (id : EntityId) (endpoint endpoint' : String) :
    ((entity id).post endpoint).url ≠ endpoint' ++ "/list" := by
  intro hurl
  have hlast := congrArg (fun url => url.toList.reverse.take 2) hurl
  simp [post] at hlast

section sameFor
variable {kind : EntityKind} {env env' : Env} {c : AspectChain}

theorem Remote.follows_of_sameFor (h : World.SameFor kind.id env.world env'.world) (r : Remote) :
    Aspect.FollowsFor kind Aspect.never env env' (.remote r) (.remote r) := by
  refine ⟨rfl, fun e j => .inl (augment_congr ?_), fun request before j => ?_⟩
  · rcases h.replies j.posts ((Errand.entity e.id).post r.endpoint) with hsame | ⟨⟨_, hurl⟩, -⟩
    · exact hsame
    · exact absurd hurl (Errand.entity_url_ne _ _ _)
  · rcases h.replies j.posts ((Errand.listing request).post r.endpoint) with hsame | ⟨-, halike⟩
    · exact list_congr hsame
    · generalize hreply : env.world.remote j.posts _ = reply? at halike
      generalize hreply' : env'.world.remote j.posts _ = reply'? at halike
      obtain ⟨hlists, hlists', hsame⟩ := halike
      rw [Aspect.list, list_of_lists hlists hreply, list_of_lists hlists' hreply', hsame]

theorem Aspect.follows_of_sameFor (h : World.SameFor kind.id env.world env'.world) {a : Aspect}
    (ha : a.BuiltIn) : a.FollowsFor kind never env env' a := by
  cases a with
  | store s =>
    exact ⟨rfl, fun e j => .inl (s.filesOnly_augment e env env' j h.files),
      fun _ before j => s.filesOnly_list kind before env env' j h.files⟩
  | remote r => exact r.follows_of_sameFor h
  | timestamp =>
    refine ⟨rfl, fun e j => .inl ?_, fun _ _ _ => rfl⟩
    rw [augment, Run.bind_apply, Run.bind_apply, stamp]
    cases e.ts with
    | some t => rfl
    | none =>
      dsimp only
      rw [Run.bind_apply, Run.bind_apply, Run.now_apply, Run.now_apply, h.clock]
      rfl
  | extension o => exact absurd rfl (ha o)
  | _ => exact ⟨rfl, fun _ _ => .inl rfl, fun _ _ _ => rfl⟩

theorem Service.list_of_sameFor (h : World.SameFor c.kind.id env.world env'.world)
    (hbuiltIn : ∀ a ∈ c.aspects, a.BuiltIn) (request : ListRequest) (j : Journal) :
    list request (.kind c) env j = list request (.kind c) env' j := by
  have hfollows : List.Forall₂ (Aspect.FollowsFor c.kind Aspect.never env env') c.aspects c.aspects :=
    List.forall₂_same.2 fun a ha => Aspect.follows_of_sameFor h (hbuiltIn a ha)
  exact (list_follows hfollows request j).resolve_right
    fun ⟨_, _, _, hf⟩ => AspectChain.not_excused_never hf

end sameFor

/-! ## Listings -/

namespace Service

/-- **A listing names every entity once, in the order of the first reports, and by an identifier that can
be read back.** Let all connectors of a kind be stores and remotes, in any mixture. What a listing names is
part of what is discovered, is of the kind and has all its segments. Entities of other kinds that remotes
list make no difference to it, not to a failure either. -/
theorem listed_once {text : String} {cx : BuildContext} {kind : EntityKind} {c : AspectChain}
    (hid : KindId.parse text = .ok kind.id) (hkind : kind.StoresAndRemotes)
    (hc : AspectChain.BuiltFor cx kind c) (request : ListRequest) (env : Env) (j : Journal) :
    (∀ es, (list request (.kind c) env j).1 = .ok es → ∃ reports found j₁,
      Steps (AspectChain.listing kind request) env c.aspects [] j reports j₁ ∧
      c.discover request env j = (.ok found, j₁) ∧
      found.map (·.id) = (reports.map (·.id)).eraseDups ∧
      (es.map (·.id)).Sublist (found.map (·.id)) ∧ (es.map (·.id)).Nodup ∧
      ∀ e ∈ es, e.id.kind = kind.id ∧ e.id.paths.length = kind.paths.length ∧
        EntityId.parse e.id.text = .ok e.id) ∧
    ∀ env', World.SameFor kind.id env.world env'.world →
      list request (.kind c) env' j = list request (.kind c) env j := by
  obtain rfl := hc.aspects_eq.1
  have hbuiltIn := AspectChain.builtIn_of_build hc hkind.builtIn
  refine ⟨fun es h => ?_, fun env' hsame => ?_⟩
  · obtain ⟨found, j₁, hdiscover, haugment⟩ := listEntities_eq_ok h
    obtain ⟨reports, hgathered, rfl⟩ := AspectChain.discover_eq_ok_iff.1 hdiscover
    have hgrouped := AspectChain.grouped_group reports
    have hsublist := sublist_of_augmentAll hbuiltIn haugment
    refine ⟨reports, _, j₁, hgathered, hdiscover, hgrouped.ids, hsublist,
      hgrouped.distinct.sublist hsublist, fun e he => ?_⟩
    have hcomplete := (complete_of_listEntities hc h e he).1
    have hcanonical := canonical_of_listed (KindId.canonical_of_parse hid).2 hkind hc hgathered haugment e he
    exact ⟨hcomplete.ofKind, hcomplete.segments, EntityId.parse_text hcanonical⟩
  · exact (list_of_sameFor hsame hbuiltIn request j).symm

/-! ### Books in a store and in a catalog -/

/-- Books in a store and behind an endpoint. -/
def sharedBooks : EntityKind :=
  { Store.booksOf "demo" with connectors := [.store "store" .yaml, .remote "http://a"] }

def sharedChain : AspectChain :=
  ⟨sharedBooks, [.store ⟨"store", .yaml, false⟩, .remote ⟨"http://a"⟩, .links [], .timestamp, .validation]⟩

/-- The book of the store, and another one. -/
def plainCatalog : String :=
  "\x7b\"entities\":[\x7b\"id\":\"demo.book/2\"\x7d,\x7b\"id\":\"demo.book/3\"\x7d]\x7d"

/-- The same with a page between them. -/
def mixedCatalog : String :=
  "\x7b\"entities\":[\x7b\"id\":\"demo.book/2\"\x7d,\x7b\"id\":\"demo.page/1\"\x7d,\x7b\"id\":\"demo.book/3\"\x7d]\x7d"

def catalogDoc (ids : List String) : Doc :=
  .object [(.string "entities", .array (ids.map fun id => .object [(.string "id", .string id)]))]

/-- A store with a book, and a remote that lists a catalog and has nothing else. -/
def catalogEnv (body : String) : Env :=
  ⟨⟨Store.shelf Store.ownBook,
    fun _ p => if p.url = "http://a" ++ "/list" then some ⟨200, body⟩ else some ⟨404, ""⟩,
    fun _ => ⟨0, 0, 0⟩⟩, .empty⟩

theorem catalogs_alike :
    World.SameFor sharedBooks.id (catalogEnv mixedCatalog).world (catalogEnv plainCatalog).world := by
  have hmixed : Doc.parse mixedCatalog =
      (catalogDoc ["demo.book/2", "demo.page/1", "demo.book/3"], true) := by cbv
  have hplain : Doc.parse plainCatalog = (catalogDoc ["demo.book/2", "demo.book/3"], true) := by cbv
  have hlists : Remote.Lists ⟨200, mixedCatalog⟩ [.bare ⟨⟨"demo", "book"⟩, ["2"]⟩,
      .bare ⟨⟨"demo", "page"⟩, ["1"]⟩, .bare ⟨⟨"demo", "book"⟩, ["3"]⟩] :=
    ⟨rfl, by rw [Doc.decode, hmixed]; rfl⟩
  have hlists' : Remote.Lists ⟨200, plainCatalog⟩ [.bare ⟨⟨"demo", "book"⟩, ["2"]⟩,
      .bare ⟨⟨"demo", "book"⟩, ["3"]⟩] := ⟨rfl, by rw [Doc.decode, hplain]; rfl⟩
  refine ⟨rfl, rfl, fun sent p => ?_⟩
  by_cases hurl : p.url = "http://a" ++ "/list"
  · refine .inr ⟨⟨"http://a", hurl⟩, ?_⟩
    simp only [catalogEnv, if_pos hurl]
    exact .intro hlists hlists' rfl
  · simp only [catalogEnv, if_neg hurl]
    exact .inl trivial

/-- The page is left out, and the book that both report is listed once. -/
theorem listed_once_shared :
    KindId.parse "demo.book" = .ok sharedBooks.id ∧ sharedBooks.StoresAndRemotes ∧
      AspectChain.BuiltFor bookContext sharedBooks sharedChain ∧
      (∃ es, (list (.all sharedBooks.id) (.kind sharedChain) (catalogEnv mixedCatalog) []).1 = .ok es ∧
        es.map (·.id) = [⟨⟨"demo", "book"⟩, ["2"]⟩, ⟨⟨"demo", "book"⟩, ["3"]⟩] ∧
        ∀ e ∈ es, EntityId.parse e.id.text = .ok e.id) ∧
      list (.all sharedBooks.id) (.kind sharedChain) (catalogEnv plainCatalog) [] =
        list (.all sharedBooks.id) (.kind sharedChain) (catalogEnv mixedCatalog) [] := by
  have hparse : KindId.parse "demo.book" = .ok sharedBooks.id := rfl
  have hkind : sharedBooks.StoresAndRemotes := by
    simp [EntityKind.StoresAndRemotes, sharedBooks]
  have hbuild : AspectChain.BuiltFor bookContext sharedBooks sharedChain := ⟨.start, _, rfl⟩
  have hlist : (list (.all sharedBooks.id) (.kind sharedChain) (catalogEnv mixedCatalog) []).1.toOption.map
      (fun es => es.map (·.id)) = some [⟨⟨"demo", "book"⟩, ["2"]⟩, ⟨⟨"demo", "book"⟩, ["3"]⟩] := by
    decide +kernel
  obtain ⟨hlisted, hsame⟩ := listed_once hparse hkind hbuild (.all sharedBooks.id)
    (catalogEnv mixedCatalog) []
  obtain ⟨es, hes, hids⟩ := Option.map_eq_some_iff.1 hlist
  obtain ⟨reports, found, j₁, -, -, -, -, -, hread⟩ := hlisted es (toOption_eq_some hes)
  exact ⟨hparse, hkind, hbuild, ⟨es, toOption_eq_some hes, hids, fun e he => (hread e he).2.2⟩,
    hsame _ catalogs_alike⟩

end Service

end EntityCatalog
