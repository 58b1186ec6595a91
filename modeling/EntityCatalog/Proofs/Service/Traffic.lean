import EntityCatalog.Proofs.Aspect.Endpoint
import EntityCatalog.Proofs.Aspect.Traffic
import EntityCatalog.Proofs.Service.Retrieval
import EntityCatalog.Proofs.Service.Stopping

/-!
# The traffic of requests

What the service of a kind sends to remotes, if the kind has no extensions, can be read off its declaration.
An errand runs along the chain and sends one request for each remote, in order. A request for an entity is
one errand. A listing is one, and then one more for each entity that is found. If an aspect fails, what it
was asked last is the end of it (`Service.traffic_exact`).
-/

namespace EntityCatalog

open Run (Steps StopsAt)

/-! ## Declarations -/

/-- All connectors of a kind are those of the library. -/
def EntityKind.BuiltIn (kind : EntityKind) : Prop := ∀ name, .extension name ∉ kind.connectors

/-- The endpoint that a connector declares, as it is asked. -/
def Connector.endpoint? : Connector → Option String
  | remote endpoint => some (normalizeEndpoint endpoint)
  | _ => none

/-- The endpoints that a kind declares. -/
def EntityKind.endpoints (kind : EntityKind) : List String := kind.connectors.filterMap Connector.endpoint?

theorem BuildContext.builtIn_of_yields {cx : BuildContext} {declared : Connector} {a : Aspect}
    (hdeclared : ∀ name, declared ≠ .extension name) (h : cx.Yields declared a) : a.BuiltIn := by
  obtain ⟨s, s', h⟩ := h
  cases h with
  | extension hx => exact absurd rfl (hdeclared _)
  | _ => simp [Aspect.BuiltIn]

theorem BuildContext.sends_of_yields {cx : BuildContext} {declared : Connector} {a : Aspect}
    (h : cx.Yields declared a) (errand : Errand) :
    a.sends errand = (declared.endpoint?.map errand.post).toList := by
  obtain ⟨s, s', h⟩ := h
  cases h with
  | remote hr =>
    rw [Connector.endpoint?, ← (Endpoint.ofEndpoint_ok hr).1]
    rfl
  | _ => rfl

namespace AspectChain

variable {cx : BuildContext} {k : EntityKind} {c : AspectChain}

theorem builtIn_of_build (hc : BuiltFor cx k c) (hk : k.BuiltIn) : ∀ a ∈ c.aspects, a.BuiltIn := by
  intro a ha
  rcases hc.declared_or_closing ha with ⟨x, hx, hbuilt⟩ | ⟨templates, rfl⟩ | rfl | rfl
  · exact BuildContext.builtIn_of_yields (fun name hname => hk name (hname ▸ hx)) hbuilt
  all_goals simp [Aspect.BuiltIn]

theorem sends_of_build (hc : BuiltFor cx k c) (errand : Errand) :
    c.aspects.flatMap (Aspect.sends errand) = k.endpoints.map errand.post := by
  obtain ⟨-, declared, templates, hdeclared, -, haspects⟩ := hc.aspects_eq
  have hsent := flatMap_of_forall₂ hdeclared.flip
    fun a x hbuilt => BuildContext.sends_of_yields hbuilt errand
  have hclosing : [.links templates, .timestamp, .validation].flatMap (Aspect.sends errand) = [] := rfl
  rw [haspects, List.flatMap_append, hclosing, List.append_nil, hsent, EntityKind.endpoints,
    List.map_filterMap, List.filterMap_eq_flatMap_toList]

end AspectChain

/-! ## Errands along a chain -/

section errands
variable {α ε σ : Type} {step : α → σ → Run (Attempt ε σ)} {env : Env} {sends : α → List Post}
  {I : σ → Prop} {l : List α} {s s' : σ} {j j' : Journal}

/-- If each step that succeeds sends its part and keeps what the others rely on, a run sends all parts. -/
theorem Run.Steps.posts (hstep : ∀ a ∈ l, ∀ s mid j j₁, I s → step a s env j = (.success mid, j₁) →
      j₁.posts = j.posts ++ sends a ∧ I mid)
    (h : Steps step env l s j s' j') (hs : I s) : j'.posts = j.posts ++ l.flatMap sends ∧ I s' := by
  induction h with
  | none => exact ⟨(List.append_nil _).symm, hs⟩
  | @next a rest s mid s' j j₁ j' hfirst hrest ih =>
    rw [List.forall_mem_cons] at hstep
    obtain ⟨hposts, hmid⟩ := hstep.1 s mid j j₁ hs hfirst
    obtain ⟨hposts', hs'⟩ := ih hstep.2 hmid
    exact ⟨by rw [hposts', hposts, List.flatMap_cons, List.append_assoc], hs'⟩

end errands

namespace Errand

variable {σ : Type} {step : Aspect → σ → Run (Attempt AspectError σ)} {env : Env} {errand : Errand}
  {I : σ → Prop} {aspects : List Aspect} {s s' left : σ} {j j' : Journal} {failed : Aspect}
  {cause : AspectError}

/-- Each aspect sends its part of an errand, whether it fails or not, and keeps what the others rely on. -/
structure Runs (step : Aspect → σ → Run (Attempt AspectError σ)) (env : Env) (errand : Errand)
    (I : σ → Prop) (aspects : List Aspect) : Prop where
  posts : ∀ a ∈ aspects, ∀ s j, I s → (step a s env j).2.posts = j.posts ++ a.sends errand
  keeps : ∀ a ∈ aspects, ∀ s j, I s → I (step a s env j).1.left

/-- An errand ends at an aspect that fails: those in front of it succeed, and what is sent is their part and
its own. -/
def CutAt (step : Aspect → σ → Run (Attempt AspectError σ)) (env : Env) (errand : Errand)
    (aspects : List Aspect) (s : σ) (j : Journal) (failed : Aspect) (cause : AspectError) (j' : Journal) :
    Prop :=
  ∃ front back mid j₁ left, aspects = front ++ failed :: back ∧ Steps step env front s j mid j₁ ∧
    step failed mid env j₁ = (.failure left cause, j') ∧
    j'.posts = j.posts ++ (front ++ [failed]).flatMap (Aspect.sends errand)

theorem Runs.posts_of_steps (h : Runs step env errand I aspects) {front : List Aspect}
    (hfront : front ⊆ aspects) (hsteps : Steps step env front s j s' j') (hs : I s) :
    j'.posts = j.posts ++ front.flatMap (Aspect.sends errand) ∧ I s' := by
  refine hsteps.posts (fun a ha s mid j j₁ hs hstep => ?_) hs
  have hposts := h.posts a (hfront ha) s j hs
  have hkeeps := h.keeps a (hfront ha) s j hs
  rw [hstep] at hposts hkeeps
  exact ⟨hposts, hkeeps⟩

theorem Runs.cutAt (h : Runs step env errand I aspects) (hs : I s)
    (hstops : StopsAt step env aspects s j failed left cause j') :
    CutAt step env errand aspects s j failed cause j' := by
  obtain ⟨front, back, mid, j₁, haspects, hsteps, hfails⟩ := hstops
  have hfront : front ⊆ aspects := haspects ▸ List.subset_append_left front (failed :: back)
  have hfailed : failed ∈ aspects := haspects ▸ List.mem_append_right front List.mem_cons_self
  obtain ⟨hposts, hmid⟩ := h.posts_of_steps hfront hsteps hs
  have hlast := h.posts failed hfailed mid j₁ hmid
  rw [hfails] at hlast
  refine ⟨front, back, mid, j₁, left, haspects, hsteps, hfails, ?_⟩
  rw [hlast, hposts, List.flatMap_append, List.flatMap_singleton, List.append_assoc]

open AspectChain (augmenting)

theorem runs_augmenting (h : ∀ a ∈ aspects, a.BuiltIn) (kind : EntityKind) (env : Env) (id : EntityId) :
    Runs (augmenting kind) env (.entity id) (fun e => e.id = id) aspects := by
  constructor
  · rintro a ha e j rfl
    exact Aspect.posts_augment (h a ha) kind e env j
  · rintro a ha e j rfl
    exact Aspect.id_augment (h a ha) kind e env j

theorem runs_listing (h : ∀ a ∈ aspects, a.BuiltIn) (kind : EntityKind) (env : Env) (request : ListRequest) :
    Runs (AspectChain.listing kind request) env (.listing request) (fun _ => True) aspects :=
  ⟨fun a ha before j _ => Aspect.posts_list (h a ha) request kind before env j, fun _ _ _ _ _ => trivial⟩

end Errand

namespace AspectChain

variable {cx : BuildContext} {k : EntityKind} {c : AspectChain} {env : Env} {e out : Entity}
  {request : ListRequest} {f : ServiceError} {j j' : Journal}

theorem posts_of_augment (hc : BuiltFor cx k c) (hk : k.BuiltIn)
    (h : c.augment e env j = (.success out, j')) :
    j'.posts = j.posts ++ k.endpoints.map (Errand.entity e.id).post := by
  have hruns := Errand.runs_augmenting (builtIn_of_build hc hk) c.kind env e.id
  obtain ⟨hposts, -⟩ := hruns.posts_of_steps (List.Subset.refl _) (augment_eq_success_iff.1 h) rfl
  rw [hposts, sends_of_build hc]

theorem cutAt_of_augment (hc : BuiltFor cx k c) (hk : k.BuiltIn)
    (h : c.augment e env j = (.failure out f, j')) : ∃ failed cause, f = failure k failed cause ∧
      Errand.CutAt (augmenting k) env (.entity e.id) c.aspects e j failed cause j' := by
  obtain rfl := (hc.aspects_eq).1
  obtain ⟨failed, cause, hstops, rfl⟩ := augment_eq_failure_iff.1 h
  have hruns := Errand.runs_augmenting (builtIn_of_build hc hk) c.kind env e.id
  exact ⟨failed, cause, rfl, hruns.cutAt rfl hstops⟩

theorem posts_of_discover (hc : BuiltFor cx k c) (hk : k.BuiltIn) {found : List Entity}
    (h : c.discover request env j = (.ok found, j')) :
    j'.posts = j.posts ++ k.endpoints.map (Errand.listing request).post := by
  obtain ⟨reports, hsteps, -⟩ := discover_eq_ok_iff.1 h
  have hruns := Errand.runs_listing (builtIn_of_build hc hk) c.kind env request
  obtain ⟨hposts, -⟩ := hruns.posts_of_steps (List.Subset.refl _) hsteps trivial
  rw [hposts, sends_of_build hc]

theorem cutAt_of_discover (hc : BuiltFor cx k c) (hk : k.BuiltIn)
    (h : c.discover request env j = (.error f, j')) : ∃ failed cause, f = failure k failed cause ∧
      Errand.CutAt (listing k request) env (.listing request) c.aspects [] j failed cause j' := by
  obtain rfl := (hc.aspects_eq).1
  obtain ⟨failed, left, cause, hstops, rfl⟩ := discover_eq_error_iff.1 h
  have hruns := Errand.runs_listing (builtIn_of_build hc hk) c.kind env request
  exact ⟨failed, cause, rfl, hruns.cutAt trivial hstops⟩

end AspectChain

/-! ## Requests -/

namespace Service
open AspectChain

variable {cx : BuildContext} {k : EntityKind} {c : AspectChain} {env : Env} {found : List Entity}
  {request : ListRequest} {f : ServiceError} {j j' : Journal}

theorem augment_of_passing {e : Entity} {fault : Option ServiceError}
    (h : passing c e () env j = (⟨(), fault⟩, j')) : ∃ left, c.augment e env j = (⟨left, fault⟩, j') := by
  rw [passing, Run.bind_apply] at h
  cases haugment : c.augment e env j with
  | mk attempt j₁ =>
    rw [haugment] at h
    cases h
    exact ⟨attempt.left, rfl⟩

theorem steps_of_augmentAll {filter : SortedMap String} {es : List Entity}
    (h : augmentAll c filter found env j = (.ok es, j')) : Steps (passing c) env found () j () j' := by
  induction found generalizing es j with
  | nil =>
    cases h
    exact .none
  | cons e rest ih =>
    cases haugment : c.augment e env j with
    | mk attempt j₁ =>
      obtain ⟨out, _ | own⟩ := attempt
      · have hstep : passing c e () env j = (.success (), j₁) := by
          rw [passing, Run.bind_apply, haugment]
          rfl
        rw [augmentAll_of_success haugment] at h
        cases hrest : augmentAll c filter rest env j₁ with
        | mk answer j₂ =>
          rw [hrest] at h
          obtain own | kept := answer
          · cases h
          · cases h
            exact .next hstep (ih hrest)
      · rw [augmentAll_of_failure haugment] at h
        cases h

theorem posts_of_passing (hc : AspectChain.BuiltFor cx k c) (hk : k.BuiltIn)
    (h : Steps (passing c) env found () j () j') :
    j'.posts = j.posts ++ found.flatMap fun e => k.endpoints.map (Errand.entity e.id).post := by
  refine (h.posts (I := fun _ => True) (fun e _ _ _ j j₁ _ hstep => ⟨?_, trivial⟩) trivial).1
  obtain ⟨out, haugment⟩ := augment_of_passing hstep
  exact posts_of_augment hc hk haugment

/-- What a request for an entity comes to, and what is sent for it. -/
inductive GetTraffic (c : AspectChain) (env : Env) (iri : String) (j : Journal) :
    Except ServiceError Thing × Journal → Prop
  | refused {cause : InvalidRequest} : GetTraffic c env iri j (.error (.invalidRequest cause), j)
  | answered {id : EntityId} {t : Thing} {j' : Journal} (hid : id.text = iri)
      (hposts : j'.posts = j.posts ++ c.kind.endpoints.map (Errand.entity id).post) :
      GetTraffic c env iri j (.ok t, j')
  | cut {id : EntityId} {failed : Aspect} {cause : AspectError} {j' : Journal} (hid : id.text = iri)
      (hcut : Errand.CutAt (augmenting c.kind) env (.entity id) c.aspects (.bare id) j failed cause j') :
      GetTraffic c env iri j (.error (failure c.kind failed cause), j')

/-- What a listing comes to, and what is sent for it: for the listing itself, then for one entity after
another. -/
inductive ListTraffic (c : AspectChain) (env : Env) (request : ListRequest) (j : Journal) :
    Except ServiceError (List Entity) × Journal → Prop
  | refused {cause : InvalidRequest} : ListTraffic c env request j (.error (.invalidRequest cause), j)
  | undiscovered {failed : Aspect} {cause : AspectError} {j' : Journal}
      (hcut : Errand.CutAt (listing c.kind request) env (.listing request) c.aspects [] j failed cause j') :
      ListTraffic c env request j (.error (failure c.kind failed cause), j')
  | answered {found es : List Entity} {j₁ j' : Journal} (hfound : c.discover request env j = (.ok found, j₁))
      (hposts : j₁.posts = j.posts ++ c.kind.endpoints.map (Errand.listing request).post)
      (hposts' : j'.posts = j₁.posts ++
        found.flatMap fun e => c.kind.endpoints.map (Errand.entity e.id).post) :
      ListTraffic c env request j (.ok es, j')
  | cut {passed rest : List Entity} {e : Entity} {j₁ j₂ : Journal} {failed : Aspect} {cause : AspectError}
      {j' : Journal} (hfound : c.discover request env j = (.ok (passed ++ e :: rest), j₁))
      (hposts : j₁.posts = j.posts ++ c.kind.endpoints.map (Errand.listing request).post)
      (hpassed : Steps (passing c) env passed () j₁ () j₂)
      (hposts' : j₂.posts = j₁.posts ++
        passed.flatMap fun e => c.kind.endpoints.map (Errand.entity e.id).post)
      (hcut : Errand.CutAt (augmenting c.kind) env (.entity e.id) c.aspects e j₂ failed cause j') :
      ListTraffic c env request j (.error (failure c.kind failed cause), j')

theorem get_traffic (hc : AspectChain.BuiltFor cx c.kind c) (hk : c.kind.BuiltIn) (iri : String) :
    GetTraffic c env iri j (get iri (.kind c) env j) := by
  cases hid : entityId c.kind iri with
  | error own =>
    obtain ⟨cause, rfl⟩ : ∃ cause, own = .invalidRequest cause := by
      unfold entityId at hid
      split at hid
      · exact ⟨_, (Except.error.inj hid).symm⟩
      · split at hid
        · cases hid
        · exact ⟨_, (Except.error.inj hid).symm⟩
    rw [get_refused hid]
    exact .refused
  | ok id =>
    have htext := (EntityId.canonical_of_parse (entityId_eq_ok_iff.1 hid).1).1
    rw [get_addressed hid]
    cases haugment : c.augment (.bare id) env j with
    | mk attempt j' =>
      obtain ⟨out, _ | f⟩ := attempt
      · have hposts := posts_of_augment hc hk haugment
        exact .answered htext hposts
      · obtain ⟨failed, cause, rfl, hcut⟩ := cutAt_of_augment hc hk haugment
        exact .cut htext hcut

theorem list_traffic (hc : AspectChain.BuiltFor cx c.kind c) (hk : c.kind.BuiltIn)
    (request : ListRequest) : ListTraffic c env request j (list request (.kind c) env j) := by
  by_cases hkind : request.kind = c.kind.id
  · rw [list_directed hkind]
    cases hdiscover : c.discover request env j with
    | mk answer j₁ =>
      obtain f | found := answer
      · obtain ⟨failed, cause, rfl, hcut⟩ := cutAt_of_discover hc hk hdiscover
        exact .undiscovered hcut
      · have hposts := posts_of_discover hc hk hdiscover
        dsimp only
        cases hall : augmentAll c request.filter found env j₁ with
        | mk answer j' =>
          obtain f | es := answer
          · obtain ⟨e, passed, rest, _, j₂, rfl, hpassed, hfails⟩ := augmentAll_eq_error_iff.1 hall
            obtain ⟨left, haugment⟩ := augment_of_passing hfails
            obtain ⟨failed, cause, rfl, hcut⟩ := cutAt_of_augment hc hk haugment
            exact .cut hdiscover hposts hpassed (posts_of_passing hc hk hpassed) hcut
          · exact .answered hdiscover hposts (posts_of_passing hc hk (steps_of_augmentAll hall))
  · rw [list_misdirected hkind]
    exact .refused

/-- **What is sent is what the declaration calls for.** Let a kind have no extensions. A request that is
refused sends nothing. A request for an entity asks every endpoint for it, once and in the order of
declaration. A listing asks every endpoint for the listing, and then for each entity that is found, in that
order, every endpoint for that entity. All this ends with what the first aspect that fails has sent. That a
remote has no such entity is no failure. -/
theorem traffic_exact (hc : AspectChain.BuiltFor cx k c) (hk : k.BuiltIn) (env : Env) (j : Journal) :
    c.kind = k ∧ (∀ errand, c.aspects.flatMap (Aspect.sends errand) = k.endpoints.map errand.post) ∧
    (∀ iri, GetTraffic c env iri j (get iri (.kind c) env j)) ∧
    (∀ request, ListTraffic c env request j (list request (.kind c) env j)) ∧
    (∀ iri cause j', get iri (.kind c) env j = (.error (.invalidRequest cause), j') → j' = j) ∧
    (∀ request cause j', list request (.kind c) env j = (.error (.invalidRequest cause), j') → j' = j) ∧
    ∀ (r : Remote) (reply : Reply), reply.status = 404 →
      (∀ e j, env.world.remote j.posts ((Errand.entity e.id).post r.endpoint) = some reply →
        (r.augment e env j).1 = .success e) ∧
      ∀ request before j, env.world.remote j.posts ((Errand.listing request).post r.endpoint) = some reply →
        (r.list request k before env j).1 = .success before := by
  obtain rfl := hc.aspects_eq.1
  refine ⟨rfl, sends_of_build hc, get_traffic hc hk, list_traffic hc hk, fun iri cause j' hget => ?_,
    fun request cause j' hlist => ?_, fun r reply hstatus =>
      ⟨fun e j hreply => r.augment_of_notFound hreply hstatus,
        fun request before j hreply => r.list_of_notFound hreply hstatus⟩⟩
  · have htraffic : GetTraffic c env iri j _ := get_traffic hc hk iri
    rw [hget] at htraffic
    cases htraffic with
    | refused => rfl
  · have htraffic : ListTraffic c env request j _ := list_traffic hc hk request
    rw [hlist] at htraffic
    cases htraffic with
    | refused => rfl

/-! ### Three mirrors -/

/-- Books at three endpoints. -/
def mirrored : EntityKind :=
  { books with links := ∅, connectors := [.remote "a/", .remote "http://b", .remote " c "] }

def mirrorChain : AspectChain :=
  ⟨mirrored, [.remote ⟨"http://a"⟩, .remote ⟨"http://b"⟩, .remote ⟨"http://c"⟩, .links [], .timestamp,
    .validation]⟩

/-- No remote knows of any entity. -/
def unknowing : Env := ⟨⟨default, fun _ _ => some ⟨404, "gone"⟩, fun _ => ⟨0, 0, 0⟩⟩, .empty⟩

/-- The book is answered after all three mirrors were asked, though none of them knows it. -/
theorem traffic_exact_mirrors :
    AspectChain.BuiltFor bookContext mirrored mirrorChain ∧ mirrored.BuiltIn ∧
      (∃ t, (get "demo.book/1" (.kind mirrorChain) unknowing []).1 = .ok t) ∧
      (get "demo.book/1" (.kind mirrorChain) unknowing []).2.posts =
        ["http://a", "http://b", "http://c"].map fun endpoint =>
          ⟨endpoint ++ "/get", .object [("id", .string "demo.book/1")]⟩ := by
  have hbuild : AspectChain.BuiltFor bookContext mirrored mirrorChain := ⟨.start, _, rfl⟩
  have hbuiltIn : mirrored.BuiltIn := by simp [EntityKind.BuiltIn, mirrored]
  have hid : entityId mirrored "demo.book/1" = .ok ⟨⟨"demo", "book"⟩, ["1"]⟩ := rfl
  have hpasses : (mirrorChain.augment (.bare ⟨⟨"demo", "book"⟩, ["1"]⟩) unknowing []).1 =
      .success { Entity.bare ⟨⟨"demo", "book"⟩, ["1"]⟩ with ts := some ⟨0, 0, 0⟩ } := rfl
  obtain ⟨-, -, htraffic, -⟩ := traffic_exact hbuild hbuiltIn unknowing []
  have hanswer := htraffic "demo.book/1"
  have ht := get_kind (c := mirrorChain) hid hpasses
  refine ⟨hbuild, hbuiltIn, ⟨_, ht⟩, ?_⟩
  generalize get "demo.book/1" (.kind mirrorChain) unknowing [] = answer at hanswer ht ⊢
  cases hanswer with
  | refused => cases ht
  | answered hid hposts =>
    rw [hposts, ← hid]
    rfl
  | cut => cases ht

end Service

end EntityCatalog
