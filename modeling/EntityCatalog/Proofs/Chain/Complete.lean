import EntityCatalog.Proofs.Aspect.Filling
import EntityCatalog.Proofs.Chain.Build
import EntityCatalog.Proofs.Service.Filter
import EntityCatalog.Proofs.World
import EntityCatalog.Service

/-!
# Entities that leave a chain

Whatever the declared aspects of a chain have made of an entity, the three that close the chain leave
it complete or fail (`complete_of_closing`): it is of its kind, has all its segments and a timestamp,
and every link that the kind declares is the filled template of the identifier it ends with. So is
every entity that the service of a kind answers with.

The links are set before the segments are counted, from an identifier that may lack some. That no link
is left out follows from the count that comes after: no aspect in between touches the identifier.
-/

namespace EntityCatalog

/-- An entity has everything that its kind declares. -/
structure Complete (kind : EntityKind) (e : Entity) : Prop where
  ofKind : e.id.kind = kind.id
  segments : e.id.paths.length = kind.paths.length
  stamped : e.ts.isSome
  linked : ∀ link template, kind.links.get? link = some template →
    ∃ uri, e.links.get? link = some uri ∧
      ∀ text : String, Filled kind e.id template.toList text.toList ↔ text = uri

/-! ## The closing aspects -/

theorem Aspect.stamp_fst (e : Entity) (env : Env) (j : Journal) :
    (stamp e env j).1 = { e with ts := some (e.ts.getD (env.world.clock j.readings)) } := by
  obtain ⟨id, ts, links, related, data⟩ := e
  cases ts <;> rfl

theorem Aspect.validate_eq_ok_iff {kind : EntityKind} {e : Entity} : validate kind e = .ok () ↔
    e.id.kind = kind.id ∧ e.id.paths.length = kind.paths.length ∧ e.ts.isSome := by
  constructor
  · intro h
    unfold validate at h
    split at h
    · cases h
    · next hkind =>
      split at h
      · cases h
      · next hlength =>
        split at h
        · cases h
        · next hts =>
          refine ⟨Decidable.of_not_not hkind, Decidable.of_not_not hlength, ?_⟩
          simpa [Option.isSome_iff_ne_none] using hts
  · rintro ⟨hkind, hlength, hts⟩
    obtain ⟨t, ht⟩ := Option.isSome_iff_exists.1 hts
    simp [validate, hkind, hlength, ht]

namespace AspectChain

variable {kind : EntityKind} {env : Env}

theorem pass_cons_success {a : Aspect} {rest : List Aspect} {e out : Entity} {j : Journal}
    (h : (pass kind (a :: rest) e env j).1 = .success out) :
    ∃ mid j', a.augment kind e env j = (.success mid, j') ∧
      (pass kind rest mid env j').1 = .success out := by
  rw [pass] at h
  exact Run.bind_success h fun _ _ _ h => by cases h

theorem pass_append_success {first rest : List Aspect} {e out : Entity} {j : Journal}
    (h : (pass kind (first ++ rest) e env j).1 = .success out) :
    ∃ mid j', (pass kind rest mid env j').1 = .success out := by
  induction first generalizing e j with
  | nil => exact ⟨e, j, h⟩
  | cons a first ih =>
    obtain ⟨mid, j', -, h⟩ := pass_cons_success h
    exact ih h

theorem pass_closing (templates : List Template) (e : Entity) (j : Journal) :
    (pass kind [.links templates, .timestamp, .validation] e env j).1 =
      let applied := Template.apply templates e
      let out := { applied with ts := some (applied.ts.getD (env.world.clock j.readings)) }
      .ofExcept out
        (((Aspect.validate kind out).mapError (failure kind .validation)).map fun _ => out) := by
  dsimp only
  rw [← Aspect.stamp_fst]
  simp only [pass, Run.bind_apply, Aspect.augment, Run.pure_apply, Attempt.success]
  generalize Aspect.validate kind (Aspect.stamp (Template.apply templates e) env j).1 = verdict
  cases verdict <;> rfl

/-- The links are set before the segments are counted, but on an entity with the same identifier. -/
theorem pass_closing_success_iff {templates : List Template} {e out : Entity} {j : Journal} :
    (pass kind [.links templates, .timestamp, .validation] e env j).1 = .success out ↔
      e.id.kind = kind.id ∧ e.id.paths.length = kind.paths.length ∧
        out = { Template.apply templates e with
          ts := some (e.ts.getD (env.world.clock j.readings)) } := by
  obtain ⟨links, hlinks⟩ := Template.apply_eq templates e
  rw [pass_closing, hlinks]
  dsimp only
  cases hverdict : Aspect.validate kind
      { e with ts := some (e.ts.getD (env.world.clock j.readings)), links := links } with
  | error cause =>
    constructor
    · intro h
      cases h
    · rintro ⟨hkind, hlength, -⟩
      have hvalid := hverdict.symm.trans (Aspect.validate_eq_ok_iff.2 ⟨hkind, hlength, rfl⟩)
      cases hvalid
  | ok verdict =>
    obtain ⟨hkind, hlength, -⟩ := Aspect.validate_eq_ok_iff.1 hverdict
    constructor
    · intro h
      exact ⟨hkind, hlength, (congrArg Attempt.left h).symm⟩
    · rintro ⟨-, -, rfl⟩
      rfl

theorem complete_of_closing {templates : List Template}
    (ht : Template.compileAll kind = .ok templates) {e out : Entity} {j : Journal}
    (h : (pass kind [.links templates, .timestamp, .validation] e env j).1 = .success out) :
    Complete kind out := by
  obtain ⟨hkind, hlength, rfl⟩ := pass_closing_success_iff.1 h
  have hid := Template.apply_id templates e
  refine ⟨by rw [← hkind, ← hid], by rw [← hlength, ← hid], rfl, fun link template hl => ?_⟩
  dsimp only
  rw [hid]
  exact Template.apply_compiled ht hlength hl

/-! ## Chains -/

theorem complete_of_augment {cx : BuildContext} {c : AspectChain} (hc : BuiltFor cx kind c)
    {e out : Entity} {j : Journal} (h : (c.augment e env j).1 = .success out) :
    Complete kind out := by
  obtain ⟨hkind, declared, templates, -, ht, haspects⟩ := hc.aspects_eq
  rw [augment, hkind, haspects] at h
  obtain ⟨mid, j', h⟩ := pass_append_success h
  exact complete_of_closing ht h

end AspectChain

/-! ## Services -/

namespace Service

variable {kind : EntityKind} {cx : BuildContext} {c : AspectChain} {env : Env} {j : Journal}

theorem complete_of_getEntity (hc : AspectChain.BuiltFor cx kind c) {iri : String} {e : Entity}
    (h : (getEntity c iri env j).1 = .ok e) : Complete kind e := by
  unfold getEntity at h
  cases hid : entityId c.kind iri with
  | error failure =>
    rw [hid] at h
    cases h
  | ok id =>
    rw [hid] at h
    obtain ⟨out, j', haugment, h⟩ := Run.bind_success h fun _ _ _ h => by cases h
    cases h
    exact AspectChain.complete_of_augment hc (congrArg (·.1) haugment)

theorem augmentAll_of_success {filter : SortedMap String} {e out : Entity} {rest : List Entity} {j₁ : Journal}
    (h : c.augment e env j = (.success out, j₁)) : augmentAll c filter (e :: rest) env j =
      ((augmentAll c filter rest env j₁).1.map fun kept =>
        if matchesFilter c.kind filter out then out :: kept else kept, (augmentAll c filter rest env j₁).2) := by
  rw [augmentAll, Run.bind_apply, h]
  dsimp only [Attempt.success]
  rw [Run.bind_apply]
  obtain ⟨own | kept, j₂⟩ := augmentAll c filter rest env j₁ <;> rfl

theorem augmentAll_of_failure {filter : SortedMap String} {e left : Entity} {rest : List Entity}
    {own : ServiceError} {j' : Journal} (h : c.augment e env j = (.failure left own, j')) :
    augmentAll c filter (e :: rest) env j = (.error own, j') := by
  rw [augmentAll, Run.bind_apply, h]
  rfl

theorem mem_augmentAll {filter : SortedMap String} {found kept : List Entity} {e : Entity}
    (h : (augmentAll c filter found env j).1 = .ok kept) (he : e ∈ kept) :
    ∃ first ∈ found, ∃ j', (c.augment first env j').1 = .success e ∧
      matchesFilter c.kind filter e = true := by
  induction found generalizing j kept with
  | nil =>
    cases h
    cases he
  | cons first found ih =>
    rw [augmentAll] at h
    obtain ⟨out, j1, haugment, h⟩ := Run.bind_success h fun _ _ _ h => by cases h
    obtain ⟨rest, j2, hrest, h⟩ := Run.bind_ok h fun _ _ h => by cases h
    cases h
    have hkept (he : e ∈ rest) := ih (congrArg (·.1) hrest) he
    split at he
    · next hmatches =>
      rcases List.mem_cons.1 he with rfl | he
      · exact ⟨first, List.mem_cons_self, j, congrArg (·.1) haugment, hmatches⟩
      · obtain ⟨first', hfirst', hpassed⟩ := hkept he
        exact ⟨first', List.mem_cons_of_mem _ hfirst', hpassed⟩
    · obtain ⟨first', hfirst', hpassed⟩ := hkept he
      exact ⟨first', List.mem_cons_of_mem _ hfirst', hpassed⟩

theorem listEntities_eq_ok {request : ListRequest} {es : List Entity}
    (h : (listEntities c request env j).1 = .ok es) : ∃ found j',
      c.discover request env j = (.ok found, j') ∧
        (augmentAll c request.filter found env j').1 = .ok es := by
  unfold listEntities at h
  by_cases hkind : request.kind ≠ c.kind.id
  · rw [if_pos hkind] at h
    cases h
  · rw [if_neg hkind] at h
    exact Run.bind_ok h fun _ _ h => by cases h

theorem complete_of_listEntities (hc : AspectChain.BuiltFor cx kind c) {request : ListRequest}
    {es : List Entity} (h : (listEntities c request env j).1 = .ok es) :
    ∀ e ∈ es, Complete kind e ∧ Satisfies kind request.filter e := by
  intro e he
  obtain ⟨found, j', -, haugment⟩ := listEntities_eq_ok h
  obtain ⟨first, -, _, hpassed, hmatches⟩ := mem_augmentAll haugment he
  have hkind := hc.aspects_eq.1
  exact ⟨AspectChain.complete_of_augment hc hpassed, matchesFilter_iff.1 (hkind ▸ hmatches)⟩

/-- **The service of a kind answers only with complete entities**, whatever the declared connectors
do, and a listing only with those that its filter asks for. -/
theorem served_complete (hc : AspectChain.BuiltFor cx kind c) (env : Env) (j : Journal) :
    (∀ iri thing, (get iri (.kind c) env j).1 = .ok thing →
      ∃ e, (getEntity c iri env j).1 = .ok e ∧ thing = .ofEntity e ∧ Complete kind e) ∧
    ∀ request es, (list request (.kind c) env j).1 = .ok es →
      ∀ e ∈ es, Complete kind e ∧ Satisfies kind request.filter e := by
  refine ⟨fun iri thing h => ?_, fun request es h => complete_of_listEntities hc h⟩
  obtain ⟨e, he, hthing⟩ := exceptMap_eq_ok h
  exact ⟨e, he, hthing.symm, complete_of_getEntity hc he⟩

/-! ### A chain with an impostor -/

/-- An aspect that puts another entity in the place of the one asked for, with links of its own. -/
def impostor : AspectExtension where
  name := "impostor"
  repositoryAware _ := false
  providerAware _ := false
  descriptors _ := []
  augment _ kind e := .success { e with
    id := ⟨kind.id, ["2"]⟩, links := .ofList [("other", "kept"), ("self", "elsewhere")] }
  list _ _ kind before := .success (before ++ [Entity.bare ⟨kind.id, []⟩])

def books : EntityKind :=
  { EntityKind.bare ⟨"demo", "book"⟩ with
    paths := ["isbn"], links := .ofList [("self", "/{ns}/{isbn}")]
    connectors := [.extension "impostor"] }

def bookContext : BuildContext :=
  ⟨⟨[books]⟩, ⟨0⟩, ⟨.ofList [("impostor", impostor)], ∅⟩, .standard⟩

def bookChain : AspectChain :=
  ⟨books, [.extension ⟨0, impostor, []⟩,
    .links [⟨"self", [.literal "/", .ns, .literal "/", .path 0]⟩], .timestamp, .validation]⟩

/-- The book that the impostor makes of every other. -/
def secondBook : Entity :=
  { Entity.bare ⟨⟨"demo", "book"⟩, ["2"]⟩ with
    ts := some ⟨0, 0, 0⟩, links := .ofList [("other", "kept"), ("self", "/demo/2")] }

/-- No files, no remotes, and a clock that stands still. -/
def quietEnv : Env := ⟨⟨default, fun _ _ => none, fun _ => ⟨0, 0, 0⟩⟩, .empty⟩

theorem served_complete_impostor :
    AspectChain.BuiltFor bookContext books bookChain ∧
      (get "demo.book/1" (.kind bookChain) quietEnv []).1 = .ok (.ofEntity secondBook) ∧
      (list ⟨books.id, .ofList [("isbn", "2")]⟩ (.kind bookChain) quietEnv []).1 =
        .ok [secondBook] ∧
      Complete books secondBook ∧ Satisfies books (.ofList [("isbn", "2")]) secondBook := by
  have hbuild : AspectChain.BuiltFor bookContext books bookChain := ⟨.start, _, rfl⟩
  have hlist : (list ⟨books.id, .ofList [("isbn", "2")]⟩ (.kind bookChain) quietEnv []).1 =
      .ok [secondBook] := rfl
  have h := (served_complete hbuild quietEnv []).2 _ _ hlist secondBook (by simp)
  exact ⟨hbuild, rfl, hlist, h.1, h.2⟩

end Service

end EntityCatalog
