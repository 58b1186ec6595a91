import EntityCatalog.Proofs.Chain.Loading
import EntityCatalog.Proofs.Provider.Answers
import EntityCatalog.Proofs.Provider.Injection
import EntityCatalog.Proofs.Text.ByteOrder

/-!
# Things leave a provider checked

The service of a type answers with all the things that its connectors have come to, and only if every
one of them conforms to the registry of the provider (`loaded_things_checked`). A connector that fails is
reported before any thing is looked at; of several things that do not conform, the one with the least key
is reported, whoever loaded it.
-/

namespace EntityCatalog

namespace TypeRegistry

/-- All things of a map conform. -/
def AllConform (r : TypeRegistry) (things : SortedMap Thing) : Prop :=
  ∀ key t, things.get? key = some t → r.check t = .ok ()

/-- The thing with the least key, in the order of bytes, among those that do not conform: what is wrong
with it. -/
def FirstMisfit (r : TypeRegistry) (things : SortedMap Thing) (cause : MessageError) : Prop :=
  ∃ key t, things.get? key = some t ∧ r.check t = .error cause ∧
    ∀ key' t', Text.bytes key' < Text.bytes key → things.get? key' = some t' → r.check t' = .ok ()

end TypeRegistry

namespace Service

/-! ## Checking -/

theorem checkThings_settles (service : String) (r : TypeRegistry) (things : SortedMap Thing) :
    Settles (checkThings service r things) (r.AllConform things)
      (fun e => ∃ cause, r.FirstMisfit things cause ∧ e = .nonconforming service cause) := by
  have hone (p : String × Thing) : Settles ((r.check p.2).mapError (ServiceError.nonconforming service))
      (r.check p.2 = .ok ())
      (fun e => ∃ cause, r.check p.2 = .error cause ∧ e = .nonconforming service cause) := by
    cases r.check p.2 with
    | ok verdict => exact .success rfl (by simp)
    | error cause => exact .report (by simp) (by simp)
  have hentries : checkThings service r things =
      things.entries.forM fun p => (r.check p.2).mapError (.nonconforming service) :=
    List.forM_map
  rw [hentries]
  refine (Settles.forM hone 0 things.entries).congr ?_ fun e => ?_
  · simp only [Prod.forall, SortedMap.mem_entries_iff, TypeRegistry.AllConform]
  · rw [SortedMap.firstAt_entries_iff]
    constructor
    · rintro ⟨key, t, hget, ⟨cause, hcheck, rfl⟩, hfirst⟩
      exact ⟨cause, ⟨key, t, hget, hcheck, fun key' t' hlt =>
        hfirst key' (Text.bytes_lt_iff.1 hlt) t'⟩, rfl⟩
    · rintro ⟨cause, ⟨key, t, hget, hcheck, hfirst⟩, rfl⟩
      exact ⟨key, t, hget, ⟨cause, hcheck, rfl⟩, fun key' hlt t' =>
        hfirst key' t' (Text.bytes_lt_iff.2 hlt)⟩

/-! ## Requests -/

section requests
variable {c : ConnectorChain} {handle : Handle} {iri : String} {env : Env} {j : Journal}
  {r : TypeRegistry}

theorem getThings_eq (hr : ∀ j, types handle env j = (.ok r, j)) :
    (getThings c handle iri env j).1 = (do
      let things ← (c.load iri env j).1
      (checkThings c.type.name r things).map fun _ => envelope iri things) := by
  rw [getThings, Run.bind_apply]
  cases hload : c.load iri env j with
  | mk result j' =>
    cases result with
    | error failure => rfl
    | ok things =>
      dsimp only
      rw [Run.bind_apply, hr]
      rfl

theorem getThings_eq_ok_iff (hr : ∀ j, types handle env j = (.ok r, j)) {thing : Thing} :
    (getThings c handle iri env j).1 = .ok thing ↔ ∃ things j',
      ConnectorChain.Loads c.type iri c.connectors ∅ j things j' ∧ r.AllConform things ∧
        thing = envelope iri things := by
  rw [getThings_eq hr]
  constructor
  · intro h
    obtain ⟨things, hload, h⟩ := bind_eq_ok h
    obtain ⟨verdict, hcheck, rfl⟩ := exceptMap_eq_ok h
    exact ⟨things, (c.load iri env j).2, ConnectorChain.load_eq_ok_iff.1 (Prod.ext hload rfl),
      (checkThings_settles _ r things).good_of_ok hcheck, rfl⟩
  · rintro ⟨things, j', hload, hconform, rfl⟩
    rw [ConnectorChain.load_eq_ok_iff.2 hload]
    obtain ⟨verdict, hcheck⟩ := (checkThings_settles c.type.name r things).ok.2 hconform
    exact congrArg (·.map fun _ => envelope iri things) hcheck

theorem getThings_eq_error_iff (hr : ∀ j, types handle env j = (.ok r, j)) {e : ServiceError} :
    (getThings c handle iri env j).1 = .error e ↔
      (∃ failed cause, ConnectorChain.Fails c.type iri c.connectors ∅ j failed cause ∧
        e = .aspect c.type.name failed.name cause) ∨
      ∃ things j' cause, ConnectorChain.Loads c.type iri c.connectors ∅ j things j' ∧
        r.FirstMisfit things cause ∧ e = .nonconforming c.type.name cause := by
  have hfails : (c.load iri env j).1 = .error e ↔ _ := ConnectorChain.load_eq_error_iff
  rw [getThings_eq hr, ← hfails]
  cases hload : c.load iri env j with
  | mk result j' =>
    cases result with
    | error failure =>
      have hnone {things : SortedMap Thing} {j'' : Journal} :
          ¬ ConnectorChain.Loads c.type iri c.connectors ∅ j things j'' := by
        intro h
        rw [ConnectorChain.load_eq_ok_iff.2 h] at hload
        cases hload
      change (Except.error failure : Except ServiceError Thing) = .error e ↔ _
      simp only [Except.error.injEq]
      constructor
      · exact .inl
      · rintro (h | ⟨things, j'', cause, hloads, -⟩)
        · exact h
        · exact absurd hloads hnone
    | ok things =>
      have hsettled := checkThings_settles c.type.name r things
      have hreport : ((checkThings c.type.name r things).map fun _ => envelope iri things) =
          .error e ↔ checkThings c.type.name r things = .error e := by
        cases checkThings c.type.name r things <;> simp [Except.map]
      refine hreport.trans ((hsettled.error e).trans ⟨?_, ?_⟩)
      · rintro ⟨cause, hmisfit, rfl⟩
        exact .inr ⟨things, j', cause, ConnectorChain.load_eq_ok_iff.1 hload, hmisfit, rfl⟩
      · rintro (h | ⟨things', j'', cause, hloads, hmisfit, rfl⟩)
        · cases h
        · rw [ConnectorChain.load_eq_ok_iff.2 hloads] at hload
          cases hload
          exact ⟨cause, hmisfit, rfl⟩

end requests

end Service

/-! ## Providers -/

theorem BuildContext.connector_eq_ok {cx : BuildContext} {declared : Connector} {c : ThingConnector}
    (h : cx.connector declared = .ok c) :
    ∃ name, declared = .extension name ∧ cx.extensions.connectors.get? name = some c := by
  cases declared with
  | extension name =>
    rw [connector] at h
    cases hget : cx.extensions.connectors.get? name with
    | some x =>
      rw [hget] at h
      cases h
      exact ⟨name, rfl, hget⟩
    | none =>
      rw [hget] at h
      dsimp only at h
      split at h <;> cases h
  | error message => cases h
  | store root format => cases h
  | remote endpoint => cases h
  | unset => cases h

namespace Provider

variable {kinds : KindRepository} {types : TypeRepository} {extensions : Extensions}
  {config : Config} {p : Provider}

/-- **The service of a type answers with all things that its connectors load, if all of them conform.**
It succeeds exactly if every connector loads, in the order of declaration, and everything that stands at
the end conforms to the registry. Else it reports the first connector that fails, or the thing with the
least key that does not conform. The registry is the one that was finished with the provider, unless an
extension has bound the handle before. -/
theorem loaded_things_checked (h : build kinds types extensions config = .ok p) {t : TypeDecl}
    (ht : t ∈ types.types) :
    ∃ r, p.Publishes r ∧ (extensions.LeaveUnbound → r = p.types) ∧
    ∃ connectors, List.Forall₂ (fun declared c => ∃ name, declared = .extension name ∧
        extensions.connectors.get? name = some c) t.connectors connectors ∧
      ∀ (iri : String) (world : World) (j : Journal),
        (∀ thing, (p.services.get t.name iri (p.env world) j).1 = .ok thing ↔ ∃ things j',
          ConnectorChain.Loads t iri connectors ∅ j things j' ∧ r.AllConform things ∧
          thing = ⟨"type.googleapis.com/kindred.Thing", .object [("iri", .string iri),
            ("things", .object (things.entries.map fun loaded => (loaded.1,
              .object [("type_url", .string loaded.2.url), ("value", loaded.2.value)])))]⟩) ∧
        ∀ e, (p.services.get t.name iri (p.env world) j).1 = .error e ↔
          (∃ failed cause, ConnectorChain.Fails t iri connectors ∅ j failed cause ∧
            e = .aspect t.name failed.name cause) ∨
          ∃ things j' cause, ConnectorChain.Loads t iri connectors ∅ j things j' ∧
            r.FirstMisfit things cause ∧ e = .nonconforming t.name cause := by
  obtain ⟨r, hr, hown⟩ := published_of_build h
  obtain ⟨c, hc, hservice⟩ := service_of_type h ht
  obtain ⟨rfl, hconnectors⟩ := ConnectorChain.build_eq_ok hc
  refine ⟨r, hr, hown, c.connectors, (mapM_eq_ok_iff.1 hconnectors).imp fun _ _ =>
    BuildContext.connector_eq_ok, fun iri world j => ?_⟩
  have hget : p.services.get c.type.name iri = Service.getThings c p.handle iri := by
    rw [Services.get, hservice]
    rfl
  rw [hget]
  exact ⟨fun _ => Service.getThings_eq_ok_iff (types_env hr world),
    fun _ => Service.getThings_eq_error_iff (types_env hr world)⟩

/-! ### Two connectors with a misfit each -/

/-- A note with a text, or without one. -/
def noteOf (text : Json.Value) : Thing := .pack "demo.Note" (.object [("text", text)])

/-- A connector that declares notes and loads one under a key, on top of what is there. -/
def noting (name key : String) (note : Thing) : ThingConnector where
  name := name
  descriptors := [⟨"demo.Note", [.plain "text" 1 .string]⟩]
  load _ _ _ things := .success (things.insert key note)

def noteExtensions : Extensions := ⟨∅, .ofList
  [("late", noting "late" "b" (noteOf (.bool true))),
    ("early", noting "early" "a" (.pack "demo.Note" (.object [("body", .null)])))]⟩

def noteTypes : TypeRepository :=
  ⟨[⟨"demo.Note", none, [.extension "late", .extension "early"]⟩]⟩

/-- The connector that is asked last has loaded the note with the least key. -/
theorem loaded_things_checked_misfits :
    noteExtensions.LeaveUnbound ∧ ∃ p, build .empty noteTypes noteExtensions .standard = .ok p ∧
      ⟨"demo.Note", none, [.extension "late", .extension "early"]⟩ ∈ noteTypes.types ∧
      (p.services.get "demo.Note" "demo.Note/1" (p.env stillWorld) []).1 =
        .error (.nonconforming "demo.Note" (.unknownField "demo.Note" "body")) ∧
      ∃ things, p.types.FirstMisfit things (.unknownField "demo.Note" "body") := by
  obtain ⟨p, hbuild, hget⟩ : ∃ p, build .empty noteTypes noteExtensions .standard = .ok p ∧
      (p.services.get "demo.Note" "demo.Note/1" (p.env stillWorld) []).1 =
        .error (.nonconforming "demo.Note" (.unknownField "demo.Note" "body")) :=
    ⟨_, rfl, rfl⟩
  have hmem : ⟨"demo.Note", none, [.extension "late", .extension "early"]⟩ ∈ noteTypes.types :=
    List.mem_singleton_self _
  have hleave : noteExtensions.LeaveUnbound := .of_no_aspects _
  obtain ⟨r, -, hown, connectors, -, hspec⟩ := loaded_things_checked hbuild hmem
  obtain rfl := hown hleave
  refine ⟨hleave, p, hbuild, hmem, hget, ?_⟩
  rcases ((hspec _ _ _).2 _).1 hget with ⟨failed, cause, -, h⟩ | ⟨things, j', cause, -, hmisfit, h⟩
  · cases h
  · cases h
    exact ⟨things, hmisfit⟩

end Provider

end EntityCatalog
