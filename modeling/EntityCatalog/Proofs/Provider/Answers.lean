import EntityCatalog.Proofs.Provider.Contribution
import EntityCatalog.Proofs.Schema.Encoding
import EntityCatalog.Proofs.World

/-!
# Answers are well typed

A service answers a request for a thing with an entity, with things by their keys, or with a
descriptor. All three conform to a registry that has the types of the library, and the registry of a
provider does.
-/

namespace EntityCatalog

open Json (Value)

namespace Service

/-- What services answer with. -/
inductive Answer : Thing → Prop
  | entity (e : Entity) : Answer (.ofEntity e)
  | things (iri : String) (things : SortedMap Thing) : Answer (envelope iri things)
  | descriptor (d : Descriptor) : Answer (.pack Builtin.descriptor d.encode)

variable {env : Env} {j : Journal} {iri : String} {thing : Thing}

theorem answer_of_getThings {c : ConnectorChain} {handle : Handle}
    (h : (getThings c handle iri env j).1 = .ok thing) : Answer thing := by
  obtain ⟨things, j1, -, h⟩ := Run.bind_ok h fun _ _ h => by cases h
  obtain ⟨r, j2, -, h⟩ := Run.bind_ok h fun _ _ h => by cases h
  obtain ⟨_, -, rfl⟩ := exceptMap_eq_ok h
  exact .things iri things

theorem answer_of_getDescriptor {handle : Handle}
    (h : (getDescriptor handle iri env j).1 = .ok thing) : Answer thing := by
  unfold getDescriptor at h
  cases hname : descriptorName iri with
  | error failure =>
    rw [hname] at h
    cases h
  | ok name =>
    rw [hname] at h
    obtain ⟨r, j', -, h⟩ := Run.bind_ok h fun _ _ h => by cases h
    dsimp only at h
    cases hd : r.find? name with
    | none =>
      rw [hd] at h
      cases h
    | some d =>
      rw [hd] at h
      cases h
      exact .descriptor d

theorem answer_of_get {service : Service} (h : (get iri service env j).1 = .ok thing) :
    Answer thing := by
  cases service with
  | kind c =>
    obtain ⟨e, -, rfl⟩ := exceptMap_eq_ok h
    exact .entity e
  | type c handle => exact answer_of_getThings h
  | introspection handle => exact answer_of_getDescriptor h

end Service

/-! ## Conformance -/

/-- A registry has every type of the library under its name. -/
def TypeRegistry.HasOwn (r : TypeRegistry) : Prop :=
  ∀ d ∈ Builtin.core ++ Builtin.introspection, r.find? d.fullName = some d

section conformance
variable {r : TypeRegistry}

theorem Service.envelope_conforms (hany : r.find? Builtin.any = some Builtin.anyDescriptor)
    (iri : String) (things : SortedMap Thing) :
    r.Conforms Builtin.thingDescriptor
      (.object [("iri", .string iri), ("things", .ofMap Thing.encode things)]) := by
  rw [TypeRegistry.conforms_object_iff]
  intro p hp
  simp only [List.mem_cons, List.not_mem_nil, or_false] at hp
  rcases hp with rfl | rfl
  · exact .single rfl rfl (.plain (.string _))
  · refine .single rfl rfl (.map rfl rfl hany fun name inner hinner => ?_)
    obtain ⟨⟨key, t⟩, -, ht⟩ := List.mem_map.1 hinner
    have hvalue : t.encode = .object inner := congrArg Prod.snd ht
    rw [← hvalue]
    exact t.encode_conforms

theorem Service.Answer.checks (hr : r.HasOwn) {thing : Thing} (h : Answer thing) :
    r.check thing = .ok () := by
  cases h with
  | entity e =>
    exact TypeRegistry.check_pack rfl (hr Builtin.entityDescriptor (by decide)) e.encode_conforms
  | things iri things =>
    exact TypeRegistry.check_pack rfl (hr Builtin.thingDescriptor (by decide))
      (envelope_conforms (hr Builtin.anyDescriptor (by decide)) iri things)
  | descriptor d =>
    exact TypeRegistry.check_pack rfl (hr Builtin.descriptorDescriptor (by decide))
      (d.encode_conforms (hr Builtin.fieldDescriptorDescriptor (by decide)))

end conformance

namespace Provider

variable {kinds : KindRepository} {types : TypeRepository} {extensions : Extensions}
  {config : Config} {p : Provider}

/-- **Every thing that a provider answers with conforms to the provider's registry**, whatever the
extensions contribute to it and whatever the handles of the environment lead to. -/
theorem answers_conform (h : build kinds types extensions config = .ok p) (env : Env) (j : Journal)
    {id iri : String} {thing : Thing} (hget : (p.services.get id iri env j).1 = .ok thing) :
    p.types.check thing = .ok () := by
  unfold Services.get at hget
  cases hs : p.services.service? id with
  | none =>
    rw [hs] at hget
    cases hget
  | some service =>
    rw [hs] at hget
    exact (Service.answer_of_get hget).checks fun d hd => find?_own h hd

/-! ### A contribution under the library's names -/

/-- A connector that declares things to have no fields, and loads one. -/
def usurper : ThingConnector where
  name := "usurper"
  descriptors := [⟨Builtin.thing, []⟩, ⟨Builtin.any, []⟩, ⟨"demo.Note", [.plain "text" 1 .string]⟩]
  load _ _ _ things :=
    .success (things.insert "first" (.pack "demo.Note" (.object [("text", .string "hello")])))

def notes : TypeRepository := ⟨[⟨"demo.Note", none, [.extension "usurper"]⟩]⟩

/-- What `notes` answers with. -/
def firstNote : Thing :=
  Service.envelope "demo.Note/1" (.ofList
    [("first", .pack "demo.Note" (.object [("text", .string "hello")]))])

def usurping : Extensions := ⟨∅, .ofList [("usurper", usurper)]⟩

/-- No files, no remotes, and a clock that stands still. -/
def stillWorld : World := ⟨default, fun _ _ => none, fun _ => ⟨0, 0, 0⟩⟩

theorem answers_conform_usurped :
    ∃ p, build .empty notes usurping .standard = .ok p ∧
      (p.services.get "demo.Note" "demo.Note/1" (p.env stillWorld) []).1 = .ok firstNote ∧
      p.types.check firstNote = .ok () := by
  obtain ⟨p, hbuild, hget⟩ : ∃ p, build .empty notes usurping .standard = .ok p ∧
      (p.services.get "demo.Note" "demo.Note/1" (p.env stillWorld) []).1 = .ok firstNote :=
    ⟨_, rfl, rfl⟩
  exact ⟨p, hbuild, hget, answers_conform hbuild _ _ hget⟩

end Provider

end EntityCatalog
