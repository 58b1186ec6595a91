import EntityCatalog.Proofs.Chain.Build
import EntityCatalog.Proofs.SortedMap
import EntityCatalog.Proofs.Traversal

/-!
# Bad declarations

Which declarations are bad, and what is reported of a bad one, without building anything: `Bad` and
`Blame`. A declaration is judged after those in front of it, whose identifiers it must not repeat. A
chain can be built exactly for a declaration that is good in itself.
-/

namespace EntityCatalog

/-- A kind or a type of a model. -/
inductive Declaration where
  | kind (k : EntityKind)
  | type (t : TypeDecl)

namespace Declaration

/-- The identifier of the service. -/
def id : Declaration → String
  | kind k => k.id.text
  | type t => t.name

def connectors : Declaration → List Connector
  | kind k => k.connectors
  | type t => t.connectors

/-- All kinds, then all types, in the order of their declaration. -/
def all (kinds : KindRepository) (types : TypeRepository) : List Declaration :=
  kinds.kinds.map kind ++ types.types.map type

/-- The identifiers that are taken when the declarations in front have their services. -/
def taken (before : List Declaration) : List String := Builtin.descriptor :: before.map id

/-! ## Bad connectors -/

/-- A connector is no aspect of a kind. -/
def KindRefuses (x : Extensions) : Connector → Prop
  | .unset => True
  | .remote endpoint => normalizeEndpoint endpoint = ""
  | .extension name => x.hasAspect name = false
  | .error _ | .store _ _ => False

/-- A type takes nothing but extensions that are registered as thing connectors. -/
def TypeRefuses (x : Extensions) (c : Connector) : Prop :=
  ¬ ∃ name, c = .extension name ∧ x.hasConnector name = true

/-- What is reported of a bad connector of a kind. -/
inductive KindFault (x : Extensions) : Connector → BuildFault → Prop
  | unset : KindFault x .unset .unsetConnector
  | endpoint {endpoint : String} (h : normalizeEndpoint endpoint = "") :
      KindFault x (.remote endpoint) (.connectorInit "remote" (.remote .emptyEndpoint))
  | mismatch {name : String} (ha : x.hasAspect name = false) (hc : x.hasConnector name = true) :
      KindFault x (.extension name) (.extensionMismatch name .aspect)
  | unknown {name : String} (ha : x.hasAspect name = false) (hc : x.hasConnector name = false) :
      KindFault x (.extension name) (.unknownExtension name)

/-- What is reported of a bad connector of a type. -/
inductive TypeFault (x : Extensions) : Connector → BuildFault → Prop
  | unset : TypeFault x .unset .unsetConnector
  | error {message : String} : TypeFault x (.error message) (.unsupported "error")
  | store {root : String} {format : FileFormat} :
      TypeFault x (.store root format) (.unimplemented "fs")
  | remote {endpoint : String} : TypeFault x (.remote endpoint) (.unimplemented "remote")
  | mismatch {name : String} (hc : x.hasConnector name = false) (ha : x.hasAspect name = true) :
      TypeFault x (.extension name) (.extensionMismatch name .connector)
  | unknown {name : String} (hc : x.hasConnector name = false) (ha : x.hasAspect name = false) :
      TypeFault x (.extension name) (.unknownExtension name)

def Refuses (x : Extensions) : Declaration → Connector → Prop
  | kind _ => KindRefuses x
  | type _ => TypeRefuses x

def ConnectorFault (x : Extensions) : Declaration → Connector → BuildFault → Prop
  | kind _ => KindFault x
  | type _ => TypeFault x

/-! ## Bad declarations -/

/-- A link whose template does not compile. -/
def BadLink : Declaration → String → TemplateError → Prop
  | kind k, link, cause => ∃ template, k.links.get? link = some template ∧
      Template.compile k link template = .error cause
  | type _, _, _ => False

/-- A declaration cannot have a service after those in front of it. -/
def Bad (x : Extensions) (before : List Declaration) (d : Declaration) : Prop :=
  (∃ c ∈ d.connectors, d.Refuses x c) ∨ (∃ link cause, d.BadLink link cause) ∨ d.id ∈ taken before

/-- A chain can be built for a declaration. -/
def Buildable (x : Extensions) (d : Declaration) : Prop :=
  (∀ c ∈ d.connectors, ¬ d.Refuses x c) ∧ ∀ link cause, ¬ d.BadLink link cause

/-- What is reported of a declaration that no chain can be built for: its first bad connector, else
its first bad link. -/
inductive ChainFault (x : Extensions) (d : Declaration) : BuildFault → Prop
  | connector {fault : BuildFault}
      (h : FirstAt (¬ d.Refuses x ·) (fun _ c => d.ConnectorFault x c fault) 0 d.connectors) :
      ChainFault x d fault
  | link {link : String} {cause : TemplateError} (hc : ∀ c ∈ d.connectors, ¬ d.Refuses x c)
      (h : d.BadLink link cause) (hfirst : ∀ link' < link, ∀ cause', ¬ d.BadLink link' cause') :
      ChainFault x d (.invalidTemplate cause)

/-- What is reported of a bad declaration. A repeated identifier is noticed last. -/
inductive Blame (x : Extensions) (before : List Declaration) (d : Declaration) : BuildFault → Prop
  | chain {fault : BuildFault} (h : d.ChainFault x fault) : Blame x before d fault
  | duplicate (hd : d.Buildable x) (h : d.id ∈ taken before) : Blame x before d .duplicateService

variable {x : Extensions} {before : List Declaration} {d : Declaration}

theorem not_bad_iff : ¬ d.Bad x before ↔ d.Buildable x ∧ d.id ∉ taken before := by
  simp [Bad, Buildable, and_assoc]

theorem blame_iff {fault : BuildFault} : d.Blame x before fault ↔
    d.ChainFault x fault ∨ d.Buildable x ∧ d.id ∈ taken before ∧ fault = .duplicateService := by
  constructor
  · rintro (h | ⟨hd, h⟩)
    · exact .inl h
    · exact .inr ⟨hd, h, rfl⟩
  · rintro (h | ⟨hd, h, rfl⟩)
    · exact .chain h
    · exact .duplicate hd h

end Declaration

/-! ## Connectors -/

section connectors
open Declaration

variable {x : Extensions} {c : Connector} {fault fault' : BuildFault}

theorem Declaration.KindFault.unique (h : KindFault x c fault) (h' : KindFault x c fault') :
    fault' = fault := by
  cases h <;> cases h' <;> simp_all

theorem Declaration.TypeFault.unique (h : TypeFault x c fault) (h' : TypeFault x c fault') :
    fault' = fault := by
  cases h <;> cases h' <;> simp_all

theorem Declaration.KindFault.refuses (h : KindFault x c fault) : KindRefuses x c := by
  cases h with
  | unset => trivial
  | endpoint h => exact h
  | mismatch ha => exact ha
  | unknown ha => exact ha

theorem Declaration.TypeFault.refuses (h : TypeFault x c fault) : TypeRefuses x c := by
  rintro ⟨name, rfl, hname⟩
  cases h with
  | mismatch hc => simp [hc] at hname
  | unknown hc => simp [hc] at hname

theorem Declaration.Blame.bad {before : List Declaration} {d : Declaration}
    (h : d.Blame x before fault) : d.Bad x before := by
  rcases h with ⟨⟨front, c, back, hc, -, hfault⟩ | ⟨-, hlink, -⟩⟩ | ⟨-, htaken⟩
  · refine .inl ⟨c, by simp [hc], ?_⟩
    cases d with
    | kind k => exact KindFault.refuses hfault
    | type t => exact TypeFault.refuses hfault
  · exact .inr (.inl ⟨_, _, hlink⟩)
  · exact .inr (.inr htaken)

theorem Declaration.KindFault.settles {α : Type} (h : KindFault x c fault) :
    Settles (.error fault : Except BuildFault α) (¬ KindRefuses x c) (KindFault x c) :=
  .report (fun hc => hc h.refuses) fun _ => ⟨h.unique, fun heq => heq ▸ h⟩

theorem Declaration.TypeFault.settles {α : Type} (h : TypeFault x c fault) :
    Settles (.error fault : Except BuildFault α) (¬ TypeRefuses x c) (TypeFault x c) :=
  .report (fun hc => hc h.refuses) fun _ => ⟨h.unique, fun heq => heq ▸ h⟩

theorem Declaration.kind_takes {α : Type} {a : α} (h : ¬ KindRefuses x c) :
    Settles (.ok a) (¬ KindRefuses x c) (KindFault x c) :=
  .success h fun _ hfault => h hfault.refuses

theorem Declaration.type_takes {α : Type} {a : α} (h : ¬ TypeRefuses x c) :
    Settles (.ok a) (¬ TypeRefuses x c) (TypeFault x c) :=
  .success h fun _ hfault => h hfault.refuses

variable (cx : BuildContext)

theorem BuildContext.create_settles (c : Connector) (s : Construction) :
    Settles (cx.create c s) (¬ KindRefuses cx.extensions c) (KindFault cx.extensions c) := by
  cases c with
  | error message => exact kind_takes not_false
  | store root format => exact kind_takes not_false
  | remote endpoint =>
    rw [create, Remote.ofEndpoint]
    by_cases h : normalizeEndpoint endpoint = ""
    · rw [if_pos h]
      exact (KindFault.endpoint h).settles
    · rw [if_neg h]
      exact kind_takes h
  | extension name =>
    cases ha : cx.extensions.hasAspect name with
    | true =>
      obtain ⟨a, hget⟩ := (SortedMap.contains_eq_true_iff _).1 ha
      rw [create, hget]
      exact kind_takes (by simp [KindRefuses, ha])
    | false =>
      rw [create, (SortedMap.contains_eq_false_iff _).1 ha]
      dsimp only
      cases hc : cx.extensions.hasConnector name with
      | true => exact (KindFault.mismatch ha hc).settles
      | false => exact (KindFault.unknown ha hc).settles
  | unset => exact KindFault.unset.settles

theorem BuildContext.aspect_settles (c : Connector) (s : Construction) :
    Settles (cx.aspect c s) (¬ KindRefuses cx.extensions c) (KindFault cx.extensions c) :=
  (cx.create_settles c s).returning fun fresh => cx.inject fresh.1 fresh.2

theorem BuildContext.connector_settles (c : Connector) :
    Settles (cx.connector c) (¬ TypeRefuses cx.extensions c) (TypeFault cx.extensions c) := by
  cases c with
  | error message => exact TypeFault.error.settles
  | store root format => exact TypeFault.store.settles
  | remote endpoint => exact TypeFault.remote.settles
  | extension name =>
    cases hc : cx.extensions.hasConnector name with
    | true =>
      obtain ⟨t, hget⟩ := (SortedMap.contains_eq_true_iff _).1 hc
      rw [connector, hget]
      exact type_takes fun h => h ⟨name, rfl, hc⟩
    | false =>
      rw [connector, (SortedMap.contains_eq_false_iff _).1 hc]
      dsimp only
      cases ha : cx.extensions.hasAspect name with
      | true => exact (TypeFault.mismatch hc ha).settles
      | false => exact (TypeFault.unknown hc ha).settles
  | unset => exact TypeFault.unset.settles

end connectors

/-! ## Chains -/

section chains
open Declaration

theorem Template.compileAll_settles (k : EntityKind) :
    Settles (compileAll k) (∀ link cause, ¬ (Declaration.kind k).BadLink link cause)
      (fun cause => ∃ link, (Declaration.kind k).BadLink link cause ∧
        ∀ link' < link, ∀ cause', ¬ (Declaration.kind k).BadLink link' cause') := by
  have hcompiles (link template : String) :
      (∃ t, compile k link template = .ok t) ↔ ∀ cause, compile k link template ≠ .error cause := by
    cases compile k link template <;> simp
  refine (Settles.mapM (fun p : String × String => Settles.self (compile k p.1 p.2)) 0
    k.links.entries).congr ?_ fun cause => ?_
  · constructor
    · rintro h link cause ⟨template, hl, hc⟩
      exact (hcompiles link template).1 (h (link, template) ((k.links.mem_entries_iff).2 hl)) cause hc
    · rintro h ⟨link, template⟩ hl
      rw [SortedMap.mem_entries_iff] at hl
      exact (hcompiles link template).2 fun cause hc => h link cause ⟨template, hl, hc⟩
  · rw [SortedMap.firstAt_entries_iff]
    constructor
    · rintro ⟨link, template, hl, hc, hfirst⟩
      refine ⟨link, ⟨template, hl, hc⟩, ?_⟩
      rintro link' hlt cause' ⟨template', hl', hc'⟩
      exact (hcompiles link' template').1 (hfirst link' hlt template' hl') cause' hc'
    · rintro ⟨link, ⟨template, hl, hc⟩, hfirst⟩
      refine ⟨link, template, hl, hc, fun link' hlt template' hl' => ?_⟩
      exact (hcompiles link' template').2 fun cause' hc' => hfirst link' hlt cause' ⟨template', hl', hc'⟩

variable (cx : BuildContext)

theorem AspectChain.closing_settles (k : EntityKind) :
    Settles (closing k) (∀ link cause, ¬ (Declaration.kind k).BadLink link cause)
      (fun fault => ∃ cause, (∃ link, (Declaration.kind k).BadLink link cause ∧
        ∀ link' < link, ∀ cause', ¬ (Declaration.kind k).BadLink link' cause') ∧
        fault = .invalidTemplate cause) :=
  (Template.compileAll_settles k).follow BuildFault.invalidTemplate
    (fun _ ht => ⟨_, by unfold closing; rw [ht]⟩) (fun _ hcause => by unfold closing; rw [hcause])

theorem AspectChain.build_settles (k : EntityKind) (s : Construction) :
    Settles (build cx k s) ((Declaration.kind k).Buildable cx.extensions)
      (fun e => ∃ fault, (Declaration.kind k).ChainFault cx.extensions fault ∧
        e = ⟨k.id.text, fault⟩) := by
  have haspects := (Settles.mapM_state cx.aspect_settles 0 k.connectors s).seq fun declared _ =>
    ((closing_settles k).returning (·, declared.2)).returning fun closed =>
      ((⟨k, declared.1 ++ closed.1⟩ : AspectChain), closed.2)
  have hbuild : Settles (build cx k s) _ _ := haspects.follow (BuildError.mk k.id.text)
    (fun made h => ⟨made, congrArg (Except.mapError _) h⟩) (fun _ h => congrArg (Except.mapError _) h)
  refine hbuild.congr Iff.rfl fun e => exists_congr fun fault => and_congr_left fun _ => ?_
  constructor
  · rintro (h | ⟨hc, cause, ⟨link, h, hfirst⟩, rfl⟩)
    · exact .connector h
    · exact .link hc h hfirst
  · intro h
    cases h with
    | connector h => exact .inl h
    | link hc h hfirst => exact .inr ⟨hc, _, ⟨_, h, hfirst⟩, rfl⟩

theorem ConnectorChain.build_settles (t : TypeDecl) :
    Settles (build cx t) ((Declaration.type t).Buildable cx.extensions)
      (fun e => ∃ fault, (Declaration.type t).ChainFault cx.extensions fault ∧
        e = ⟨t.name, fault⟩) := by
  refine ((Settles.mapM cx.connector_settles 0 t.connectors).follow (BuildError.mk t.name)
    (fun _ h => ⟨_, by rw [build, h]⟩) (fun _ h => by rw [build, h])).congr ?_ ?_
  · exact ⟨fun h => ⟨h, fun _ _ h => h⟩, fun h => h.1⟩
  · intro e
    refine exists_congr fun fault => and_congr_left fun _ => ⟨fun h => .connector h, fun h => ?_⟩
    cases h with
    | connector h => exact h
    | link _ h => exact h.elim

end chains

end EntityCatalog
