import EntityCatalog.Proofs.Provider.Services

/-!
# Objects of extensions

While a provider is built, objects of extensions are created one after another, and each of them is given
what it opts in to before the next one is created. `BuildContext.Grows` says how construction goes on when
some objects are created. A step of it creates one object or none (`BuildContext.Makes.grows`), and the whole
run creates those that are in the chains of the provider (`Provider.Made.grows`).

An extension may bind the handle as it is given it. The first one that does decides what the handle leads
to, and if none does the finished registry will be there (`Provider.Made.published`).
-/

namespace EntityCatalog

/-! ## Objects -/

def Aspect.object? : Aspect → Option AspectObject
  | .extension o => some o
  | _ => none

/-- The objects of a chain, in the order of its aspects. -/
def AspectChain.objects (c : AspectChain) : List AspectObject := c.aspects.filterMap Aspect.object?

def Service.objects : Service → List AspectObject
  | .kind c => c.objects
  | .type _ _ | .introspection _ => []

/-- The events of one object. -/
def Construction.eventsOf (s : Construction) (o : AspectObject) : List Event :=
  s.events.filter (·.object == o.number)

/-- Extensions that look at handles and do not bind them. -/
def Extensions.LeaveUnbound (extensions : Extensions) : Prop :=
  ∀ name x, extensions.aspects.get? name = some x → ∀ grants, x.binds grants = none

theorem Extensions.LeaveUnbound.of_no_aspects (connectors : SortedMap ThingConnector) :
    Extensions.LeaveUnbound ⟨∅, connectors⟩ := by
  intro name x hx
  cases (SortedMap.get?_empty name).symm.trans hx

namespace AspectObject
variable {o : AspectObject}

theorem filter_history : o.history.filter (·.object == o.number) = o.history := by
  simp [history, Event.object, List.filter_map, Function.comp_def]

theorem filter_history_of_ne {n : Nat} (h : o.number ≠ n) : o.history.filter (·.object == n) = [] := by
  simp [history, Event.object, List.filter_map, Function.comp_def, h]

theorem filter_histories {objects : List AspectObject} (hnumbers : (objects.map number).Nodup)
    (ho : o ∈ objects) : (objects.flatMap history).filter (·.object == o.number) = o.history := by
  have hothers {others : List AspectObject} (hne : ∀ other ∈ others, other.number ≠ o.number) :
      (others.flatMap history).filter (·.object == o.number) = [] := by
    rw [List.filter_flatMap, List.flatMap_eq_nil_iff]
    exact fun other hother => filter_history_of_ne (hne other hother)
  obtain ⟨before, after, rfl⟩ := List.append_of_mem ho
  rw [List.map_append, List.map_cons, List.nodup_append, List.nodup_cons] at hnumbers
  obtain ⟨-, ⟨hafter, -⟩, hbefore⟩ := hnumbers
  have hfront : ∀ other ∈ before, other.number ≠ o.number := fun other hother =>
    hbefore _ (List.mem_map_of_mem hother) _ List.mem_cons_self
  have hback : ∀ other ∈ after, other.number ≠ o.number := fun other hother heq =>
    hafter (heq ▸ List.mem_map_of_mem hother)
  rw [List.flatMap_append, List.flatMap_cons, List.filter_append, List.filter_append, hothers hfront,
    hothers hback, filter_history, List.nil_append, List.append_nil]

end AspectObject

/-! ## The growth of construction -/

namespace BuildContext
variable {cx : BuildContext} {s mid s' : Construction} {objects objects' : List AspectObject}
  {o : AspectObject} {r : TypeRegistry}

/-- An object as it is given things: its extension is registered, and it has just what that opts in to. If
the handle led anywhere when it was given, it still leads there. -/
structure Admits (cx : BuildContext) (s : Construction) (o : AspectObject) : Prop where
  registered : ∃ name, cx.extensions.aspects.get? name = some o.extension
  given : ∃ seen, o.grants = cx.repositoryGrants o.extension ++ cx.providerGrants o.extension seen ∧
    (seen = none ∨ seen = s.bindings.types? cx.handle)

/-- Construction goes on, and some objects are created. -/
structure Grows (cx : BuildContext) (s : Construction) (objects : List AspectObject)
    (s' : Construction) : Prop where
  events : s'.events = s.events ++ objects.flatMap AspectObject.history
  numbers : objects.map AspectObject.number = List.range' s.objects objects.length
  count : s'.objects = s.objects + objects.length
  cells : s'.bindings.cells.length = s.bindings.cells.length
  kept : ∀ r, s.bindings.types? cx.handle = some r → s'.bindings.types? cx.handle = some r
  bound : ∀ r, s'.bindings.types? cx.handle = some r →
    s.bindings.types? cx.handle = some r ∨ ∃ o ∈ objects, o.extension.binds o.grants = some r
  admitted : ∀ o ∈ objects, cx.Admits s' o

theorem Admits.mono (h : cx.Admits s o)
    (hkept : ∀ r, s.bindings.types? cx.handle = some r → s'.bindings.types? cx.handle = some r) :
    cx.Admits s' o := by
  obtain ⟨hregistered, seen, hgrants, hseen⟩ := h
  refine ⟨hregistered, seen, hgrants, ?_⟩
  cases seen with
  | none => exact .inl rfl
  | some r => exact .inr (hkept r (hseen.resolve_left nofun).symm).symm

theorem Grows.refl : cx.Grows s [] s :=
  ⟨by simp, rfl, rfl, rfl, fun _ h => h, fun _ h => .inl h, by simp⟩

theorem Grows.trans (h : cx.Grows s objects mid) (h' : cx.Grows mid objects' s') :
    cx.Grows s (objects ++ objects') s' := by
  refine ⟨?_, ?_, ?_, h'.cells.trans h.cells, fun r hr => h'.kept r (h.kept r hr), fun r hr => ?_, ?_⟩
  · rw [h'.events, h.events, List.flatMap_append, List.append_assoc]
  · rw [List.map_append, h.numbers, h'.numbers, h.count, List.length_append, List.range'_append_1]
  · rw [h'.count, h.count, List.length_append, Nat.add_assoc]
  · rcases h'.bound r hr with hmid | ⟨o, ho, hbinds⟩
    · rcases h.bound r hmid with hs | ⟨o, ho, hbinds⟩
      · exact .inl hs
      · exact .inr ⟨o, List.mem_append_left _ ho, hbinds⟩
    · exact .inr ⟨o, List.mem_append_right _ ho, hbinds⟩
  · exact List.forall_mem_append.2 ⟨fun o ho => (h.admitted o ho).mono h'.kept, h'.admitted⟩

theorem binds_of_bound? (h : cx.bound? o = some r) : o.extension.binds o.grants = some r := by
  unfold bound? at h
  split at h
  · exact h
  · cases h

theorem cells_admitted (x : AspectExtension) (s : Construction) :
    (cx.admitted x s).bindings.cells.length = s.bindings.cells.length := by
  rw [admitted]
  cases cx.bound? (cx.object x s) with
  | none => rfl
  | some types => exact Bindings.length_bind s.bindings cx.handle types

/-- The handle leads where it led before, or else where the new object has bound it to. -/
theorem types?_admitted (x : AspectExtension) (hcell : cx.handle.cell < s.bindings.cells.length) :
    (cx.admitted x s).bindings.types? cx.handle =
      (s.bindings.types? cx.handle).or (cx.bound? (cx.object x s)) := by
  rw [admitted]
  cases cx.bound? (cx.object x s) with
  | none => exact Option.or_none.symm
  | some types => rw [Bindings.types?_bind hcell, Option.or_some]

/-- The step: one object is created, and given what it opts in to. -/
theorem grows_admitted {name : String} {x : AspectExtension}
    (hx : cx.extensions.aspects.get? name = some x) (hcell : cx.handle.cell < s.bindings.cells.length) :
    cx.Grows s [cx.object x s] (cx.admitted x s) := by
  have hkept (r : TypeRegistry) (hr : s.bindings.types? cx.handle = some r) :
      (cx.admitted x s).bindings.types? cx.handle = some r := by
    rw [types?_admitted x hcell, hr, Option.some_or]
  refine ⟨?_, rfl, rfl, cells_admitted x s, hkept, fun r hr => ?_,
    List.forall_mem_singleton.2 ⟨⟨name, hx⟩, s.bindings.types? cx.handle, rfl, ?_⟩⟩
  · rw [List.flatMap_singleton, admitted]
  · rw [types?_admitted x hcell, Option.or_eq_some_iff] at hr
    exact hr.imp_right fun hbound => ⟨_, List.mem_singleton_self _, binds_of_bound? hbound.2⟩
  · cases hs : s.bindings.types? cx.handle with
    | none => exact .inl rfl
    | some r => exact .inr (hkept r hs).symm

theorem Makes.grows {declared : Connector} {a : Aspect} (h : cx.Makes declared s a s')
    (hcell : cx.handle.cell < s.bindings.cells.length) : cx.Grows s a.object?.toList s' := by
  cases h with
  | error => exact .refl
  | store => exact .refl
  | remote => exact .refl
  | extension hx => exact grows_admitted hx hcell

/-- If each step creates the objects of what it makes, then the run creates those of all that it makes. -/
theorem Grows.run {α β : Type} {step : α → Construction → β → Construction → Prop}
    (made : β → List AspectObject)
    (hstep : ∀ a s b s', step a s b s' → cx.handle.cell < s.bindings.cells.length →
      cx.Grows s (made b) s')
    {l : List α} {bs : List β} (h : Threads step l s bs s')
    (hcell : cx.handle.cell < s.bindings.cells.length) : cx.Grows s (bs.flatMap made) s' := by
  induction h with
  | nil => exact .refl
  | cons h _ ih =>
    have hfirst := hstep _ _ _ _ h hcell
    rw [List.flatMap_cons]
    exact hfirst.trans (ih (hfirst.cells.symm ▸ hcell))

end BuildContext

theorem AspectChain.grows_of_build {cx : BuildContext} {kind : EntityKind} {c : AspectChain}
    {s s' : Construction} (h : build cx kind s = .ok (c, s'))
    (hcell : cx.handle.cell < s.bindings.cells.length) : cx.Grows s c.objects s' := by
  obtain ⟨-, declared, templates, hdeclared, -, haspects⟩ := build_eq_ok h
  have hgrows := BuildContext.Grows.run (·.object?.toList) (fun _ _ _ _ => BuildContext.Makes.grows)
    hdeclared hcell
  have hobjects : c.objects = declared.flatMap fun a => a.object?.toList := by
    rw [objects, haspects, List.filterMap_append, ← List.filterMap_eq_flatMap_toList]
    exact List.append_nil _
  rwa [hobjects]

namespace Provider

variable {kinds : KindRepository} {types : TypeRepository} {extensions : Extensions}
  {config : Config} {p : Provider} {made : List Service} {last : Construction}

theorem Declares.grows {cx : BuildContext} {d : Declaration} {service : Service} {s s' : Construction}
    (h : Declares cx d s service s') (hcell : cx.handle.cell < s.bindings.cells.length) :
    cx.Grows s service.objects s' := by
  cases h with
  | kind hc => exact AspectChain.grows_of_build hc hcell
  | type => exact .refl

/-- The run: all objects of a provider are created, one after another. -/
theorem Made.grows (h : Made kinds types extensions config p made last) :
    (context kinds extensions config).Grows started (made.flatMap Service.objects) last :=
  .run Service.objects (fun _ _ _ _ => Declares.grows) h.run Nat.zero_lt_one

theorem Made.published (h : Made kinds types extensions config p made last) :
    p.bindings.types? p.handle = some ((last.bindings.types? p.handle).getD p.types) := by
  have hcell : p.handle.cell < last.bindings.cells.length := by
    rw [h.grows.cells, h.handle_eq]
    exact Nat.zero_lt_one
  rw [h.bindings_eq, Bindings.types?_bind hcell]

theorem Made.bound (h : Made kinds types extensions config p made last) {r : TypeRegistry}
    (hr : last.bindings.types? p.handle = some r) :
    ∃ o ∈ made.flatMap Service.objects, o.extension.binds o.grants = some r := by
  rw [h.handle_eq] at hr
  exact (h.grows.bound r hr).resolve_left nofun

theorem Made.unbound (h : Made kinds types extensions config p made last)
    (hleave : extensions.LeaveUnbound) : last.bindings.types? p.handle = none := by
  cases hr : last.bindings.types? p.handle with
  | none => rfl
  | some r =>
    obtain ⟨o, ho, hbinds⟩ := h.bound hr
    obtain ⟨name, hregistered⟩ := (h.grows.admitted o ho).registered
    rw [hleave name o.extension hregistered] at hbinds
    cases hbinds

/-- On every request services find this registry where the handle leads. -/
def Publishes (p : Provider) (r : TypeRegistry) : Prop :=
  ∀ world, (p.env world).bindings.types? p.handle = some r

/-- There is one registry that the handle leads to, and it is the finished one if extensions leave the
handle unbound. -/
theorem published_of_build (h : build kinds types extensions config = .ok p) :
    ∃ r, p.Publishes r ∧ (extensions.LeaveUnbound → r = p.types) := by
  obtain ⟨made, last, hmade⟩ := made_of_build h
  exact ⟨_, fun _ => hmade.published, fun hleave => by rw [hmade.unbound hleave, Option.getD_none]⟩

section published
variable {r : TypeRegistry}

theorem types_env (h : p.Publishes r) (world : World) (j : Journal) :
    Service.types p.handle (p.env world) j = (.ok r, j) := by
  simp [Service.types, Run.env, h world]

theorem listDescriptors_eq (h : p.Publishes r) (world : World) (j : Journal) (request : ListRequest) :
    Service.listDescriptors p.handle request (p.env world) j =
      (if request.kind = Service.descriptorKind then .ok (r.descriptors.map Service.descriptorEntity)
        else .error (.invalidRequest (.misdirected request.kind Builtin.descriptor)), j) := by
  unfold Service.listDescriptors
  by_cases hkind : request.kind = Service.descriptorKind
  · rw [if_neg (not_not.2 hkind), if_pos hkind, Run.bind_apply, types_env h]
    rfl
  · rw [if_pos hkind, if_neg hkind]
    rfl

end published

end Provider

end EntityCatalog
