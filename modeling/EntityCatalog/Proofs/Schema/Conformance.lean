import EntityCatalog.Proofs.Traversal
import EntityCatalog.Schema.Conformance

/-!
# What it means to conform

`TypeRegistry.Conforms` says which values conform to a descriptor, and `MessageFault` what is the
first violation in a value that does not, without looking at how a check proceeds. The relations
follow types by name through the registry, so a type may refer to itself. A derivation still ends,
because it descends in the value.
-/

namespace EntityCatalog

open Json (Value Number)

/-- The values of a kind that holds neither messages nor maps. Null is not among them. -/
inductive FieldKind.Holds : FieldKind → Value → Prop
  | string (s : String) : Holds .string (.string s)
  | bytes (s : String) : Holds .bytes (.string s)
  | bool (b : Bool) : Holds .bool (.bool b)
  | int64 (i : Int) : Holds .int64 (.number (.int i))
  | int64Text (s : String) : Holds .int64 (.string s)
  | double (n : Number) : Holds .double (.number n)
  | struct (v : Value) : Holds .struct v

namespace TypeRegistry

/-! ## Conforming values -/

mutual

/-- A value conforms to a descriptor: it is an object, and all its members do. -/
inductive Conforms (r : TypeRegistry) : Descriptor → Value → Prop
  | object {d : Descriptor} {members : List (String × Value)}
      (h : ∀ name v, (name, v) ∈ members → MemberConforms r d name v) :
      Conforms r d (.object members)

/-- A member is declared, and its value fits the first field of its name. -/
inductive MemberConforms (r : TypeRegistry) : Descriptor → String → Value → Prop
  | single {d : Descriptor} {name : String} {field : FieldDescriptor} {v : Value}
      (hf : d.field? name = some field) (hr : field.repeated = false) (h : Fits r field v) :
      MemberConforms r d name v
  | repeated {d : Descriptor} {name : String} {field : FieldDescriptor} {items : List Value}
      (hf : d.field? name = some field) (hr : field.repeated = true)
      (h : ∀ v ∈ items, Fits r field v) : MemberConforms r d name (.array items)

/-- One value fits a field. -/
inductive Fits (r : TypeRegistry) : FieldDescriptor → Value → Prop
  | null {f : FieldDescriptor} : Fits r f .null
  | plain {f : FieldDescriptor} {v : Value} (h : f.kind.Holds v) : Fits r f v
  /-- A message may be written as anything but an object. -/
  | loose {f : FieldDescriptor} {v : Value} (hk : f.kind = .message)
      (hv : ∀ members, v ≠ .object members) : Fits r f v
  | untypedMessage {f : FieldDescriptor} {v : Value} (hk : f.kind = .message)
      (ht : f.typeName = none) : Fits r f v
  | message {f : FieldDescriptor} {t : String} {d : Descriptor} {members : List (String × Value)}
      (hk : f.kind = .message) (ht : f.typeName = some t) (hd : r.find? t = some d)
      (h : Conforms r d (.object members)) : Fits r f (.object members)
  | untypedMap {f : FieldDescriptor} {members : List (String × Value)} (hk : f.kind = .map)
      (ht : f.typeName = none) : Fits r f (.object members)
  | map {f : FieldDescriptor} {t : String} {d : Descriptor} {members : List (String × Value)}
      (hk : f.kind = .map) (ht : f.typeName = some t) (hd : r.find? t = some d)
      (h : ∀ name inner, (name, .object inner) ∈ members → Conforms r d (.object inner)) :
      Fits r f (.object members)

end

/-! ## First violations -/

mutual

/-- The first violation in a value that should conform to a descriptor. -/
inductive MessageFault (r : TypeRegistry) : Descriptor → String → Value → MessageError → Prop
  | notAnObject {d : Descriptor} {path : String} {v : Value} (hv : ∀ members, v ≠ .object members) :
      MessageFault r d path v (.notAnObject d.fullName path)
  | member {d : Descriptor} {path name : String} {v : Value} {before after : List (String × Value)}
      {e : MessageError} (hb : ∀ p ∈ before, MemberConforms r d p.1 p.2)
      (h : MemberFault r d path name v e) :
      MessageFault r d path (.object (before ++ (name, v) :: after)) e

/-- The first violation in a member of a message. -/
inductive MemberFault (r : TypeRegistry) : Descriptor → String → String → Value → MessageError → Prop
  | undeclared {d : Descriptor} {path name : String} {v : Value} (hf : d.field? name = none) :
      MemberFault r d path name v (.unknownField d.fullName name)
  | notAnArray {d : Descriptor} {path name : String} {field : FieldDescriptor} {v : Value}
      (hf : d.field? name = some field) (hr : field.repeated = true)
      (hv : ∀ items, v ≠ .array items) :
      MemberFault r d path name v (.wrongKind d.fullName field.name field.kind)
  | item {d : Descriptor} {path name : String} {field : FieldDescriptor} {v : Value}
      {before after : List Value} {e : MessageError} (hf : d.field? name = some field)
      (hr : field.repeated = true) (hb : ∀ w ∈ before, Fits r field w)
      (h : FieldFault r d field (path ++ "/" ++ name ++ "/" ++ toString before.length) v e) :
      MemberFault r d path name (.array (before ++ v :: after)) e
  | single {d : Descriptor} {path name : String} {field : FieldDescriptor} {v : Value}
      {e : MessageError} (hf : d.field? name = some field) (hr : field.repeated = false)
      (h : FieldFault r d field (path ++ "/" ++ name) v e) : MemberFault r d path name v e

/-- The first violation in one value of a field. -/
inductive FieldFault (r : TypeRegistry) :
    Descriptor → FieldDescriptor → String → Value → MessageError → Prop
  | notHeld {d : Descriptor} {f : FieldDescriptor} {path : String} {v : Value} (hn : v ≠ .null)
      (hm : f.kind ≠ .message) (hp : f.kind ≠ .map) (hv : ¬ f.kind.Holds v) :
      FieldFault r d f path v (.wrongKind d.fullName f.name f.kind)
  | notAMap {d : Descriptor} {f : FieldDescriptor} {path : String} {v : Value} (hn : v ≠ .null)
      (hk : f.kind = .map) (hv : ∀ members, v ≠ .object members) :
      FieldFault r d f path v (.wrongKind d.fullName f.name f.kind)
  | unresolved {d : Descriptor} {f : FieldDescriptor} {path t : String}
      {members : List (String × Value)} (hk : f.kind = .message ∨ f.kind = .map)
      (ht : f.typeName = some t) (hd : r.find? t = none) :
      FieldFault r d f path (.object members) (.unknownType t)
  | message {d nested : Descriptor} {f : FieldDescriptor} {path t : String}
      {members : List (String × Value)} {e : MessageError} (hk : f.kind = .message)
      (ht : f.typeName = some t) (hd : r.find? t = some nested)
      (h : MessageFault r nested path (.object members) e) :
      FieldFault r d f path (.object members) e
  | entry {d nested : Descriptor} {f : FieldDescriptor} {path t name : String}
      {inner : List (String × Value)} {before after : List (String × Value)} {e : MessageError}
      (hk : f.kind = .map) (ht : f.typeName = some t) (hd : r.find? t = some nested)
      (hb : ∀ key inner, (key, .object inner) ∈ before → Conforms r nested (.object inner))
      (h : MessageFault r nested (path ++ "/" ++ name) (.object inner) e) :
      FieldFault r d f path (.object (before ++ (name, .object inner) :: after)) e

end

/-- The first violation of a thing. -/
inductive ThingFault (r : TypeRegistry) : Thing → MessageError → Prop
  | unresolved {t : Thing} (h : r.ofUrl? t.url = none) : ThingFault r t (.unknownType t.url)
  | value {t : Thing} {d : Descriptor} {e : MessageError} (hd : r.ofUrl? t.url = some d)
      (h : MessageFault r d "" t.value e) : ThingFault r t e

/-! ## Inversion -/

section inversion
variable {r : TypeRegistry} {d : Descriptor} {f : FieldDescriptor} {path name : String} {v : Value}
  {members : List (String × Value)} {e : MessageError}

theorem not_single {f' : FieldDescriptor} (hf : d.field? name = some f) (hr : f.repeated = true)
    (hf' : d.field? name = some f') (hr' : f'.repeated = false) : False := by
  rw [← Option.some.inj (hf.symm.trans hf'), hr] at hr'
  cases hr'

theorem conforms_object_iff :
    r.Conforms d (.object members) ↔ ∀ p ∈ members, r.MemberConforms d p.1 p.2 := by
  constructor
  · rintro ⟨h⟩ ⟨name, v⟩ hp
    exact h name v hp
  · intro h
    exact .object fun name v hp => h (name, v) hp

theorem messageFault_object_iff :
    r.MessageFault d path (.object members) e ↔
      FirstAt (fun p : String × Value => r.MemberConforms d p.1 p.2)
        (fun _ p => r.MemberFault d path p.1 p.2 e) 0 members := by
  constructor
  · intro h
    generalize hv : Value.object members = v at h
    cases h with
    | notAnObject hn => exact absurd hv.symm (hn members)
    | member hb h =>
      cases hv
      exact ⟨_, _, _, rfl, hb, h⟩
  · rintro ⟨before, ⟨name, v⟩, after, rfl, hb, h⟩
    exact .member hb h

theorem not_conforms (hv : ∀ members, v ≠ .object members) : ¬ r.Conforms d v := by
  rintro ⟨-⟩
  exact hv _ rfl

theorem messageFault_iff_of_not_object (hv : ∀ members, v ≠ .object members) :
    r.MessageFault d path v e ↔ e = .notAnObject d.fullName path := by
  constructor
  · rintro (_ | _)
    · rfl
    · exact absurd rfl (hv _)
  · rintro rfl
    exact .notAnObject hv

theorem not_memberConforms (hf : d.field? name = none) : ¬ r.MemberConforms d name v := by
  rintro (⟨hf', -, -⟩ | ⟨hf', -, -⟩) <;> simp [hf] at hf'

theorem memberFault_iff_of_undeclared (hf : d.field? name = none) :
    r.MemberFault d path name v e ↔ e = .unknownField d.fullName name := by
  constructor
  · intro h
    cases h with
    | undeclared => rfl
    | notAnArray hf' | item hf' | single hf' => simp [hf] at hf'
  · rintro rfl
    exact .undeclared hf

theorem memberConforms_iff_of_single (hf : d.field? name = some f) (hr : f.repeated = false) :
    r.MemberConforms d name v ↔ r.Fits f v := by
  constructor
  · intro h
    cases h with
    | single hf' _ h => rwa [Option.some.inj (hf.symm.trans hf')]
    | repeated hf' hr' =>
      exact (not_single hf' hr' hf hr).elim
  · exact .single hf hr

theorem memberFault_iff_of_single (hf : d.field? name = some f) (hr : f.repeated = false) :
    r.MemberFault d path name v e ↔ r.FieldFault d f (path ++ "/" ++ name) v e := by
  constructor
  · intro h
    cases h with
    | undeclared hf' => simp [hf] at hf'
    | single hf' _ h => rwa [Option.some.inj (hf.symm.trans hf')]
    | notAnArray hf' hr' | item hf' hr' =>
      exact (not_single hf' hr' hf hr).elim
  · exact .single hf hr

theorem memberConforms_array_iff {items : List Value} (hf : d.field? name = some f)
    (hr : f.repeated = true) :
    r.MemberConforms d name (.array items) ↔ ∀ v ∈ items, r.Fits f v := by
  constructor
  · intro h
    generalize hv : Value.array items = v at h
    cases h with
    | single hf' hr' =>
      exact (not_single hf hr hf' hr').elim
    | repeated hf' _ h =>
      cases hv
      rwa [Option.some.inj (hf.symm.trans hf')]
  · exact .repeated hf hr

theorem memberFault_array_iff {items : List Value} (hf : d.field? name = some f)
    (hr : f.repeated = true) :
    r.MemberFault d path name (.array items) e ↔
      FirstAt (r.Fits f)
        (fun i v => r.FieldFault d f (path ++ "/" ++ name ++ "/" ++ toString i) v e) 0 items := by
  constructor
  · intro h
    generalize hv : Value.array items = v at h
    cases h with
    | undeclared hf' => simp [hf] at hf'
    | notAnArray _ _ hn => exact absurd hv.symm (hn items)
    | item hf' _ hb h =>
      cases hv
      rw [← Option.some.inj (hf.symm.trans hf')] at hb h
      exact ⟨_, _, _, rfl, hb, by rwa [Nat.zero_add]⟩
    | single hf' hr' =>
      exact (not_single hf hr hf' hr').elim
  · rintro ⟨before, v, after, rfl, hb, h⟩
    rw [Nat.zero_add] at h
    exact .item hf hr hb h

theorem not_memberConforms_of_not_array (hf : d.field? name = some f) (hr : f.repeated = true)
    (hv : ∀ items, v ≠ .array items) : ¬ r.MemberConforms d name v := by
  intro h
  cases h with
  | single hf' hr' =>
    exact (not_single hf hr hf' hr').elim
  | repeated => exact hv _ rfl

theorem memberFault_iff_of_not_array (hf : d.field? name = some f) (hr : f.repeated = true)
    (hv : ∀ items, v ≠ .array items) :
    r.MemberFault d path name v e ↔ e = .wrongKind d.fullName f.name f.kind := by
  constructor
  · intro h
    cases h with
    | undeclared hf' => simp [hf] at hf'
    | notAnArray hf' => rw [Option.some.inj (hf.symm.trans hf')]
    | item => exact absurd rfl (hv _)
    | single hf' hr' =>
      exact (not_single hf hr hf' hr').elim
  · rintro rfl
    exact .notAnArray hf hr hv

/-- A value in which no nested type constrains anything. -/
def Plain (f : FieldDescriptor) (v : Value) : Prop :=
  ∀ members t, v = .object members → f.kind = .message ∨ f.kind = .map → f.typeName ≠ some t

theorem fits_of_holds {k : FieldKind} (h : k.Holds v) : k.fits v = true := by
  cases h <;> rfl

theorem holds_of_fits {k : FieldKind} (hm : k ≠ .message) (hp : k ≠ .map) (h : k.fits v = true) :
    k.Holds v := by
  unfold FieldKind.fits at h
  split at h
  · exact .string _
  · exact .bytes _
  · exact .bool _
  · exact .int64 _
  · exact .int64Text _
  · exact .double _
  · exact .struct _
  · exact absurd rfl hm
  · exact absurd rfl hp
  · cases h

theorem object_of_map_fits (h : FieldKind.map.fits v = true) : ∃ members, v = .object members := by
  cases v with
  | object members => exact ⟨members, rfl⟩
  | _ => cases h

theorem isNull_iff : v.isNull = true ↔ v = .null := by
  cases v <;> simp [Value.isNull]

theorem fits_iff_of_plain (hp : Plain f v) : r.Fits f v ↔ v = .null ∨ f.kind.fits v = true := by
  constructor
  · intro h
    cases h with
    | null => exact .inl rfl
    | plain h => exact .inr (fits_of_holds h)
    | loose hk | untypedMessage hk | untypedMap hk => simp [hk, FieldKind.fits]
    | message hk ht => exact absurd ht (hp _ _ rfl (.inl hk))
    | map hk ht => exact absurd ht (hp _ _ rfl (.inr hk))
  · rintro (rfl | h)
    · exact .null
    by_cases hv : ∃ members, v = .object members
    · obtain ⟨members, rfl⟩ := hv
      have untyped (hk : f.kind = .message ∨ f.kind = .map) : f.typeName = none :=
        Option.eq_none_iff_forall_ne_some.2 fun t => hp members t rfl hk
      by_cases hm : f.kind = .message
      · exact .untypedMessage hm (untyped (.inl hm))
      by_cases hk : f.kind = .map
      · exact .untypedMap hk (untyped (.inr hk))
      · exact .plain (holds_of_fits hm hk h)
    · by_cases hm : f.kind = .message
      · exact .loose hm (not_exists.1 hv)
      by_cases hk : f.kind = .map
      · exact absurd (object_of_map_fits (hk ▸ h)) hv
      · exact .plain (holds_of_fits hm hk h)

theorem fieldFault_iff_of_plain (hp : Plain f v) :
    r.FieldFault d f path v e ↔
      ¬ (v = .null ∨ f.kind.fits v = true) ∧ e = .wrongKind d.fullName f.name f.kind := by
  constructor
  · intro h
    cases h with
    | notHeld hn hm hk hv =>
      refine ⟨?_, rfl⟩
      rintro (h | h)
      · exact hn h
      · exact hv (holds_of_fits hm hk h)
    | notAMap hn hk hv =>
      refine ⟨?_, rfl⟩
      rintro (h | h)
      · exact hn h
      · obtain ⟨members, h⟩ := object_of_map_fits (hk ▸ h)
        exact hv members h
    | unresolved hk ht => exact absurd ht (hp _ _ rfl hk)
    | message hk ht => exact absurd ht (hp _ _ rfl (.inl hk))
    | entry hk ht => exact absurd ht (hp _ _ rfl (.inr hk))
  · rintro ⟨h, rfl⟩
    obtain ⟨hn, hfits⟩ := not_or.1 h
    have hm : f.kind ≠ .message := fun hm => hfits (by rw [hm]; rfl)
    by_cases hk : f.kind = .map
    · refine .notAMap hn hk fun members hv => hfits ?_
      rw [hk, hv]
      rfl
    · exact .notHeld hn hm hk fun hv => hfits (fits_of_holds hv)

/-- An entry of a map of messages conforms unless it is an object that does not. -/
def EntryConforms (r : TypeRegistry) (d : Descriptor) (v : Value) : Prop :=
  ∀ inner, v = .object inner → r.Conforms d v

/-- The first violation in an entry of a map of messages. -/
def EntryFault (r : TypeRegistry) (d : Descriptor) (path : String) (v : Value) (e : MessageError) :
    Prop :=
  ∃ inner, v = .object inner ∧ r.MessageFault d path v e

variable {nested : Descriptor} {t : String}

theorem nested_unique {t' : String} {nested' : Descriptor} (ht : f.typeName = some t)
    (hd : r.find? t = some nested) (ht' : f.typeName = some t') (hd' : r.find? t' = some nested') :
    nested' = nested := by
  rw [ht, Option.some.injEq] at ht'
  subst ht'
  exact Option.some.inj (hd'.symm.trans hd)

theorem not_resolved {t' : String} (ht : f.typeName = some t) (hd : r.find? t = none)
    (ht' : f.typeName = some t') (hd' : r.find? t' = some nested) : False := by
  rw [ht, Option.some.injEq] at ht'
  rw [← ht', hd] at hd'
  cases hd'

theorem fits_message_iff (hk : f.kind = .message) (ht : f.typeName = some t)
    (hd : r.find? t = some nested) :
    r.Fits f (.object members) ↔ r.Conforms nested (.object members) := by
  refine ⟨fun h => ?_, .message hk ht hd⟩
  cases h with
  | plain h => exact nomatch hk ▸ h
  | loose _ hv => exact absurd rfl (hv members)
  | untypedMessage _ ht' => simp [ht] at ht'
  | untypedMap hk' | map hk' => simp [hk] at hk'
  | message _ ht' hd' h => rwa [← nested_unique ht hd ht' hd']

theorem fits_map_iff (hk : f.kind = .map) (ht : f.typeName = some t)
    (hd : r.find? t = some nested) :
    r.Fits f (.object members) ↔ ∀ p ∈ members, r.EntryConforms nested p.2 := by
  constructor
  · intro h
    cases h with
    | plain h => exact nomatch hk ▸ h
    | loose hk' | untypedMessage hk' | message hk' => simp [hk] at hk'
    | untypedMap _ ht' => simp [ht] at ht'
    | map _ ht' hd' h =>
      rw [nested_unique ht hd ht' hd'] at h
      rintro ⟨name, v⟩ hp inner rfl
      exact h name inner hp
  · intro h
    exact .map hk ht hd fun name inner hp => h _ hp inner rfl

theorem not_fits_of_unresolved (hk : f.kind = .message ∨ f.kind = .map) (ht : f.typeName = some t)
    (hd : r.find? t = none) : ¬ r.Fits f (.object members) := by
  intro h
  cases h with
  | plain h => rcases hk with hk | hk <;> exact nomatch hk ▸ h
  | loose _ hv => exact hv members rfl
  | untypedMessage _ ht' | untypedMap _ ht' => simp [ht] at ht'
  | message _ ht' hd' | map _ ht' hd' => exact not_resolved ht hd ht' hd'

theorem fieldFault_unresolved_iff (hk : f.kind = .message ∨ f.kind = .map)
    (ht : f.typeName = some t) (hd : r.find? t = none) :
    r.FieldFault d f path (.object members) e ↔ e = .unknownType t := by
  constructor
  · intro h
    generalize hv : Value.object members = v at h
    cases h with
    | notHeld _ hm hp => exact absurd hk (not_or.2 ⟨hm, hp⟩)
    | notAMap _ _ hn => exact absurd hv.symm (hn members)
    | unresolved _ ht' => rw [Option.some.inj (ht.symm.trans ht')]
    | message _ ht' hd' | entry _ ht' hd' => exact (not_resolved ht hd ht' hd').elim
  · rintro rfl
    exact .unresolved hk ht hd

theorem fieldFault_message_iff (hk : f.kind = .message) (ht : f.typeName = some t)
    (hd : r.find? t = some nested) :
    r.FieldFault d f path (.object members) e ↔ r.MessageFault nested path (.object members) e := by
  refine ⟨fun h => ?_, .message hk ht hd⟩
  generalize hv : Value.object members = v at h
  cases h with
  | notHeld _ hm => exact absurd hk hm
  | notAMap _ _ hn => exact absurd hv.symm (hn members)
  | unresolved _ ht' hd' => exact (not_resolved ht' hd' ht hd).elim
  | message _ ht' hd' h =>
    cases hv
    rwa [← nested_unique ht hd ht' hd']
  | entry hk' => simp [hk] at hk'

theorem fieldFault_map_iff (hk : f.kind = .map) (ht : f.typeName = some t)
    (hd : r.find? t = some nested) :
    r.FieldFault d f path (.object members) e ↔
      FirstAt (fun p : String × Value => r.EntryConforms nested p.2)
        (fun _ p => r.EntryFault nested (path ++ "/" ++ p.1) p.2 e) 0 members := by
  constructor
  · intro h
    generalize hv : Value.object members = v at h
    cases h with
    | notHeld _ _ hp => exact absurd hk hp
    | notAMap _ _ hn => exact absurd hv.symm (hn members)
    | unresolved _ ht' hd' => exact (not_resolved ht' hd' ht hd).elim
    | message hk' => simp [hk] at hk'
    | entry _ ht' hd' hb h =>
      cases hv
      rw [nested_unique ht hd ht' hd'] at hb h
      refine ⟨_, _, _, rfl, ?_, _, rfl, h⟩
      rintro ⟨key, v⟩ hp inner rfl
      exact hb key inner hp
  · rintro ⟨before, ⟨name, v⟩, after, rfl, hb, inner, rfl, h⟩
    exact .entry hk ht hd (fun key inner hp => hb _ hp inner rfl) h

end inversion

end TypeRegistry

end EntityCatalog
