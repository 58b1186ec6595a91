import EntityCatalog.Proofs.Schema.Conformance

/-!
# The check of a thing

The check of every part of a value is settled by the relations on it: it passes exactly on conforming
parts, and reports exactly the first violation. The four walks call each other, so their induction is
on the size of the value, not on the types.
-/

namespace EntityCatalog

open Json (Value)

namespace TypeRegistry

variable (r : TypeRegistry)

/-- The check of one member of a message. -/
def checkMember (d : Descriptor) (path name : String) (v : Value) : Except MessageError Unit :=
  match d.field? name with
  | none => .error (.unknownField d.fullName name)
  | some field =>
    if field.repeated then
      match v with
      | .array items => r.checkItems d field (path ++ "/" ++ name) 0 items
      | _ => .error (.wrongKind d.fullName field.name field.kind)
    else r.checkField d field (path ++ "/" ++ name) v

/-- The check of one entry of a map of messages. -/
def checkEntry (d : Descriptor) (path : String) : Value → Except MessageError Unit
  | .object inner => r.checkMembers d path inner
  | _ => .ok ()

theorem checkMembers_cons (d : Descriptor) (path name : String) (v : Value)
    (rest : List (String × Value)) :
    r.checkMembers d path ((name, v) :: rest) =
      (r.checkMember d path name v >>= fun _ => r.checkMembers d path rest) := by
  rw [checkMembers, checkMember]
  cases d.field? name with
  | none => rfl
  | some field =>
    dsimp only
    cases field.repeated with
    | false => rfl
    | true => cases v <;> rfl

theorem checkEntries_cons (d : Descriptor) (path name : String) (v : Value)
    (rest : List (String × Value)) :
    r.checkEntries d path ((name, v) :: rest) =
      (r.checkEntry d (path ++ "/" ++ name) v >>= fun _ => r.checkEntries d path rest) := by
  cases v <;> simp [checkEntries, checkEntry]

theorem checkPlain_settles {d : Descriptor} {f : FieldDescriptor} {path : String} {v : Value}
    (hp : Plain f v) :
    Settles (checkPlain d f v) (r.Fits f v) (r.FieldFault d f path v) := by
  unfold checkPlain
  split
  · next h =>
    rw [Bool.or_eq_true, isNull_iff] at h
    exact .success ((fits_iff_of_plain hp).2 h) fun e he => ((fieldFault_iff_of_plain hp).1 he).1 h
  · next h =>
    rw [Bool.or_eq_true, isNull_iff] at h
    refine .report (fun hf => h ((fits_iff_of_plain hp).1 hf)) fun e => ?_
    rw [fieldFault_iff_of_plain hp]
    simp [h]

theorem object_settles {d : Descriptor} {path : String} {members : List (String × Value)}
    (h : Settles (r.checkMembers d path members)
      (∀ p ∈ members, r.MemberConforms d p.1 p.2)
      (fun e => FirstAt (fun p => r.MemberConforms d p.1 p.2)
        (fun _ p => r.MemberFault d path p.1 p.2 e) 0 members)) :
    Settles (r.checkMembers d path members) (r.Conforms d (.object members))
      (r.MessageFault d path (.object members)) :=
  h.congr conforms_object_iff.symm fun _ => messageFault_object_iff.symm

/-- A member is settled by the checks of its value as one value and as a list of items. -/
theorem member_settles {d : Descriptor} {path name : String} {v : Value}
    (hfield : ∀ f path, Settles (r.checkField d f path v) (r.Fits f v) (r.FieldFault d f path v))
    (hitems : ∀ items, v = .array items → ∀ f path, Settles (r.checkItems d f path 0 items)
      (∀ w ∈ items, r.Fits f w)
      (fun e => FirstAt (r.Fits f)
        (fun i w => r.FieldFault d f (path ++ "/" ++ toString i) w e) 0 items)) :
    Settles (r.checkMember d path name v) (r.MemberConforms d name v)
      (r.MemberFault d path name v) := by
  unfold checkMember
  cases hf : d.field? name with
  | none => exact .report (not_memberConforms hf) fun e => memberFault_iff_of_undeclared hf
  | some f =>
    cases hr : f.repeated with
    | false =>
      simp only [hr, Bool.false_eq_true, if_false]
      exact (hfield f (path ++ "/" ++ name)).congr (memberConforms_iff_of_single hf hr).symm
        fun e => (memberFault_iff_of_single hf hr).symm
    | true =>
      simp only [hr, if_true]
      split
      · next items =>
        exact (hitems items rfl f (path ++ "/" ++ name)).congr
          (memberConforms_array_iff hf hr).symm fun e => (memberFault_array_iff hf hr).symm
      · next hv =>
        exact .report (not_memberConforms_of_not_array hf hr hv)
          fun e => memberFault_iff_of_not_array hf hr hv

theorem resolved_settles {d : Descriptor} {f : FieldDescriptor} {path t : String}
    {members : List (String × Value)} (hk : f.kind = .message ∨ f.kind = .map)
    (ht : f.typeName = some t) {walk : Descriptor → Except MessageError Unit}
    (hwalk : ∀ nested, r.find? t = some nested → Settles (walk nested) (r.Fits f (.object members))
      (r.FieldFault d f path (.object members))) :
    Settles (do walk (← r.resolve t)) (r.Fits f (.object members))
      (r.FieldFault d f path (.object members)) := by
  unfold resolve
  cases hd : r.find? t with
  | none =>
    exact .report (not_fits_of_unresolved hk ht hd) fun e => fieldFault_unresolved_iff hk ht hd
  | some nested => exact hwalk nested hd

theorem field_settles {d : Descriptor} {f : FieldDescriptor} {path : String}
    {members : List (String × Value)}
    (hmembers : ∀ nested, Settles (r.checkMembers nested path members)
      (r.Conforms nested (.object members)) (r.MessageFault nested path (.object members)))
    (hentries : ∀ nested, Settles (r.checkEntries nested path members)
      (∀ p ∈ members, r.EntryConforms nested p.2)
      (fun e => FirstAt (fun p => r.EntryConforms nested p.2)
        (fun _ p => r.EntryFault nested (path ++ "/" ++ p.1) p.2 e) 0 members)) :
    Settles (r.checkField d f path (.object members)) (r.Fits f (.object members))
      (r.FieldFault d f path (.object members)) := by
  rw [checkField]
  split
  · next t hk ht =>
    refine resolved_settles r (.inl hk) ht fun nested hd => (hmembers nested).congr ?_ fun e => ?_
    · exact (fits_message_iff hk ht hd).symm
    · exact (fieldFault_message_iff hk ht hd).symm
  · next t hk ht =>
    refine resolved_settles r (.inr hk) ht fun nested hd => (hentries nested).congr ?_ fun e => ?_
    · exact (fits_map_iff hk ht hd).symm
    · exact (fieldFault_map_iff hk ht hd).symm
  · next hm hp =>
    refine checkPlain_settles r ?_
    rintro members' t - (hk | hk) ht
    · exact hm t hk ht
    · exact hp t hk ht

theorem entry_settles {d : Descriptor} {path : String} {v : Value}
    (h : ∀ inner, v = .object inner → Settles (r.checkMembers d path inner)
      (r.Conforms d (.object inner)) (r.MessageFault d path (.object inner))) :
    Settles (r.checkEntry d path v) (r.EntryConforms d v) (r.EntryFault d path v) := by
  unfold checkEntry
  split
  · next inner =>
    refine (h inner rfl).congr ⟨fun hc _ _ => hc, fun hc => hc inner rfl⟩ fun e => ?_
    exact ⟨fun he => ⟨inner, rfl, he⟩, fun ⟨_, _, he⟩ => he⟩
  · next hv =>
    exact .success (fun inner hi => absurd hi (hv inner)) fun e ⟨inner, hi, _⟩ => hv inner hi

mutual

theorem checkMembers_settles (d : Descriptor) (path : String) (i : Nat) :
    ∀ members, Settles (r.checkMembers d path members)
      (∀ p ∈ members, r.MemberConforms d p.1 p.2)
      (fun e => FirstAt (fun p => r.MemberConforms d p.1 p.2)
        (fun _ p => r.MemberFault d path p.1 p.2 e) i members)
  | [] => by
    rw [checkMembers]
    exact .nil
  | (name, v) :: rest => by
    rw [checkMembers_cons]
    refine .cons (member_settles r (fun f path => checkField_settles d f path v) ?_)
      fun _ _ => checkMembers_settles d path (i + 1) rest
    rintro items rfl f path
    exact checkItems_settles d f path 0 items
termination_by members => sizeOf members

theorem checkItems_settles (d : Descriptor) (f : FieldDescriptor) (path : String) (i : Nat) :
    ∀ items, Settles (r.checkItems d f path i items) (∀ v ∈ items, r.Fits f v)
      (fun e => FirstAt (r.Fits f)
        (fun i v => r.FieldFault d f (path ++ "/" ++ toString i) v e) i items)
  | [] => by
    rw [checkItems]
    exact .nil
  | v :: rest => by
    rw [checkItems]
    exact .cons (checkField_settles d f _ v) fun _ _ => checkItems_settles d f path (i + 1) rest
termination_by items => sizeOf items

theorem checkField_settles (d : Descriptor) (f : FieldDescriptor) (path : String) :
    ∀ v, Settles (r.checkField d f path v) (r.Fits f v) (r.FieldFault d f path v)
  | .object members =>
    field_settles r
      (fun nested => object_settles r (checkMembers_settles nested path 0 members))
      (fun nested => checkEntries_settles nested path 0 members)
  | .null | .bool _ | .number _ | .string _ | .array _ => by
    rw [checkField]
    · exact checkPlain_settles r nofun
    · exact nofun
termination_by v => sizeOf v

theorem checkEntries_settles (d : Descriptor) (path : String) (i : Nat) :
    ∀ members, Settles (r.checkEntries d path members) (∀ p ∈ members, r.EntryConforms d p.2)
      (fun e => FirstAt (fun p => r.EntryConforms d p.2)
        (fun _ p => r.EntryFault d (path ++ "/" ++ p.1) p.2 e) i members)
  | [] => by
    rw [checkEntries]
    exact .nil
  | (name, v) :: rest => by
    rw [checkEntries_cons]
    refine .cons (entry_settles r ?_) fun _ _ => checkEntries_settles d path (i + 1) rest
    rintro inner rfl
    exact object_settles r (checkMembers_settles d (path ++ "/" ++ name) 0 inner)
termination_by members => sizeOf members

end

theorem checkMessage_settles (d : Descriptor) (path : String) (v : Value) :
    Settles (r.checkMessage d path v) (r.Conforms d v) (r.MessageFault d path v) := by
  unfold checkMessage
  split
  · exact object_settles r (checkMembers_settles r d path 0 _)
  · next hv => exact .report (not_conforms hv) fun e => messageFault_iff_of_not_object hv

/-- **A check accepts exactly the conforming things** and reports exactly their first violation,
over any registry, also one whose types refer to each other in cycles. -/
theorem check_iff_conforms (t : Thing) :
    (r.check t = .ok () ↔ ∃ d, r.ofUrl? t.url = some d ∧ r.Conforms d t.value) ∧
      ∀ e, r.check t = .error e ↔ r.ThingFault t e := by
  unfold check
  cases hd : r.ofUrl? t.url with
  | none =>
    refine ⟨by simp, fun e => ⟨?_, ?_⟩⟩
    · rintro ⟨⟩
      exact .unresolved hd
    · rintro (_ | ⟨hd', -⟩)
      · rfl
      · simp [hd] at hd'
  | some d =>
    have h := r.checkMessage_settles d "" t.value
    refine ⟨?_, fun e => ⟨fun he => .value hd ((h.error e).1 he), ?_⟩⟩
    · simpa using h.ok_unit
    · rintro (hn | ⟨hd', hf⟩)
      · simp [hd] at hn
      · rw [← Option.some.inj (hd.symm.trans hd')] at hf
        exact (h.error e).2 hf

end TypeRegistry

end EntityCatalog
