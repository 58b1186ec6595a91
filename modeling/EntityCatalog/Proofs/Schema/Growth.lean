import EntityCatalog.Proofs.Schema.Check
import EntityCatalog.Proofs.Schema.Registry

/-!
# Registries that grow

With more types a check may get past a name that was not resolved, and it changes in nothing else: the walk
is the same up to the first name that only the larger registry knows (`TypeRegistry.check_steady`). So adding
descriptors, or merging a second registry, leaves every verdict that is not about an unknown type
(`TypeRegistry.check_stable`).
-/

namespace EntityCatalog

open Json (Value)

namespace TypeRegistry

/-- Every name that a registry resolves is resolved by the other one to the same descriptor. -/
def Within (r r' : TypeRegistry) : Prop := ∀ name d, r.find? name = some d → r'.find? name = some d

/-- The verdicts of a registry and of a larger one: the same, unless the first misses a type. -/
inductive Steady {α : Type} : Except MessageError α → Except MessageError α → Prop
  | same (x : Except MessageError α) : Steady x x
  | unknown (name : String) (y : Except MessageError α) : Steady (.error (.unknownType name)) y

theorem Steady.bind {α β : Type} {x y : Except MessageError α} {f g : α → Except MessageError β}
    (h : Steady x y) (hrest : ∀ a, Steady (f a) (g a)) : Steady (x >>= f) (y >>= g) := by
  cases h with
  | same =>
    cases x with
    | error e => exact .same _
    | ok a => exact hrest a
  | unknown name => exact .unknown name _

theorem Steady.eq {α : Type} {x y : Except MessageError α} (h : Steady x y)
    (hknown : ∀ name, x ≠ .error (.unknownType name)) : y = x := by
  cases h with
  | same => rfl
  | unknown name => exact absurd rfl (hknown name)

variable {r r' : TypeRegistry} {d : Descriptor} {path name : String} {v : Value}

theorem within_add (r : TypeRegistry) (ds : List Descriptor) : r.Within (r.add ds) := by
  intro name d h
  rw [find?_add, h, Option.some_or]

theorem within_merge (r s : TypeRegistry) : r.Within (r.merge s) := within_add r s.descriptors

theorem Within.resolve (h : r.Within r') (name : String) : Steady (r.resolve name) (r'.resolve name) := by
  unfold TypeRegistry.resolve
  cases hd : r.find? name with
  | none => exact .unknown name _
  | some d =>
    rw [h name d hd]
    exact .same _

/-! ## One step of the walk -/

theorem member_steady
    (hfield : ∀ f path, Steady (r.checkField d f path v) (r'.checkField d f path v))
    (hitems : ∀ items, v = .array items → ∀ f path,
      Steady (r.checkItems d f path 0 items) (r'.checkItems d f path 0 items)) :
    Steady (r.checkMember d path name v) (r'.checkMember d path name v) := by
  unfold checkMember
  cases d.field? name with
  | none => exact .same _
  | some f =>
    dsimp only
    split
    · split
      · next items => exact hitems items rfl f _
      · exact .same _
    · exact hfield f _

/-- An object in a field is steady if its members and its entries are, whatever type they are of. -/
theorem field_steady (h : r.Within r') {f : FieldDescriptor} {members : List (String × Value)}
    (hmembers : ∀ nested, Steady (r.checkMembers nested path members) (r'.checkMembers nested path members))
    (hentries : ∀ nested, Steady (r.checkEntries nested path members) (r'.checkEntries nested path members)) :
    Steady (r.checkField d f path (.object members)) (r'.checkField d f path (.object members)) := by
  rw [checkField, checkField]
  split
  · exact (h.resolve _).bind hmembers
  · exact (h.resolve _).bind hentries
  · exact .same _

theorem entry_steady (h : ∀ inner, v = .object inner →
      Steady (r.checkMembers d path inner) (r'.checkMembers d path inner)) :
    Steady (r.checkEntry d path v) (r'.checkEntry d path v) := by
  unfold checkEntry
  split
  · next inner => exact h inner rfl
  · exact .same _

/-! ## The walk -/

mutual

theorem checkMembers_steady (h : r.Within r') (d : Descriptor) (path : String) :
    ∀ members, Steady (r.checkMembers d path members) (r'.checkMembers d path members)
  | [] => by
    rw [checkMembers, checkMembers]
    exact .same _
  | (name, v) :: rest => by
    rw [checkMembers_cons, checkMembers_cons]
    refine .bind (member_steady (fun f path => checkField_steady h d f path v) ?_)
      fun _ => checkMembers_steady h d path rest
    rintro items rfl f path
    exact checkItems_steady h d f path 0 items
termination_by members => sizeOf members

theorem checkItems_steady (h : r.Within r') (d : Descriptor) (f : FieldDescriptor) (path : String) (i : Nat) :
    ∀ items, Steady (r.checkItems d f path i items) (r'.checkItems d f path i items)
  | [] => by
    rw [checkItems, checkItems]
    exact .same _
  | v :: rest => by
    rw [checkItems, checkItems]
    exact .bind (checkField_steady h d f _ v) fun _ => checkItems_steady h d f path (i + 1) rest
termination_by items => sizeOf items

theorem checkField_steady (h : r.Within r') (d : Descriptor) (f : FieldDescriptor) (path : String) :
    ∀ v, Steady (r.checkField d f path v) (r'.checkField d f path v)
  | .object members =>
    field_steady h (fun nested => checkMembers_steady h nested path members)
      fun nested => checkEntries_steady h nested path members
  | .null | .bool _ | .number _ | .string _ | .array _ => by
    rw [checkField, checkField]
    · exact .same _
    · exact nofun
    · exact nofun
termination_by v => sizeOf v

theorem checkEntries_steady (h : r.Within r') (d : Descriptor) (path : String) :
    ∀ members, Steady (r.checkEntries d path members) (r'.checkEntries d path members)
  | [] => by
    rw [checkEntries, checkEntries]
    exact .same _
  | (name, v) :: rest => by
    rw [checkEntries_cons, checkEntries_cons]
    refine .bind (entry_steady ?_) fun _ => checkEntries_steady h d path rest
    rintro inner rfl
    exact checkMembers_steady h d (path ++ "/" ++ name) inner
termination_by members => sizeOf members

end

theorem checkMessage_steady (h : r.Within r') (d : Descriptor) (path : String) (v : Value) :
    Steady (r.checkMessage d path v) (r'.checkMessage d path v) := by
  unfold checkMessage
  split
  · exact checkMembers_steady h d path _
  · exact .same _

theorem check_steady (h : r.Within r') (t : Thing) : Steady (r.check t) (r'.check t) := by
  unfold check ofUrl?
  cases hd : r.find? (typeNameOf t.url) with
  | none => exact .unknown t.url _
  | some d =>
    rw [h _ d hd]
    exact checkMessage_steady h d "" t.value

/-- **Verdicts do not change when a registry grows**, unless a type was unknown. If every name that a registry
resolves is resolved by another one to the same descriptor, the other one accepts what the first accepts, and
reports every violation that the first reports, except for unknown types. So it is when descriptors are added
or a second registry is merged, whatever they hold. -/
theorem check_stable (r : TypeRegistry) (t : Thing) (hknown : ∀ name, r.check t ≠ .error (.unknownType name)) :
    (∀ r' : TypeRegistry, (∀ name d, r.find? name = some d → r'.find? name = some d) →
      r'.check t = r.check t) ∧
    (∀ ds, (r.add ds).check t = r.check t) ∧ ∀ s, (r.merge s).check t = r.check t := by
  exact ⟨fun r' h => (check_steady h t).eq hknown, fun ds => (check_steady (within_add r ds) t).eq hknown,
    fun s => (check_steady (within_merge r s) t).eq hknown⟩

/-! ### Shelves without books -/

/-- Shelves, whose books are of a type that is missing. -/
def shelves : TypeRegistry :=
  ofList [⟨"demo.Shelf", [.ofMap "books" 1 (some "demo.Book"), .plain "floor" 2 .string]⟩]

def shelvedBook : Descriptor := ⟨"demo.Book", [.plain "isbn" 1 .string]⟩

/-- A shelf with books on a floor. -/
def shelved (books floor : Value) : Thing := .pack "demo.Shelf" (.object [("books", books), ("floor", floor)])

/-- An empty shelf on no floor is refused before there is a type of books and after. A shelf with a book is
refused only before. -/
theorem check_stable_shelves :
    shelves.check (shelved .null (.bool true)) = .error (.wrongKind "demo.Shelf" "floor" .string) ∧
      (shelves.add [shelvedBook]).check (shelved .null (.bool true)) =
        .error (.wrongKind "demo.Shelf" "floor" .string) ∧
      shelves.check (shelved (.object [("first", .object [])]) (.string "1")) =
        .error (.unknownType "demo.Book") ∧
      (shelves.add [shelvedBook]).check (shelved (.object [("first", .object [])]) (.string "1")) = .ok () := by
  have hfloor : shelves.check (shelved .null (.bool true)) =
      .error (.wrongKind "demo.Shelf" "floor" .string) := by decide
  have hknown (name : String) : shelves.check (shelved .null (.bool true)) ≠ .error (.unknownType name) := by
    rw [hfloor]
    nofun
  have hstable := (check_stable shelves _ hknown).2.1 [shelvedBook]
  exact ⟨hfloor, hstable.trans hfloor, by decide, by decide⟩

end TypeRegistry

end EntityCatalog
