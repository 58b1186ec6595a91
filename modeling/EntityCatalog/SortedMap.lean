/-!
# Maps with text keys, in ascending order

`Assoc` works on a plain list of pairs that is in ascending order of its keys; `SortedMap` carries
the order as a field. Keys compare by code point. Two sorted maps with the same lookups are equal
(`SortedMap.ext_get?`).
-/

namespace EntityCatalog

universe u v

/-! ## Lists of pairs -/

namespace Assoc

variable {α : Type u} {β : Type v}

/-- The value of the first pair with key `k`. -/
def get? (k : String) : List (String × α) → Option α
  | [] => none
  | (j, w) :: rest => if k = j then some w else get? k rest

/-- Put `v` at `k`, in place of what is there. -/
def insert (k : String) (v : α) : List (String × α) → List (String × α)
  | [] => [(k, v)]
  | (j, w) :: rest =>
    if k = j then (k, v) :: rest
    else if k < j then (k, v) :: (j, w) :: rest
    else (j, w) :: insert k v rest

/-- Leave out the pairs with key `k`. -/
def erase (k : String) (l : List (String × α)) : List (String × α) :=
  l.filter fun p => p.1 ≠ k

/-- Insert the pairs of `new` one after another: of equal keys the last wins. -/
def insertAll (l new : List (String × α)) : List (String × α) :=
  new.foldl (fun m p => insert p.1 p.2 m) l

/-- Strictly ascending keys. -/
def Ascending (l : List (String × α)) : Prop := l.Pairwise fun a b => a.1 < b.1

@[simp] theorem get?_nil (k : String) : get? k ([] : List (String × α)) = none := rfl

theorem get?_insert_self (k : String) (v : α) (l : List (String × α)) :
    get? k (insert k v l) = some v := by
  induction l with
  | nil => simp [insert, get?]
  | cons p rest ih =>
    obtain ⟨j, w⟩ := p
    by_cases h : k = j
    · simp [insert, get?, h]
    · by_cases hlt : k < j <;> simp [insert, get?, h, hlt, ih]

theorem get?_insert_ne {k j : String} (h : j ≠ k) (v : α) (l : List (String × α)) :
    get? j (insert k v l) = get? j l := by
  induction l with
  | nil => simp [insert, get?, h]
  | cons p rest ih =>
    obtain ⟨i, w⟩ := p
    by_cases hk : k = i
    · subst hk
      simp [insert, get?, h]
    · by_cases hlt : k < i
      · simp [insert, get?, hk, hlt, h]
      · by_cases hj : j = i <;> simp [insert, get?, hk, hlt, hj, ih]

theorem mem_insert {k : String} {v : α} {l : List (String × α)} {p : String × α}
    (h : p ∈ insert k v l) : p = (k, v) ∨ p ∈ l := by
  induction l with
  | nil => simpa [insert] using h
  | cons q rest ih =>
    obtain ⟨j, w⟩ := q
    by_cases hk : k = j
    · simp only [insert, hk, if_true, List.mem_cons] at h ⊢
      grind
    · by_cases hlt : k < j
      · simp only [insert, hk, hlt, if_false, if_true, List.mem_cons] at h ⊢
        grind
      · simp only [insert, hk, hlt, if_false, List.mem_cons] at h ⊢
        grind

theorem not_lt_of_lt {a b : String} (h : a < b) : ¬ b < a :=
  fun h' => String.lt_irrefl a (String.lt_trans h h')

theorem lt_of_ne_of_not_lt {a b : String} (hne : a ≠ b) (h : ¬ a < b) : b < a :=
  Decidable.byContradiction fun h' =>
    hne (String.le_antisymm (String.not_lt.mp h') (String.not_lt.mp h))

theorem ascending_insert (k : String) (v : α) {l : List (String × α)} (h : Ascending l) :
    Ascending (insert k v l) := by
  induction l with
  | nil => simp [insert, Ascending]
  | cons p rest ih =>
    obtain ⟨j, w⟩ := p
    have hall := (List.pairwise_cons.1 h).1
    have htail : Ascending rest := h.of_cons
    by_cases hk : k = j
    · subst hk
      simpa [insert, Ascending] using h
    · by_cases hlt : k < j
      · simp only [insert, hk, hlt, if_false, if_true]
        refine List.Pairwise.cons (fun q hq => ?_) h
        rcases List.mem_cons.1 hq with rfl | hq
        · exact hlt
        · exact String.lt_trans hlt (hall q hq)
      · simp only [insert, hk, hlt, if_false]
        refine List.Pairwise.cons (fun q hq => ?_) (ih htail)
        rcases mem_insert hq with rfl | hq
        · exact lt_of_ne_of_not_lt hk hlt
        · exact hall q hq

theorem ascending_insertAll (new : List (String × α)) :
    ∀ {l : List (String × α)}, Ascending l → Ascending (insertAll l new) := by
  induction new with
  | nil => exact fun h => h
  | cons p new ih => exact fun h => ih (ascending_insert p.1 p.2 h)

theorem ascending_erase (k : String) {l : List (String × α)} (h : Ascending l) :
    Ascending (erase k l) :=
  List.Pairwise.sublist List.filter_sublist h

theorem get?_eq_none_of_lt {k : String} {l : List (String × α)} (h : ∀ p ∈ l, k < p.1) :
    get? k l = none := by
  induction l with
  | nil => rfl
  | cons p rest ih =>
    obtain ⟨j, w⟩ := p
    have hne : k ≠ j := fun hk => String.lt_irrefl k (by simpa [hk] using h (j, w) (by simp))
    simp only [get?, hne, if_false]
    exact ih fun q hq => h q (List.mem_cons_of_mem _ hq)

theorem eq_of_get?_eq {l m : List (String × α)} (hl : Ascending l) (hm : Ascending m)
    (h : ∀ k, get? k l = get? k m) : l = m := by
  induction l generalizing m with
  | nil =>
    cases m with
    | nil => rfl
    | cons q m' => simpa [get?] using h q.1
  | cons p l' ih =>
    obtain ⟨j, w⟩ := p
    cases m with
    | nil => simpa [get?] using h j
    | cons q m' =>
      obtain ⟨i, x⟩ := q
      have hl' := (List.pairwise_cons.1 hl).1
      have hm' := (List.pairwise_cons.1 hm).1
      have hji : j = i := by
        apply Decidable.byContradiction
        intro hne
        by_cases hlt : j < i
        · have h1 : get? j ((i, x) :: m') = none := get?_eq_none_of_lt fun p hp => by
            rcases List.mem_cons.1 hp with rfl | hp
            · exact hlt
            · exact String.lt_trans hlt (hm' p hp)
          have h2 := h j
          rw [h1] at h2
          simp [get?] at h2
        · have hlt' := lt_of_ne_of_not_lt hne hlt
          have h1 : get? i ((j, w) :: l') = none := get?_eq_none_of_lt fun p hp => by
            rcases List.mem_cons.1 hp with rfl | hp
            · exact hlt'
            · exact String.lt_trans hlt' (hl' p hp)
          have h2 := h i
          rw [h1] at h2
          simp [get?] at h2
      subst hji
      have hwx : w = x := by simpa [get?] using h j
      subst hwx
      congr 1
      refine ih hl.of_cons hm.of_cons fun k => ?_
      by_cases hk : k = j
      · subst hk
        rw [get?_eq_none_of_lt fun p hp => hl' p hp, get?_eq_none_of_lt fun p hp => hm' p hp]
      · simpa [get?, hk] using h k

end Assoc

/-! ## Sorted maps -/

/-- A map with text keys, its pairs in strictly ascending order of the keys. -/
structure SortedMap (α : Type u) where
  entries : List (String × α)
  ascending : Assoc.Ascending entries
  deriving DecidableEq

namespace SortedMap

variable {α : Type u} {β : Type v}

def empty : SortedMap α := ⟨[], List.Pairwise.nil⟩

instance : EmptyCollection (SortedMap α) := ⟨empty⟩
instance : Inhabited (SortedMap α) := ⟨empty⟩
instance [Repr α] : Repr (SortedMap α) := ⟨fun m n => reprPrec m.entries n⟩

def get? (m : SortedMap α) (k : String) : Option α := Assoc.get? k m.entries

def contains (m : SortedMap α) (k : String) : Bool := (m.get? k).isSome

/-- Put `v` at `k`, in place of what is there. -/
def insert (m : SortedMap α) (k : String) (v : α) : SortedMap α :=
  ⟨Assoc.insert k v m.entries, Assoc.ascending_insert k v m.ascending⟩

def erase (m : SortedMap α) (k : String) : SortedMap α :=
  ⟨Assoc.erase k m.entries, Assoc.ascending_erase k m.ascending⟩

/-- Insert the pairs of a list in turn: of equal keys the last wins. -/
def insertAll (m : SortedMap α) (l : List (String × α)) : SortedMap α :=
  ⟨Assoc.insertAll m.entries l, Assoc.ascending_insertAll l m.ascending⟩

def ofList (l : List (String × α)) : SortedMap α := empty.insertAll l

/-- Both maps together; where both have a key, the second decides. -/
def override (m n : SortedMap α) : SortedMap α := m.insertAll n.entries

def keys (m : SortedMap α) : List String := m.entries.map (·.1)

def values (m : SortedMap α) : List α := m.entries.map (·.2)

def size (m : SortedMap α) : Nat := m.entries.length

def isEmpty (m : SortedMap α) : Bool := m.entries.isEmpty

@[simp] theorem get?_empty (k : String) : (empty : SortedMap α).get? k = none := rfl

@[simp] theorem get?_insert_self (m : SortedMap α) (k : String) (v : α) :
    (m.insert k v).get? k = some v :=
  Assoc.get?_insert_self k v m.entries

theorem get?_insert_ne (m : SortedMap α) {k j : String} (h : j ≠ k) (v : α) :
    (m.insert k v).get? j = m.get? j :=
  Assoc.get?_insert_ne h v m.entries

theorem get?_insert (m : SortedMap α) (k j : String) (v : α) :
    (m.insert k v).get? j = if j = k then some v else m.get? j := by
  by_cases h : j = k
  · subst h
    simp
  · simp [h, get?_insert_ne]

theorem ext_get? {m n : SortedMap α} (h : ∀ k, m.get? k = n.get? k) : m = n := by
  obtain ⟨l, hl⟩ := m
  obtain ⟨l', hl'⟩ := n
  have := Assoc.eq_of_get?_eq hl hl' h
  subst this
  rfl

end SortedMap

end EntityCatalog
