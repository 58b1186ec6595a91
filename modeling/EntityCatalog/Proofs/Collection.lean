import EntityCatalog.Proofs.Traversal
import Mathlib.Data.List.Nodup

/-!
# Collections that are changed in place

Declarations are put into a collection one after another, also behind one that was refused. Where `put` is an
addition that leaves no trace if it fails (`Collection.Adds`), a step lemma for the addition gives a lemma for
every row of attempts, and all of them together say that nothing but valid declarations is ever held
(`Collection.Adds.sound`).
-/

namespace EntityCatalog

variable {σ α ι ε : Type}

/-- Calls that may change a state, and may fail on the way. -/
abbrev Call (ε σ : Type) := ExceptT ε (StateM σ)

/-- What a call comes to, and the state that it leaves, whether it fails or not. -/
def Call.on (call : Call ε σ Unit) (s : σ) : Except ε Unit × σ := Id.run (call.run.run s)

theorem Call.get_bind (rest : σ → Call ε σ Unit) (s : σ) : (get >>= rest).on s = (rest s).on s := rfl

/-- A collection of declarations with keys. -/
structure Collection (σ α ι ε : Type) where
  empty : σ
  put : α → Call ε σ Unit
  ofList : List α → Except ε σ
  items : σ → List α
  key : α → ι
  find? : σ → ι → Option α

namespace Collection

variable (c : Collection σ α ι ε)

/-- Put in one declaration after another, whatever comes of it. -/
def putEach (l : List α) : StateM σ (List (Except ε Unit)) := l.mapM fun a => (c.put a).run

/-- What all calls came to, and the state that is left. -/
def attempts (s : σ) (l : List α) : List (Except ε Unit) × σ := Id.run ((c.putEach l).run s)

/-- What each call came to, starting from nothing. -/
def outcomes (l : List α) : List (Except ε Unit) := (c.attempts c.empty l).1

/-- What is left of all calls, starting from nothing. -/
def left (l : List α) : σ := (c.attempts c.empty l).2

/-- The declarations whose calls did not fail. -/
def accepted (l : List α) (outcomes : List (Except ε Unit)) : List α :=
  ((l.zip outcomes).filter (·.2.isOk)).map (·.1)

/-- The declarations that are held are valid, and their keys are distinct. -/
structure Held (Valid : α → Prop) (s : σ) : Prop where
  distinct : ((c.items s).map c.key).Nodup
  valid : ∀ a ∈ c.items s, Valid a

/-- What holds after calls for `l`. The accepted declarations are held, and each is found under its key. One
more call that fails changes nothing; it fails for the reason that `Refused` gives, which is `duplicate` exactly
if the key is held. The whole list is taken at once if no call fails, and else refused like the first call that
fails. -/
structure Sound (Valid : α → Prop) (Refused : σ → α → ε → Prop) (duplicate : α → ε) (l : List α) : Prop
    extends c.Held Valid (c.left l) where
  length : (c.outcomes l).length = l.length
  listed : c.items (c.left l) = accepted l (c.outcomes l)
  found : ∀ i a, c.find? (c.left l) i = some a ↔ a ∈ c.items (c.left l) ∧ c.key a = i
  unchanged : ∀ a e, ((c.put a).on (c.left l)).1 = .error e → ((c.put a).on (c.left l)).2 = c.left l
  refused : ∀ a e, ((c.put a).on (c.left l)).1 = .error e ↔ Refused (c.left l) a e
  taken : ∀ a, ((c.put a).on (c.left l)).1 = .error (duplicate a) ↔
    ∃ held ∈ c.items (c.left l), c.key held = c.key a
  ofList_ok : ∀ s, c.ofList l = .ok s ↔ (∀ o ∈ c.outcomes l, o = .ok ()) ∧ s = c.left l
  ofList_error : ∀ e, c.ofList l = .error e ↔ ∃ before after,
    c.outcomes l = before ++ .error e :: after ∧ ∀ o ∈ before, o = .ok ()

/-- The calls make the additions of `add`, which put one declaration behind the others. -/
structure Adds [DecidableEq ι] (add : σ → α → Except ε σ) : Prop where
  put : ∀ a s, (c.put a).on s = match add s a with
    | .ok s' => (.ok (), s')
    | .error e => (.error e, s)
  ofList : ∀ l, c.ofList l = l.foldlM add c.empty
  items_empty : c.items c.empty = []
  items_add : ∀ {s a s'}, add s a = .ok s' → c.items s' = c.items s ++ [a]
  find? : ∀ s i, c.find? s i = (c.items s).find? (c.key · == i)

/-! ## Attempts -/

variable {c} {s s' : σ} {a : α} {l : List α} {e : ε}

theorem attempts_cons : c.attempts s (a :: l) =
    (((c.put a).on s).1 :: (c.attempts ((c.put a).on s).2 l).1, (c.attempts ((c.put a).on s).2 l).2) := by
  unfold attempts putEach
  rw [List.mapM_cons]
  rfl

theorem accepted_cons (o : Except ε Unit) (os : List (Except ε Unit)) :
    accepted (a :: l) (o :: os) = if o.isOk then a :: accepted l os else accepted l os := by
  unfold accepted
  rw [List.zip_cons_cons, List.filter_cons]
  split <;> rfl

theorem length_attempts (s : σ) (l : List α) : (c.attempts s l).1.length = l.length := by
  induction l generalizing s with
  | nil => rfl
  | cons a l ih => rw [attempts_cons, List.length_cons, List.length_cons, ih]

theorem find?_key_iff [DecidableEq ι] {key : α → ι} {l : List α} (h : (l.map key).Nodup) (i : ι) (a : α) :
    l.find? (key · == i) = some a ↔ a ∈ l ∧ key a = i := by
  induction l with
  | nil => simp
  | cons b l ih =>
    rw [List.map_cons, List.nodup_cons] at h
    rw [List.find?_cons]
    by_cases hb : key b = i
    · have hkey : a ∈ l → key a ≠ i := by
        rintro ha hi
        exact h.1 (hb.trans hi.symm ▸ List.mem_map_of_mem ha)
      simp only [hb, beq_self_eq_true, Option.some.injEq, List.mem_cons]
      constructor
      · rintro rfl
        exact ⟨.inl rfl, hb⟩
      · rintro ⟨rfl | ha, hi⟩
        · rfl
        · exact absurd hi (hkey ha)
    · have hne : (key b == i) = false := beq_eq_false_iff_ne.2 hb
      simp only [hne, ih h.2, List.mem_cons]
      constructor
      · rintro ⟨ha, hi⟩
        exact ⟨.inr ha, hi⟩
      · rintro ⟨rfl | ha, hi⟩
        · exact absurd hi hb
        · exact ⟨ha, hi⟩

namespace Adds

variable [DecidableEq ι] {add : σ → α → Except ε σ}

theorem put_of_ok (h : c.Adds add) (ha : add s a = .ok s') : (c.put a).on s = (.ok (), s') := by
  rw [h.put, ha]

theorem put_of_error (h : c.Adds add) (ha : add s a = .error e) : (c.put a).on s = (.error e, s) := by
  rw [h.put, ha]

theorem put_settles (h : c.Adds add) (a : α) (s : σ) :
    Settles (add s a) (((c.put a).on s).1 = .ok ()) (fun e => ((c.put a).on s).1 = .error e) := by
  rw [h.put]
  cases add s a with
  | ok s' => exact .success rfl nofun
  | error e => exact .report nofun fun e' => by simp [eq_comm]

theorem attempts_keep (h : c.Adds add) (inv : σ → Prop)
    (hkeep : ∀ {s a s'}, inv s → add s a = .ok s' → inv s') (hs : inv s) : inv (c.attempts s l).2 := by
  induction l generalizing s with
  | nil => exact hs
  | cons a l ih =>
    rw [attempts_cons]
    cases ha : add s a with
    | ok s' =>
      rw [h.put_of_ok ha]
      exact ih (hkeep hs ha)
    | error e =>
      rw [h.put_of_error ha]
      exact ih hs

theorem items_attempts (h : c.Adds add) :
    c.items (c.attempts s l).2 = c.items s ++ accepted l (c.attempts s l).1 := by
  induction l generalizing s with
  | nil => exact (List.append_nil _).symm
  | cons a l ih =>
    rw [attempts_cons, accepted_cons, ih]
    cases ha : add s a with
    | ok s' =>
      rw [h.put_of_ok ha, h.items_add ha, List.append_assoc]
      rfl
    | error e =>
      rw [h.put_of_error ha]
      rfl

theorem foldlM_settles (h : c.Adds add) (i : Nat) :
    Settles (l.foldlM add s) (∀ o ∈ (c.attempts s l).1, o = .ok ())
      (fun e => FirstAt (· = .ok ()) (fun _ o => o = .error e) i (c.attempts s l).1) := by
  induction l generalizing s i with
  | nil => exact .nil
  | cons a l ih =>
    rw [List.foldlM_cons, attempts_cons]
    refine .cons (h.put_settles a s) fun s' ha => ?_
    rw [h.put_of_ok ha]
    exact ih (i + 1)

theorem left_of_foldlM (h : c.Adds add) (hs : l.foldlM add s = .ok s') : s' = (c.attempts s l).2 := by
  induction l generalizing s with
  | nil =>
    cases hs
    rfl
  | cons a l ih =>
    rw [List.foldlM_cons] at hs
    obtain ⟨s1, ha, hs⟩ := bind_eq_ok hs
    rw [attempts_cons, h.put_of_ok ha]
    exact ih hs

/-! ## What is held -/

theorem held_empty (h : c.Adds add) (Valid : α → Prop) : c.Held Valid c.empty := by
  constructor <;> simp [h.items_empty]

theorem held_add (h : c.Adds add) {Valid : α → Prop} (hs : c.Held Valid s) (ha : add s a = .ok s')
    (hvalid : Valid a) (hfree : ∀ held ∈ c.items s, c.key held ≠ c.key a) : c.Held Valid s' := by
  constructor
  · rw [h.items_add ha, List.map_append, List.map_singleton, List.nodup_append_comm, List.singleton_append,
      List.nodup_cons, List.mem_map]
    exact ⟨fun ⟨held, hheld, hkey⟩ => hfree held hheld hkey, hs.distinct⟩
  · rw [h.items_add ha, List.forall_mem_append, List.forall_mem_singleton]
    exact ⟨hs.valid, hvalid⟩

/-- A collection is sound if an addition succeeds exactly for valid declarations under free keys. -/
theorem sound (h : c.Adds add) {Valid : α → Prop} {Refused : σ → α → ε → Prop} {duplicate : α → ε}
    (hadd : ∀ s a, Settles (add s a) (Valid a ∧ ∀ held ∈ c.items s, c.key held ≠ c.key a) (Refused s a))
    (hduplicate : ∀ s a, (∀ held ∈ c.items s, Valid held) →
      (Refused s a (duplicate a) ↔ ∃ held ∈ c.items s, c.key held = c.key a)) (l : List α) :
    c.Sound Valid Refused duplicate l := by
  have hheld : c.Held Valid (c.left l) := by
    refine h.attempts_keep (c.Held Valid) (fun hs ha => ?_) (h.held_empty Valid)
    obtain ⟨hvalid, hfree⟩ := (hadd _ _).good_of_ok ha
    exact h.held_add hs ha hvalid hfree
  have hput (a : α) (e : ε) : ((c.put a).on (c.left l)).1 = .error e ↔ add (c.left l) a = .error e :=
    ((h.put_settles a _).error e).symm
  have hrefused (a : α) (e : ε) : ((c.put a).on (c.left l)).1 = .error e ↔ Refused (c.left l) a e :=
    (hput a e).trans ((hadd _ a).error e)
  have hwhole := h.foldlM_settles (s := c.empty) (l := l) 0
  exact {
    toHeld := hheld
    length := length_attempts c.empty l
    listed := by
      rw [left, h.items_attempts, h.items_empty]
      rfl
    found := fun i a => by rw [h.find?, find?_key_iff hheld.distinct]
    unchanged := fun a e he => by rw [h.put_of_error ((hput a e).1 he)]
    refused := hrefused
    taken := fun a => (hrefused a _).trans (hduplicate _ a hheld.valid)
    ofList_ok := fun s => by
      rw [h.ofList]
      constructor
      · intro hs
        exact ⟨hwhole.good_of_ok hs, h.left_of_foldlM hs⟩
      · rintro ⟨hgood, rfl⟩
        obtain ⟨s, hs⟩ := hwhole.ok.2 hgood
        rw [hs, left, ← h.left_of_foldlM hs]
    ofList_error := fun e => by
      rw [h.ofList, hwhole.error]
      constructor
      · rintro ⟨before, _, after, hsplit, hbefore, rfl⟩
        exact ⟨before, after, hsplit, hbefore⟩
      · rintro ⟨before, after, hsplit, hbefore⟩
        exact ⟨before, _, after, hsplit, hbefore, rfl⟩ }

end Adds

end Collection

end EntityCatalog
