import Mathlib.Data.List.Forall2

/-!
# Computations that may fail

A computation that may fail either gives a result or reports one fault. `Settles x good bad` says when
it does which: `x` succeeds exactly under `good`, and reports `e` exactly under `bad e`. Steps made
one after another are settled by `Settles.seq`, and steps over a list by `Settles.cons` and
`Settles.mapM`: the report is on the first element that is bad (`FirstAt`).
-/

namespace EntityCatalog

/-- `x` succeeds exactly under `good` and reports `e` exactly under `bad e`. -/
structure Settles {ε α : Type} (x : Except ε α) (good : Prop) (bad : ε → Prop) : Prop where
  ok : (∃ a, x = .ok a) ↔ good
  error : ∀ e, x = .error e ↔ bad e

/-! ## The first bad element -/

/-- An element is bad at its position, counted from `i`, and all elements in front of it are good. -/
def FirstAt {α : Type} (good : α → Prop) (bad : Nat → α → Prop) (i : Nat) (l : List α) : Prop :=
  ∃ before a after, l = before ++ a :: after ∧ (∀ b ∈ before, good b) ∧ bad (i + before.length) a

section first
variable {α : Type} {good : α → Prop} {bad : Nat → α → Prop} {i : Nat}

theorem firstAt_nil : ¬ FirstAt good bad i [] := by
  rintro ⟨before, a, after, h, -⟩
  cases before <;> cases h

theorem firstAt_cons {a : α} {l : List α} :
    FirstAt good bad i (a :: l) ↔ bad i a ∨ good a ∧ FirstAt good bad (i + 1) l := by
  have hlen (before : List α) : i + (before.length + 1) = i + 1 + before.length := by omega
  constructor
  · rintro ⟨before, b, after, h, hgood, hbad⟩
    cases before with
    | nil =>
      cases h
      exact Or.inl hbad
    | cons c before =>
      cases h
      rw [List.length_cons, hlen] at hbad
      exact Or.inr ⟨hgood a (by simp), before, b, after, rfl, fun x hx => hgood x (by simp [hx]), hbad⟩
  · rintro (hbad | ⟨hgood, before, b, after, rfl, hbefore, hbad⟩)
    · exact ⟨[], a, l, rfl, by simp, hbad⟩
    · refine ⟨a :: before, b, after, rfl, ?_, by rwa [List.length_cons, hlen]⟩
      intro x hx
      rcases List.mem_cons.1 hx with rfl | hx
      · exact hgood
      · exact hbefore x hx

end first

/-! ## The first bad element after those in front of it

Whether an element is good may depend on all that stand in front of it. -/

section prefixes
variable {α : Type}

/-- Every element is good after those in front of it. -/
def EachIn (good : List α → α → Prop) (l : List α) : Prop :=
  ∀ before a after, l = before ++ a :: after → good before a

/-- An element is bad after those in front of it, which are all good. -/
def FirstIn (good bad : List α → α → Prop) (l : List α) : Prop :=
  ∃ before a after, l = before ++ a :: after ∧ EachIn good before ∧ bad before a

variable {good bad : List α → α → Prop}

theorem eachIn_nil : EachIn good [] := by
  intro before a after h
  cases before <;> cases h

theorem firstIn_nil : ¬ FirstIn good bad [] := by
  rintro ⟨before, a, after, h, -⟩
  cases before <;> cases h

theorem eachIn_cons {a : α} {l : List α} :
    EachIn good (a :: l) ↔ good [] a ∧ EachIn (fun before => good (a :: before)) l := by
  constructor
  · intro h
    refine ⟨h [] a l rfl, fun before b after hl => h (a :: before) b after ?_⟩
    rw [hl, List.cons_append]
  · rintro ⟨ha, hrest⟩ before b after hl
    cases before with
    | nil =>
      cases hl
      exact ha
    | cons c before =>
      cases hl
      exact hrest before b after rfl

theorem firstIn_cons {a : α} {l : List α} :
    FirstIn good bad (a :: l) ↔ bad [] a ∨
      good [] a ∧ FirstIn (fun before => good (a :: before)) (fun before => bad (a :: before)) l := by
  constructor
  · rintro ⟨before, b, after, hl, hgood, hbad⟩
    cases before with
    | nil =>
      cases hl
      exact Or.inl hbad
    | cons c before =>
      cases hl
      rw [eachIn_cons] at hgood
      exact Or.inr ⟨hgood.1, before, b, after, rfl, hgood.2, hbad⟩
  · rintro (hbad | ⟨ha, before, b, after, rfl, hgood, hbad⟩)
    · exact ⟨[], a, l, rfl, eachIn_nil, hbad⟩
    · exact ⟨a :: before, b, after, rfl, eachIn_cons.2 ⟨ha, hgood⟩, hbad⟩

theorem eachIn_append {l l' : List α} :
    EachIn good (l ++ l') ↔ EachIn good l ∧ EachIn (fun before => good (l ++ before)) l' := by
  induction l generalizing good with
  | nil => simp [eachIn_nil]
  | cons a l ih =>
    rw [List.cons_append, eachIn_cons, eachIn_cons, ih, and_assoc]
    rfl

theorem firstIn_append {l l' : List α} :
    FirstIn good bad (l ++ l') ↔ FirstIn good bad l ∨
      EachIn good l ∧ FirstIn (fun before => good (l ++ before)) (fun before => bad (l ++ before)) l' := by
  induction l generalizing good bad with
  | nil => simp [eachIn_nil, firstIn_nil]
  | cons a l ih =>
    rw [List.cons_append, firstIn_cons, firstIn_cons, eachIn_cons, ih, and_or_left, or_assoc, and_assoc]
    rfl

end prefixes

/-! ## Results -/

section result
variable {α β ε : Type}

theorem toOption_eq_some {x : Except ε α} {a : α} (h : x.toOption = some a) : x = .ok a := by
  cases x with
  | error e => cases h
  | ok b => exact congrArg Except.ok (Option.some.inj h)

theorem bind_eq_ok {x : Except ε α} {f : α → Except ε β} {b : β} (h : (x >>= f) = .ok b) :
    ∃ a, x = .ok a ∧ f a = .ok b := by
  cases x with
  | error e => cases h
  | ok a => exact ⟨a, rfl, h⟩

theorem map_eq_ok {x : Except ε α} {f : α → β} {b : β}
    (h : (do return f (← x)) = Except.ok b) : ∃ a, x = .ok a ∧ f a = b := by
  obtain ⟨a, hx, h⟩ := bind_eq_ok h
  exact ⟨a, hx, Except.ok.inj h⟩

theorem exceptMap_eq_ok {x : Except ε α} {f : α → β} {b : β} (h : x.map f = .ok b) :
    ∃ a, x = .ok a ∧ f a = b := by
  cases x with
  | error e => cases h
  | ok a => exact ⟨a, rfl, Except.ok.inj h⟩

theorem exceptMap_eq_error {x : Except ε α} {f : α → β} {e : ε} (h : x.map f = .error e) :
    x = .error e := by
  cases x with
  | error cause => rw [Except.error.inj h]
  | ok a => cases h

theorem mapError_eq_ok {δ : Type} {x : Except ε α} {f : ε → δ} {a : α} (h : x.mapError f = .ok a) :
    x = .ok a := by
  cases x with
  | error cause => cases h
  | ok b => rw [Except.ok.inj h]

theorem mapError_eq_error {δ : Type} {x : Except ε α} {f : ε → δ} {e : δ}
    (h : x.mapError f = .error e) : ∃ cause, x = .error cause ∧ f cause = e := by
  cases x with
  | error cause => exact ⟨cause, rfl, Except.error.inj h⟩
  | ok a => cases h

theorem refused_iff {x : Except ε α} {fault : ε} {accepted : α → Prop}
    (hok : ∀ a, x = .ok a ↔ accepted a) (herror : ∀ e, x = .error e → e = fault) (e : ε) :
    x = .error e ↔ e = fault ∧ ∀ a, ¬ accepted a := by
  simp only [← hok]
  cases x with
  | error f =>
    have hf : f = fault := herror f rfl
    simp [hf, eq_comm]
  | ok a => simp

theorem mapM_eq_ok_iff {f : α → Except ε β} {xs : List α} {ys : List β} :
    xs.mapM f = .ok ys ↔ List.Forall₂ (fun x y => f x = .ok y) xs ys := by
  induction xs generalizing ys with
  | nil => simp [pure, Except.pure, eq_comm]
  | cons x xs ih =>
    rw [List.mapM_cons, List.forall₂_cons_left_iff]
    cases hx : f x with
    | error e => simp [bind, Except.bind]
    | ok y =>
      cases hxs : xs.mapM f with
      | error e => simp [bind, Except.bind, ← ih, hxs]
      | ok zs => simp [bind, Except.bind, pure, Except.pure, ← ih, hxs, eq_comm]

theorem exists_of_forall₂ {R : α → β → Prop} {xs : List α} {ys : List β}
    (h : List.Forall₂ R xs ys) {x : α} (hx : x ∈ xs) : ∃ y ∈ ys, R x y := by
  induction h with
  | nil => cases hx
  | cons hxy _ ih =>
    rcases List.mem_cons.1 hx with rfl | hx
    · exact ⟨_, List.mem_cons_self, hxy⟩
    · obtain ⟨y, hy, hR⟩ := ih hx
      exact ⟨y, List.mem_cons_of_mem _ hy, hR⟩

theorem forall₂_imp_mem {R S : α → β → Prop} {xs : List α} {ys : List β} (h : List.Forall₂ R xs ys)
    (himp : ∀ x ∈ xs, ∀ y ∈ ys, R x y → S x y) : List.Forall₂ S xs ys := by
  induction h with
  | nil => exact .nil
  | cons hxy _ ih =>
    exact .cons (himp _ List.mem_cons_self _ List.mem_cons_self hxy)
      (ih fun x hx y hy => himp x (List.mem_cons_of_mem _ hx) y (List.mem_cons_of_mem _ hy))

theorem forall₂_append_left {R : α → β → Prop} {xs xs' : List α} {zs : List β}
    (h : List.Forall₂ R (xs ++ xs') zs) :
    ∃ ys ys', zs = ys ++ ys' ∧ List.Forall₂ R xs ys ∧ List.Forall₂ R xs' ys' := by
  induction xs generalizing zs with
  | nil => exact ⟨[], zs, rfl, .nil, h⟩
  | cons x xs ih =>
    cases h with
    | @cons _ z _ zs hxz hrest =>
      obtain ⟨ys, ys', rfl, hys, hys'⟩ := ih hrest
      exact ⟨z :: ys, ys', rfl, .cons hxz hys, hys'⟩

theorem forall₂_beside {γ : Type} {R : α → β → Prop} {R' : α → γ → Prop} {S : β → γ → Prop}
    {xs : List α} {ys : List β} {zs : List γ} (h : List.Forall₂ R xs ys) (h' : List.Forall₂ R' xs zs)
    (hS : ∀ x y z, R x y → R' x z → S y z) : List.Forall₂ S ys zs := by
  induction h generalizing zs with
  | nil =>
    cases h'
    exact .nil
  | cons hxy _ ih =>
    cases h' with
    | cons hxz hrest => exact .cons (hS _ _ _ hxy hxz) (ih hrest)

theorem map_of_forall₂ {γ : Type} {R : α → β → Prop} {f : α → γ} {g : β → γ} {xs : List α} {ys : List β}
    (h : List.Forall₂ R xs ys) (hR : ∀ x y, R x y → f x = g y) : xs.map f = ys.map g := by
  induction h with
  | nil => rfl
  | cons hxy _ ih => rw [List.map_cons, List.map_cons, hR _ _ hxy, ih]

theorem flatMap_of_forall₂ {γ : Type} {R : α → β → Prop} {f : α → List γ} {g : β → List γ}
    {xs : List α} {ys : List β} (h : List.Forall₂ R xs ys) (hR : ∀ x y, R x y → f x = g y) :
    xs.flatMap f = ys.flatMap g := by
  rw [List.flatMap_def, List.flatMap_def, map_of_forall₂ h hR]

theorem exists_mem_of_mapM {f : α → Except ε β} {xs : List α} {ys : List β}
    (h : xs.mapM f = .ok ys) {x : α} (hx : x ∈ xs) : ∃ y ∈ ys, f x = .ok y :=
  exists_of_forall₂ (mapM_eq_ok_iff.1 h) hx

theorem exists_mem_of_mem_mapM {f : α → Except ε β} {xs : List α} {ys : List β}
    (h : xs.mapM f = .ok ys) {y : β} (hy : y ∈ ys) : ∃ x ∈ xs, f x = .ok y := by
  have hflip : List.Forall₂ (fun y x => f x = .ok y) ys xs := (mapM_eq_ok_iff.1 h).flip
  exact exists_of_forall₂ hflip hy

theorem foldlM_keeps {σ : Type} {f : σ → α → Except ε σ} (inv : List α → σ → Prop) {l : List α}
    (hkeep : ∀ done a s s', inv done s → f s a = .ok s' → inv (done ++ [a]) s')
    {done : List α} {s s' : σ} (hs : inv done s) (h : l.foldlM f s = .ok s') : inv (done ++ l) s' := by
  induction l generalizing done s with
  | nil =>
    cases h
    rwa [List.append_nil]
  | cons a l ih =>
    rw [List.foldlM_cons] at h
    obtain ⟨s1, hstep, hrest⟩ := bind_eq_ok h
    have hall := ih (hkeep done a s s1 hs hstep) hrest
    rwa [List.append_assoc] at hall

end result

/-! ## Steps that hand on a state -/

section state
variable {α β δ ε σ : Type}

theorem bind_state_eq_ok {x : StateT σ (Except ε) α} {f : α → StateT σ (Except ε) β} {s s' : σ} {b : β}
    (h : (x >>= f) s = .ok (b, s')) : ∃ a mid, x s = .ok (a, mid) ∧ f a mid = .ok (b, s') := by
  obtain ⟨⟨a, mid⟩, hx, hf⟩ := bind_eq_ok (x := x s) (f := fun p => f p.1 p.2) h
  exact ⟨a, mid, hx, hf⟩

/-- Steps over a list, each from the state that the one before has left. -/
inductive Threads (step : α → σ → β → σ → Prop) : List α → σ → List β → σ → Prop
  | nil {s : σ} : Threads step [] s [] s
  | cons {a : α} {l : List α} {b : β} {bs : List β} {s mid s' : σ} (h : step a s b mid)
      (hrest : Threads step l mid bs s') : Threads step (a :: l) s (b :: bs) s'

theorem threads_of_mapM {f : α → StateT σ (Except ε) β} {l : List α} {bs : List β} {s s' : σ}
    (h : l.mapM f s = .ok (bs, s')) :
    Threads (fun a s b s' => f a s = .ok (b, s')) l s bs s' := by
  induction l generalizing bs s with
  | nil =>
    cases h
    exact .nil
  | cons a l ih =>
    rw [List.mapM_cons] at h
    obtain ⟨b, mid, hstep, h⟩ := bind_state_eq_ok h
    obtain ⟨bs', last, hrest, h⟩ := bind_state_eq_ok h
    cases h
    exact .cons hstep (ih hrest)

theorem foldlM_state (f : δ → α → StateT σ (Except ε) δ) (l : List α) (d : δ) (s : σ) :
    l.foldlM f d s = l.foldlM (fun (p : δ × σ) a => f p.1 a p.2) (d, s) := by
  induction l generalizing d s with
  | nil => rfl
  | cons a l ih =>
    rw [List.foldlM_cons, List.foldlM_cons]
    exact bind_congr (x := f d a s) fun p => ih p.1 p.2

namespace Threads

variable {step step' : α → σ → β → σ → Prop} {l l' : List α} {bs bs' : List β} {s mid s' : σ}

theorem imp (hstep : ∀ a s b s', step a s b s' → step' a s b s') (h : Threads step l s bs s') :
    Threads step' l s bs s' := by
  induction h with
  | nil => exact .nil
  | cons h _ ih => exact .cons (hstep _ _ _ _ h) ih

theorem append (h : Threads step l s bs mid) (h' : Threads step l' mid bs' s') :
    Threads step (l ++ l') s (bs ++ bs') s' := by
  induction h with
  | nil => exact h'
  | cons h _ ih => exact .cons h (ih h')

theorem forall₂ (h : Threads step l s bs s') :
    List.Forall₂ (fun a b => ∃ s s', step a s b s') l bs := by
  induction h with
  | nil => exact .nil
  | cons h _ ih => exact .cons ⟨_, _, h⟩ ih

/-- Two runs over one list from related states. -/
theorem beside {τ γ : Type} {other : α → τ → γ → τ → Prop} {R : β → γ → Prop} {S : σ → τ → Prop}
    (hR : ∀ a s b s' t c t', S s t → step a s b s' → other a t c t' → R b c ∧ S s' t')
    {t t' : τ} {cs : List γ} (h : Threads step l s bs s') (h' : Threads other l t cs t') (hS : S s t) :
    List.Forall₂ R bs cs ∧ S s' t' := by
  induction h generalizing t cs with
  | nil =>
    cases h'
    exact ⟨.nil, hS⟩
  | cons h _ ih =>
    cases h' with
    | cons hother hrest =>
      obtain ⟨hb, hmid⟩ := hR _ _ _ _ _ _ _ hS h hother
      obtain ⟨hbs, hlast⟩ := ih hrest hmid
      exact ⟨.cons hb hbs, hlast⟩

end Threads

end state

/-! ## Settled computations -/

namespace Settles

variable {α β ε : Type} {x : Except ε α} {y : Except ε β} {good good' : Prop} {bad bad' : ε → Prop}

theorem congr (h : Settles x good bad) (hgood : good ↔ good') (hbad : ∀ e, bad e ↔ bad' e) :
    Settles x good' bad' :=
  ⟨h.ok.trans hgood, fun e => (h.error e).trans (hbad e)⟩

theorem success {a : α} (hgood : good) (hbad : ∀ e, ¬ bad e) : Settles (.ok a) good bad :=
  ⟨⟨fun _ => hgood, fun _ => ⟨a, rfl⟩⟩, fun e => ⟨nofun, fun h => absurd h (hbad e)⟩⟩

theorem report {e : ε} (hgood : ¬ good) (hbad : ∀ e', bad e' ↔ e' = e) :
    Settles (.error e : Except ε α) good bad := by
  refine ⟨⟨nofun, fun h => absurd h hgood⟩, fun e' => ?_⟩
  rw [hbad, Except.error.injEq, eq_comm]

theorem self (x : Except ε α) : Settles x (∃ a, x = .ok a) (fun e => x = .error e) :=
  ⟨Iff.rfl, fun _ => Iff.rfl⟩

theorem good_of_ok (h : Settles x good bad) {a : α} (hx : x = .ok a) : good := h.ok.1 ⟨a, hx⟩

theorem ok_unit {x : Except ε Unit} (h : Settles x good bad) : x = .ok () ↔ good := by
  rw [← h.ok]
  exact ⟨fun hx => ⟨(), hx⟩, fun ⟨_, hx⟩ => hx⟩

theorem bad_iff (h : Settles x good bad) : (∃ e, bad e) ↔ ¬ good := by
  simp only [← h.ok, ← h.error]
  cases x <;> simp

theorem seq {f : α → Except ε β} (hx : Settles x good bad)
    (hf : ∀ a, x = .ok a → Settles (f a) good' bad') :
    Settles (x >>= f) (good ∧ good') (fun e => bad e ∨ good ∧ bad' e) := by
  cases x with
  | error e =>
    have hgood : ¬ good := fun h => by simpa using hx.ok.2 h
    refine report (fun h => hgood h.1) fun e' => ?_
    rw [← hx.error, Except.error.injEq]
    simp [hgood, eq_comm]
  | ok a =>
    have hgood : good := hx.good_of_ok rfl
    have hbad : ∀ e, ¬ bad e := fun e h => nomatch (hx.error e).2 h
    exact (hf a rfl).congr (by simp [hgood]) fun e => by simp [hgood, hbad]

theorem guard {p : Prop} [Decidable p] (fault : ε) (h : ¬ p → Settles x good bad) :
    Settles (if p then .error fault else x) (¬ p ∧ good) (fun e => p ∧ e = fault ∨ ¬ p ∧ bad e) := by
  by_cases hp : p
  · rw [if_pos hp]
    exact report (fun hgood => hgood.1 hp) fun e => by simp [hp]
  · rw [if_neg hp]
    exact (h hp).congr (by simp [hp]) fun e => by simp [hp]

theorem returning (h : Settles x good bad) (f : α → β) : Settles (do return f (← x)) good bad := by
  cases x with
  | error e =>
    refine report (fun hgood => by simpa using h.ok.2 hgood) fun e' => ?_
    rw [← h.error, Except.error.injEq, eq_comm]
  | ok a => exact success (h.good_of_ok rfl) fun e hbad => nomatch (h.error e).2 hbad

theorem follow {ε' : Type} {z : Except ε' β} (h : Settles x good bad) (report : ε → ε')
    (hok : ∀ a, x = .ok a → ∃ b, z = .ok b) (herror : ∀ e, x = .error e → z = .error (report e)) :
    Settles z good (fun e' => ∃ e, bad e ∧ e' = report e) := by
  simp only [← h.error]
  cases x with
  | error e =>
    rw [herror e rfl]
    refine Settles.report (fun hgood => ?_) fun e' => by simp
    simpa using h.ok.2 hgood
  | ok a =>
    obtain ⟨b, hb⟩ := hok a rfl
    rw [hb]
    exact success (h.good_of_ok rfl) (by simp)

theorem nil {P : α → Prop} {B : ε → Nat → α → Prop} {i : Nat} {b : β} :
    Settles (.ok b) (∀ a ∈ ([] : List α), P a) (fun e => FirstAt P (B e) i []) :=
  success (by simp) fun _ => firstAt_nil

theorem cons {γ : Type} {P : γ → Prop} {B : ε → Nat → γ → Prop} {i : Nat} {c : γ} {l : List γ}
    {f : α → Except ε β} (hx : Settles x (P c) (fun e => B e i c))
    (hf : ∀ a, x = .ok a →
      Settles (f a) (∀ b ∈ l, P b) (fun e => FirstAt P (B e) (i + 1) l)) :
    Settles (x >>= f) (∀ b ∈ c :: l, P b) (fun e => FirstAt P (B e) i (c :: l)) :=
  (hx.seq hf).congr (by simp) fun _ => firstAt_cons.symm

theorem mapM {f : α → Except ε β} {P : α → Prop} {B : α → ε → Prop}
    (hf : ∀ a, Settles (f a) (P a) (B a)) (i : Nat) (l : List α) :
    Settles (l.mapM f) (∀ a ∈ l, P a) (fun e => FirstAt P (fun _ a => B a e) i l) := by
  induction l generalizing i with
  | nil => exact nil
  | cons a l ih =>
    rw [List.mapM_cons]
    exact cons (hf a) fun b _ => (ih (i + 1)).returning (b :: ·)

theorem mapM_state {σ : Type} {f : α → StateT σ (Except ε) β} {P : α → Prop} {B : α → ε → Prop}
    (hf : ∀ a s, Settles (f a s) (P a) (B a)) (i : Nat) (l : List α) (s : σ) :
    Settles (l.mapM f s) (∀ a ∈ l, P a) (fun e => FirstAt P (fun _ a => B a e) i l) := by
  induction l generalizing i s with
  | nil => exact nil
  | cons a l ih =>
    rw [List.mapM_cons]
    exact cons (hf a s) fun p _ => (ih (i + 1) p.2).returning fun q => (p.1 :: q.1, q.2)

theorem forM {f : α → Except ε PUnit} {P : α → Prop} {B : α → ε → Prop}
    (hf : ∀ a, Settles (f a) (P a) (B a)) (i : Nat) (l : List α) :
    Settles (l.forM f) (∀ a ∈ l, P a) (fun e => FirstAt P (fun _ a => B a e) i l) := by
  induction l generalizing i with
  | nil => exact nil
  | cons a l ih => exact cons (hf a) fun _ _ => ih (i + 1)

/-- Steps that are good or bad after the elements passed before. -/
theorem foldlM {σ : Type} {f : σ → α → Except ε σ} (inv : List α → σ → Prop)
    {P : List α → α → Prop} {B : List α → α → ε → Prop}
    (hstep : ∀ done a s, inv done s → Settles (f s a) (P done a) (B done a))
    (hkeep : ∀ done a s s', inv done s → f s a = .ok s' → inv (done ++ [a]) s')
    {done : List α} {s : σ} (hs : inv done s) (l : List α) :
    Settles (l.foldlM f s) (EachIn (fun before => P (done ++ before)) l)
      (fun e => FirstIn (fun before => P (done ++ before)) (fun before a => B (done ++ before) a e) l) := by
  induction l generalizing done s with
  | nil => exact success eachIn_nil fun _ => firstIn_nil
  | cons a l ih =>
    rw [List.foldlM_cons]
    refine ((hstep done a s hs).seq fun s' hs' => ih (hkeep done a s s' hs hs')).congr ?_ ?_
    · rw [eachIn_cons, List.append_nil]
      simp only [List.append_assoc, List.singleton_append]
    · intro e
      rw [firstIn_cons, List.append_nil]
      simp only [List.append_assoc, List.singleton_append]

end Settles

end EntityCatalog
