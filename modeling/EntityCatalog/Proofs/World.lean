import EntityCatalog.Aspect.Error
import EntityCatalog.World

/-!
# Looks at the world, and runs that come to a result

Each look answers from the world and leaves one note. Most runs go on only from what an earlier one has
succeeded with. If such a run ends with a result that it does not give after a failure, the earlier one
has succeeded.
-/

namespace EntityCatalog.Run

variable {ε α β : Type} {env : Env} {j : Journal} {b : β}

/-! ## One look at the world -/

@[simp] theorem note_apply (a : Access) (env : Env) (j : Journal) :
    note a env j = ((), j ++ [a]) := rfl

@[simp] theorem read_apply (path : FilePath) (env : Env) (j : Journal) :
    read path env j = (env.world.files.read path, j ++ [.read path]) := rfl

@[simp] theorem probe_apply (path : FilePath) (env : Env) (j : Journal) :
    probe path env j = (env.world.files.hasEntry path, j ++ [.probe path]) := rfl

@[simp] theorem enter_apply (path : FilePath) (env : Env) (j : Journal) :
    enter path env j = (env.world.files.directory path, j ++ [.enter path]) := rfl

@[simp] theorem post_apply (p : Post) (env : Env) (j : Journal) :
    post p env j = (env.world.remote j.posts p, j ++ [.post p]) := rfl

@[simp] theorem now_apply (env : Env) (j : Journal) :
    now env j = (env.world.clock j.readings, j ++ [.clock]) := rfl

/-! ## Runs that look at part of the environment -/

/-- A run looks at the world, and never at what handles are bound to. -/
def WorldOnly (m : Run α) : Prop :=
  ∀ env env' j, env.world = env'.world → m env j = m env' j

/-- A run looks at files, and at nothing else. -/
def FilesOnly (m : Run α) : Prop :=
  ∀ env env' j, env.world.files = env'.world.files → m env j = m env' j

theorem FilesOnly.worldOnly {m : Run α} (h : FilesOnly m) : WorldOnly m :=
  fun env env' j hworld => h env env' j (congrArg World.files hworld)

theorem worldOnly_pure (a : α) : WorldOnly (Pure.pure a : Run α) := fun _ _ _ _ => rfl

theorem WorldOnly.bind {m : Run α} {k : α → Run β} (hm : WorldOnly m) (hk : ∀ a, WorldOnly (k a)) :
    WorldOnly (m >>= k) := by
  intro env env' j hworld
  rw [bind_apply, bind_apply, hm env env' j hworld]
  exact hk _ env env' _ hworld

theorem worldOnly_post (p : Post) : WorldOnly (post p) := by
  intro env env' j hworld
  rw [post_apply, post_apply, hworld]

theorem worldOnly_now : WorldOnly now := by
  intro env env' j hworld
  rw [now_apply, now_apply, hworld]

theorem filesOnly_pure (a : α) : FilesOnly (Pure.pure a : Run α) := fun _ _ _ _ => rfl

theorem filesOnly_note (a : Access) : FilesOnly (note a) := fun _ _ _ _ => rfl

theorem FilesOnly.bind {m : Run α} {k : α → Run β} (hm : FilesOnly m) (hk : ∀ a, FilesOnly (k a)) :
    FilesOnly (m >>= k) := by
  intro env env' j hfiles
  rw [bind_apply, bind_apply, hm env env' j hfiles]
  exact hk _ env env' _ hfiles

theorem filesOnly_probe (path : FilePath) : FilesOnly (probe path) := by
  intro env env' j hfiles
  rw [probe_apply, probe_apply, hfiles]

theorem filesOnly_enter (path : FilePath) : FilesOnly (enter path) := by
  intro env env' j hfiles
  rw [enter_apply, enter_apply, hfiles]

/-! ## Results -/

theorem bind_except {m : Run (Except ε α)} {k : Except ε α → Run β} (h : ((m >>= k) env j).1 = b) :
    (∃ e j', m env j = (.error e, j') ∧ (k (.error e) env j').1 = b) ∨
      ∃ a j', m env j = (.ok a, j') ∧ (k (.ok a) env j').1 = b := by
  rw [bind_apply] at h
  cases hm : m env j with
  | mk x j' =>
    rw [hm] at h
    cases x with
    | error e => exact .inl ⟨e, j', rfl, h⟩
    | ok a => exact .inr ⟨a, j', rfl, h⟩

theorem bind_attempt {m : Run (Attempt ε α)} {k : Attempt ε α → Run β}
    (h : ((m >>= k) env j).1 = b) :
    (∃ left e j', m env j = (.failure left e, j') ∧ (k (.failure left e) env j').1 = b) ∨
      ∃ a j', m env j = (.success a, j') ∧ (k (.success a) env j').1 = b := by
  rw [bind_apply] at h
  cases hm : m env j with
  | mk x j' =>
    obtain ⟨a, failure?⟩ := x
    rw [hm] at h
    cases failure? with
    | some e => exact .inl ⟨a, e, j', rfl, h⟩
    | none => exact .inr ⟨a, j', rfl, h⟩

theorem bind_ok {m : Run (Except ε α)} {k : Except ε α → Run β} (h : ((m >>= k) env j).1 = b)
    (hk : ∀ e j, (k (.error e) env j).1 ≠ b) :
    ∃ a j', m env j = (.ok a, j') ∧ (k (.ok a) env j').1 = b :=
  (bind_except h).resolve_left fun ⟨e, j', _, h⟩ => hk e j' h

theorem bind_success {m : Run (Attempt ε α)} {k : Attempt ε α → Run β}
    (h : ((m >>= k) env j).1 = b) (hk : ∀ left e j, (k (.failure left e) env j).1 ≠ b) :
    ∃ a j', m env j = (.success a, j') ∧ (k (.success a) env j').1 = b :=
  (bind_attempt h).resolve_left fun ⟨left, e, j', _, h⟩ => hk left e j' h

end EntityCatalog.Run
