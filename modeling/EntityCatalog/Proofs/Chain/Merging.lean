import EntityCatalog.Proofs.Aspect.Sources
import EntityCatalog.Proofs.Chain.Grouping
import EntityCatalog.Proofs.Chain.Stopping
import EntityCatalog.Proofs.Merging

/-!
# The last report decides

Reports on one entity come together in two places: discovery groups what the aspects of a chain have listed,
and an entity that passes stores and remotes takes in what each of them says. Both merge from the first to
the last, and what they come to in every part is decided by the last report that says something about it
(`AspectChain.merged_last_wins`).
-/

namespace EntityCatalog

open Document
open Json (Value)
open Run (Steps)

namespace AspectChain

variable {kind : EntityKind} {env : Env} {id : EntityId} {a : Aspect} {aspects : List Aspect} {e out : Entity}
  {told told' : List Entity} {j j' : Journal}

/-! ## Stores and remotes one after another -/

/-- The step of asking an aspect about an identifier, on what was said so far. -/
def asking (id : EntityId) (a : Aspect) (told : List Entity) : Run (Attempt AspectError (List Entity)) := do
  match ← a.answer id with
  | .error cause => return .failure told cause
  | .ok report? => return .success (told ++ report?.toList)

theorem asking_eq_success_iff : asking id a told env j = (.success told', j') ↔
    ∃ report?, a.answer id env j = (.ok report?, j') ∧ told' = told ++ report?.toList := by
  rw [asking, Run.bind_apply]
  obtain ⟨cause | report?, j₁⟩ := a.answer id env j
  · simp [Attempt.failure, Attempt.success]
  · simp [Attempt.success, eq_comm, and_comm]

theorem augmenting_eq_success_iff (h : a.Source) : augmenting kind a e env j = (.success out, j') ↔
    ∃ report?, a.answer e.id env j = (.ok report?, j') ∧ out = report?.toList.foldl Entity.merge e := by
  rw [augmenting, Aspect.augment_of_source h, Run.bind_apply]
  obtain ⟨cause | _ | report, j₁⟩ := a.answer e.id env j <;>
    simp [Entity.informed, Attempt.failure, Attempt.success, eq_comm, and_comm]

/-- A pass is asking, with all that is said merged into the entity that came. -/
theorem steps_sources_iff (h : ∀ a ∈ aspects, a.Source) :
    Steps (augmenting kind) env aspects (told.foldl Entity.merge e) j out j' ↔
      ∃ told', Steps (asking e.id) env aspects told j told' j' ∧ out = told'.foldl Entity.merge e := by
  constructor
  · intro hsteps
    generalize hstart : told.foldl Entity.merge e = start at hsteps
    induction hsteps generalizing told with
    | none => exact ⟨told, .none, hstart.symm⟩
    | next hstep _ ih =>
      rw [List.forall_mem_cons] at h
      obtain ⟨report?, hanswer, rfl⟩ := (augmenting_eq_success_iff h.1).1 hstep
      rw [← hstart, Entity.foldl_merge_id] at hanswer
      obtain ⟨told', hrest, hout⟩ := ih h.2 (by rw [List.foldl_append, hstart])
      exact ⟨told', .next (asking_eq_success_iff.2 ⟨report?, hanswer, rfl⟩) hrest, hout⟩
  · rintro ⟨told', hsteps, rfl⟩
    induction hsteps with
    | none => exact .none
    | next hstep _ ih =>
      rw [List.forall_mem_cons] at h
      obtain ⟨report?, hanswer, rfl⟩ := asking_eq_success_iff.1 hstep
      refine .next ((augmenting_eq_success_iff h.1).2 ⟨report?, ?_, ?_⟩) (ih h.2)
      · rw [Entity.foldl_merge_id]
        exact hanswer
      · rw [List.foldl_append]

theorem ordered_of_steps_asking (h : ∀ a ∈ aspects, a.Source)
    (hsteps : Steps (asking id) env aspects told j told' j') (htold : ∀ x ∈ told, x.data.Ordered) :
    ∀ x ∈ told', x.data.Ordered := by
  induction hsteps with
  | none => exact htold
  | next hstep _ ih =>
    rw [List.forall_mem_cons] at h
    obtain ⟨report?, hanswer, rfl⟩ := asking_eq_success_iff.1 hstep
    refine ih h.2 (List.forall_mem_append.2 ⟨htold, fun x hx => ?_⟩)
    rw [Option.mem_toList] at hx
    rw [hx] at hanswer
    exact h.1.ordered_of_answer hanswer

/-! ## Both together -/

/-- **The last report decides.** Entities that are merged in turn into a first one come to the one entity
with the identifier of the first in which the timestamp, and each link and relation, is that of the last entity
that has it, and free data is settled by the objects behind the last value that is neither null nor an object.
Merging is idempotent, and an entity of which only the identifier is known adds nothing and takes in
everything. What discovery finds is what the last of the reports say that stand at the end, and an entity that
has passed stores and remotes is what the last of their answers say. The members of objects are in order
throughout, as they are in all that is read. -/
theorem merged_last_wins :
    (∀ (e : Entity) (rest : List Entity), (∀ x ∈ e :: rest, x.data.Ordered) →
      ∀ out, out = rest.foldl Entity.merge e ↔ out.id = e.id ∧ Entity.LastWins (e :: rest) out) ∧
    (∀ e : Entity, e.data.Ordered → e.merge e = e) ∧
    (∀ e report : Entity, e.data.Ordered → report.data.Ordered →
      (e.merge report).merge report = e.merge report) ∧
    (∀ (e : Entity) (id : EntityId), e.merge (.bare id) = e ∧ (Entity.bare id).merge e = { e with id }) ∧
    (∀ reports : List Entity, (∀ x ∈ reports, x.data.Ordered) →
      ∀ e ∈ group reports, Entity.LastWins (reports.filter (·.id = e.id)) e) ∧
    ∀ (kind : EntityKind) (env : Env) (aspects : List Aspect), (∀ a ∈ aspects, a.Source) →
      ∀ (e out : Entity) (j j' : Journal), e.data.Ordered →
        Steps (augmenting kind) env aspects e j out j' →
        ∃ told, Steps (asking e.id) env aspects [] j told j' ∧ out.id = e.id ∧
          Entity.LastWins (e :: told) out := by
  refine ⟨fun e rest hall out => ?_, fun e => Entity.merge_self, fun e report => Entity.merge_again,
    fun e id => ⟨Entity.merge_bare e id, Entity.bare_merge id e⟩, fun reports hreports e he => ?_,
    fun kind env aspects hsources e out j j' he hsteps => ?_⟩
  · have hid := Entity.foldl_merge_id e rest
    have hlast := Entity.lastWins_foldl hall
    constructor
    · rintro rfl
      exact ⟨hid, hlast⟩
    · rintro ⟨hout, hlast'⟩
      exact hlast'.unique hlast (hout.trans hid.symm)
  · obtain ⟨first, rest, hfilter, hmerged⟩ := (grouped_group reports).merged e he
    have hall : ∀ x ∈ first :: rest, x.data.Ordered := by
      rw [← hfilter]
      exact fun x hx => hreports x (List.mem_filter.1 hx).1
    rw [hfilter]
    exact hmerged ▸ Entity.lastWins_foldl hall
  · replace hsteps : Steps (augmenting kind) env aspects ([].foldl Entity.merge e) j out j' := hsteps
    obtain ⟨told, htold, rfl⟩ := (steps_sources_iff hsources).1 hsteps
    have hall : ∀ x ∈ e :: told, x.data.Ordered :=
      List.forall_mem_cons.2 ⟨he, ordered_of_steps_asking hsources htold (by simp)⟩
    exact ⟨told, htold, Entity.foldl_merge_id e told, Entity.lastWins_foldl hall⟩

/-! ### What is said of a book -/

def saidOf : EntityId := ⟨⟨"demo", "book"⟩, ["2"]⟩

/-- A book of which somebody says something. -/
def saying (data : Value) : Entity := { Entity.bare saidOf with data }

/-- Most of it is said in parts, but one says a text, and one says nothing. -/
def sayings : List Entity :=
  [saying (.object [("a", .nat 1), ("d", .nat 1)]), saying (.string "lost"),
    saying (.object [("a", .nat 2), ("c", .nat 3)]), saying .null, saying (.object [("a", .nat 4), ("b", .nat 5)])]

def firstAnswer : String := "\x7b\"id\":\"demo.book/2\",\"data\":\x7b\"a\":\"b\",\"c\":\"d\"\x7d\x7d"

def secondAnswer : String := "\x7b\"id\":\"demo.book/2\",\"data\":\x7b\"a\":\"e\"\x7d\x7d"

/-- Who is asked first gives another answer than all others. There are no files. -/
def sayingEnv : Env :=
  ⟨⟨⟨.directory [], []⟩, fun sent _ => some ⟨200, if sent.isEmpty then firstAnswer else secondAnswer⟩,
    fun _ => ⟨0, 0, 0⟩⟩, .empty⟩

/-- The request for the book. -/
def postTo (endpoint : String) : Post := ⟨(Remote.mk endpoint).url "get", .object [("id", saidOf.encode)]⟩

def sources : List Aspect := [.remote ⟨"http://a"⟩, .store ⟨"store", .yaml, false⟩, .remote ⟨"http://b"⟩]

theorem reportOn_firstAnswer : Remote.reportOn saidOf firstAnswer =
    .ok (saying (.object [("a", .string "b"), ("c", .string "d")])) := by
  have hparse : Doc.parse firstAnswer = (.object [(.string "id", .string "demo.book/2"),
      (.string "data", .object [(.string "a", .string "b"), (.string "c", .string "d")])], true) := by cbv
  rw [Remote.reportOn, Remote.receive, Doc.decode, hparse]
  rfl

theorem reportOn_secondAnswer : Remote.reportOn saidOf secondAnswer =
    .ok (saying (.object [("a", .string "e")])) := by
  have hparse : Doc.parse secondAnswer = (.object [(.string "id", .string "demo.book/2"),
      (.string "data", .object [(.string "a", .string "e")])], true) := by cbv
  rw [Remote.reportOn, Remote.receive, Doc.decode, hparse]
  rfl

/-- The text takes away all that was said before, and the objects behind it take its place. -/
theorem merged_last_wins_sayings :
    (∀ x ∈ sayings, x.data.Ordered) ∧
      group sayings = [saying (.object [("a", .nat 4), ("b", .nat 5), ("c", .nat 3)])] ∧
      Entity.LastWins sayings (saying (.object [("a", .nat 4), ("b", .nat 5), ("c", .nat 3)])) ∧
      ∃ told j', Steps (asking saidOf) sayingEnv sources [] [] told j' ∧
        Entity.LastWins (saying (.string "lost") :: told)
          (saying (.object [("a", .string "e"), ("c", .string "d")])) := by
  obtain ⟨-, -, -, -, hgrouped, hpassed⟩ := merged_last_wins
  have hordered : ∀ x ∈ sayings, x.data.Ordered := by decide
  have hgroup : group sayings = [saying (.object [("a", .nat 4), ("b", .nat 5), ("c", .nat 3)])] := rfl
  have hlast := hgrouped sayings hordered _ (hgroup ▸ List.mem_singleton_self _)
  have hsources : ∀ a ∈ sources, a.Source := by
    simp only [sources, List.forall_mem_cons, List.not_mem_nil, false_imp_iff, implies_true, and_true]
    exact ⟨.remote _, .store _, .remote _⟩
  have hfirst : (Remote.mk "http://a").answer saidOf sayingEnv [] =
      (.ok (some (saying (.object [("a", .string "b"), ("c", .string "d")]))), [.post (postTo "http://a")]) := by
    have hreply : sayingEnv.world.remote (Journal.posts []) (postTo "http://a") = some ⟨200, firstAnswer⟩ := rfl
    rw [Remote.answer_of_reply hreply rfl, reportOn_firstAnswer]
    rfl
  have hnothing (j : Journal) : (Store.mk "store" .yaml false).answer saidOf sayingEnv j =
      (.ok none, j ++ [.read ⟨"store", ["demo", "book", "2.yaml"]⟩]) := rfl
  have hsecond (p : Post) (path : FilePath) : (Remote.mk "http://b").answer saidOf sayingEnv [.post p, .read path] =
      (.ok (some (saying (.object [("a", .string "e")]))), [.post p, .read path, .post (postTo "http://b")]) := by
    have hreply : sayingEnv.world.remote (Journal.posts [.post p, .read path]) (postTo "http://b") =
      some ⟨200, secondAnswer⟩ := rfl
    rw [Remote.answer_of_reply hreply rfl, reportOn_secondAnswer]
    rfl
  have hsteps : Steps (augmenting Service.books) sayingEnv sources (saying (.string "lost")) []
      (saying (.object [("a", .string "e"), ("c", .string "d")])) _ :=
    .next ((augmenting_eq_success_iff (.remote _)).2 ⟨_, hfirst, rfl⟩) <|
      .next ((augmenting_eq_success_iff (.store _)).2 ⟨_, hnothing _, rfl⟩) <|
      .next ((augmenting_eq_success_iff (.remote _)).2 ⟨_, hsecond _ _, rfl⟩) .none
  obtain ⟨told, htold, -, hout⟩ := hpassed _ _ _ hsources (saying (.string "lost")) _ _ _ trivial hsteps
  exact ⟨hordered, hgroup, hlast, told, _, htold, hout⟩

end AspectChain
end EntityCatalog
