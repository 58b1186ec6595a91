import EntityCatalog.Proofs.Aspect.Filling
import EntityCatalog.Proofs.Aspect.Sight
import EntityCatalog.Proofs.Aspect.Sources

/-!
# What aspects send

Of the aspects of the library only remotes send something, and a remote sends one request each time it is
asked, whatever comes of it: for the entity that passes (`Aspect.posts_augment`), or for the listing
(`Aspect.posts_list`). Stores look at files, and no aspect of the library changes the identifier of an
entity, so that all remotes of a chain are asked for the same entity.
-/

namespace EntityCatalog

theorem Journal.posts_append (j made : Journal) : Journal.posts (j ++ made) = j.posts ++ Journal.posts made :=
  List.filterMap_append

/-- What remotes are asked for: an entity, or a listing. -/
inductive Errand where
  | entity (id : EntityId)
  | listing (request : ListRequest)

/-- The request with which an endpoint is asked. -/
def Errand.post (errand : Errand) (endpoint : String) : Post :=
  match errand with
  | entity id => ⟨endpoint ++ "/get", .object [("id", .string id.text)]⟩
  | listing request => ⟨endpoint ++ "/list", request.encode⟩

/-! ## Stores -/

namespace Store

variable (s : Store)

theorem posts_augment (e : Entity) (env : Env) (j : Journal) : (s.augment e env j).2.posts = j.posts := by
  have hreads : Journal.posts (s.reads e.id) = [] := by
    unfold reads
    cases s.pathFor e.id <;> rfl
  rw [augment_journal, Journal.posts_append, hreads, List.append_nil]

theorem posts_list (kind : EntityKind) (before : List Entity) (env : Env) (j : Journal) :
    (s.list kind before env j).2.posts = j.posts := by
  rw [list_journal]
  by_cases hpaths : kind.paths = []
  · obtain ⟨probed, hjournal, -⟩ := s.single_spec kind env j
    have hprobed : Journal.posts (probed.map .probe) = [] := by
      simp [Journal.posts, List.filterMap_map]
    rw [search_of_no_paths hpaths, hjournal, Journal.posts_append, hprobed, List.append_nil]
  · obtain ⟨opened, -, hjournal, -⟩ := s.walk_spec kind env j
    have hopened : Journal.posts
        (.enter (s.kindPath kind.id) :: opened.map fun stop => .enter stop.path) = [] := by
      simp [Journal.posts, List.filterMap_map]
    rw [search_of_paths hpaths, hjournal, Journal.posts_append, hopened, List.append_nil]

end Store

/-! ## Remotes -/

namespace Remote

variable (r : Remote)

theorem post_journal (route : String) (body : Json.Value) (env : Env) (j : Journal) :
    (r.post route body env j).2 = j ++ [.post ⟨r.url route, body⟩] := by
  rw [post, Run.bind_apply, Run.post_apply]
  cases env.world.remote j.posts ⟨r.url route, body⟩ with
  | none => rfl
  | some reply =>
    dsimp only
    split
    · rfl
    · split <;> rfl

theorem post_of_notFound {route : String} {body : Json.Value} {env : Env} {j : Journal} {reply : Reply}
    (hreply : env.world.remote j.posts ⟨r.url route, body⟩ = some reply)
    (hstatus : reply.status = Status.notFound) : (r.post route body env j).1 = .ok none := by
  rw [post, Run.bind_apply, Run.post_apply, hreply]
  dsimp only
  rw [if_pos hstatus]
  rfl

theorem entity_post (id : EntityId) :
    (Errand.entity id).post r.endpoint = ⟨r.url "get", .object [("id", id.encode)]⟩ := by
  rw [Errand.post, url, String.append_assoc]
  rfl

theorem listing_post (request : ListRequest) :
    (Errand.listing request).post r.endpoint = ⟨r.url "list", request.encode⟩ := by
  rw [Errand.post, url, String.append_assoc]
  rfl

theorem augment_journal (e : Entity) (env : Env) (j : Journal) :
    (r.augment e env j).2 = j ++ [.post ((Errand.entity e.id).post r.endpoint)] := by
  rw [r.entity_post, ← r.post_journal, augment, Run.bind_apply]
  obtain ⟨_ | _ | body, j'⟩ := r.post "get" (.object [("id", e.id.encode)]) env j <;> rfl

theorem list_journal (request : ListRequest) (kind : EntityKind) (before : List Entity) (env : Env)
    (j : Journal) :
    (r.list request kind before env j).2 = j ++ [.post ((Errand.listing request).post r.endpoint)] := by
  rw [r.listing_post, ← r.post_journal, list, Run.bind_apply]
  obtain ⟨_ | _ | body, j'⟩ := r.post "list" request.encode env j <;> rfl

theorem augment_of_notFound {e : Entity} {env : Env} {j : Journal} {reply : Reply}
    (hreply : env.world.remote j.posts ((Errand.entity e.id).post r.endpoint) = some reply)
    (hstatus : reply.status = Status.notFound) : (r.augment e env j).1 = .success e := by
  rw [r.entity_post] at hreply
  rw [augment, Run.bind_apply, r.post_of_notFound hreply hstatus]
  rfl

theorem list_of_notFound {request : ListRequest} {kind : EntityKind} {before : List Entity} {env : Env}
    {j : Journal} {reply : Reply}
    (hreply : env.world.remote j.posts ((Errand.listing request).post r.endpoint) = some reply)
    (hstatus : reply.status = Status.notFound) :
    (r.list request kind before env j).1 = .success before := by
  rw [r.listing_post] at hreply
  rw [list, Run.bind_apply, r.post_of_notFound hreply hstatus]
  rfl

end Remote

/-! ## Aspects -/

namespace Aspect

/-- What an aspect sends when it is asked. -/
def sends (errand : Errand) : Aspect → List Post
  | remote r => [errand.post r.endpoint]
  | _ => []

theorem posts_stamp (e : Entity) (env : Env) (j : Journal) : (stamp e env j).2.posts = j.posts := by
  obtain ⟨id, ts, links, related, data⟩ := e
  cases ts with
  | some t => rfl
  | none => exact (Journal.posts_append j [.clock]).trans (List.append_nil _)

variable {a : Aspect}

theorem posts_augment (h : a.BuiltIn) (kind : EntityKind) (e : Entity) (env : Env) (j : Journal) :
    (a.augment kind e env j).2.posts = j.posts ++ a.sends (.entity e.id) := by
  cases a with
  | store s => exact (s.posts_augment e env j).trans (List.append_nil _).symm
  | remote r =>
    rw [augment, r.augment_journal, Journal.posts_append]
    rfl
  | timestamp => exact (posts_stamp e env j).trans (List.append_nil _).symm
  | extension o => exact absurd rfl (h o)
  | _ => exact (List.append_nil _).symm

theorem posts_list (h : a.BuiltIn) (request : ListRequest) (kind : EntityKind) (before : List Entity)
    (env : Env) (j : Journal) :
    (a.list request kind before env j).2.posts = j.posts ++ a.sends (.listing request) := by
  cases a with
  | store s => exact (s.posts_list kind before env j).trans (List.append_nil _).symm
  | remote r =>
    rw [list, r.list_journal, Journal.posts_append]
    rfl
  | extension o => exact absurd rfl (h o)
  | _ => exact (List.append_nil _).symm

theorem id_augment (h : a.BuiltIn) (kind : EntityKind) (e : Entity) (env : Env) (j : Journal) :
    (a.augment kind e env j).1.left.id = e.id := by
  cases a with
  | store s =>
    rw [augment_of_source (.store s)]
    exact e.informed_id _
  | remote r =>
    rw [augment_of_source (.remote r)]
    exact e.informed_id _
  | links templates => exact Template.apply_id templates e
  | timestamp =>
    obtain ⟨id, ts, links, related, data⟩ := e
    cases ts <;> rfl
  | validation =>
    cases hvalid : validate kind e with
    | error cause =>
      rw [augment, hvalid]
      rfl
    | ok _ =>
      rw [augment, hvalid]
      rfl
  | error message => rfl
  | extension o => exact absurd rfl (h o)

end Aspect

end EntityCatalog
