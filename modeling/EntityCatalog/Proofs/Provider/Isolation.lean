import EntityCatalog.Proofs.Aspect.Sight
import EntityCatalog.Proofs.Chain.Complete
import EntityCatalog.Proofs.Provider.Comparison
import EntityCatalog.Proofs.Provider.Context

/-!
# Kinds do not interfere

What a provider answers for a kind depends on the declaration of that kind, on the extensions and on the
configuration. The other declarations come into a chain only by what an extension is given: the repository,
which has all kinds, or the handle, which leads to what all declarations contribute. A kind whose extensions
opt in to neither has the same chain in every model, but for the numbers of its objects
(`AspectChain.renumbered_of_build`), and it is answered alike (`Provider.kinds_isolated`).
-/

namespace EntityCatalog

/-- The extensions of a kind are given nothing, and answer from what they are asked and what they find. -/
def EntityKind.SelfContained (extensions : Extensions) (kind : EntityKind) : Prop :=
  ∀ name x, .extension name ∈ kind.connectors → extensions.aspects.get? name = some x →
    x.repositoryAware [] = false ∧ x.providerAware [] = false ∧ x.Sealed

section chain
variable {cx cx' : BuildContext} {kind : EntityKind}

theorem BuildContext.object_grants {x : AspectExtension} (hrepository : x.repositoryAware [] = false)
    (hprovider : x.providerAware [] = false) (s : Construction) : (cx.object x s).grants = [] := by
  simp [object, repositoryGrants, providerGrants, hrepository, hprovider]

theorem BuildContext.renumbered_of_yields (hextensions : cx.extensions = cx'.extensions)
    (hconfig : cx.config = cx'.config) (h : kind.SelfContained cx.extensions) {declared : Connector}
    (hdeclared : declared ∈ kind.connectors) {a b : Aspect} (ha : cx.Yields declared a)
    (hb : cx'.Yields declared b) : a.Secluded ∧ a.Renumbered b := by
  obtain ⟨s, s', ha⟩ := ha
  obtain ⟨t, t', hb⟩ := hb
  cases ha.alike hb hextensions with
  | own hown => exact ⟨.builtIn hown, .same a⟩
  | store =>
    rw [hconfig]
    exact ⟨.builtIn nofun, .same _⟩
  | @extension name x hname hx =>
    obtain ⟨hrepository, hprovider, hsealed⟩ := h name x (hname ▸ hdeclared) hx
    have hobject (cx : BuildContext) (s : Construction) : cx.object x s = ⟨s.objects, x, []⟩ :=
      congrArg (AspectObject.mk s.objects x) (object_grants hrepository hprovider s)
    rw [hobject, hobject]
    exact ⟨.extension hsealed nofun, .extension⟩

theorem AspectChain.renumbered_of_build {c c' : AspectChain} (hc : BuiltFor cx kind c)
    (hc' : BuiltFor cx' kind c') (hextensions : cx.extensions = cx'.extensions)
    (hconfig : cx.config = cx'.config) (h : kind.SelfContained cx.extensions) :
    List.Forall₂ (fun a b => a.Secluded ∧ a.Renumbered b) c.aspects c'.aspects := by
  obtain ⟨-, declared, templates, hdeclared, htemplates, haspects⟩ := hc.aspects_eq
  obtain ⟨-, declared', templates', hdeclared', htemplates', haspects'⟩ := hc'.aspects_eq
  obtain rfl := Except.ok.inj (htemplates.symm.trans htemplates')
  have hmade := forall₂_beside
    (forall₂_imp_mem hdeclared fun x hx a _ (ha : cx.Yields x a) => And.intro hx ha) hdeclared'
    fun x a b ha hb => BuildContext.renumbered_of_yields hextensions hconfig h ha.1 ha.2 hb
  rw [haspects, haspects']
  refine List.rel_append hmade (List.forall₂_same.2 fun a ha => ⟨.builtIn ?_, .same a⟩)
  rintro o rfl
  simp at ha

end chain

namespace Provider

variable {kinds kinds' : KindRepository} {types types' : TypeRepository} {extensions : Extensions}
  {config : Config} {p p' : Provider} {k : EntityKind}

/-- **Kinds do not interfere.** Let two models declare the same kind, whose extensions are given nothing and
are functions of what they are asked and find. Whatever else the two models declare, and wherever, the kind
has the same chain in both, but for the numbers of objects. Every request for it has the same answer in the
same world after the same accesses, and makes the same accesses in turn. -/
theorem kinds_isolated (h : build kinds types extensions config = .ok p)
    (h' : build kinds' types' extensions config = .ok p') (hk : k ∈ kinds.kinds) (hk' : k ∈ kinds'.kinds)
    (hself : k.SelfContained extensions) (world : World) (j : Journal) :
    (∃ c c', p.services.service? k.id.text = some (.kind c) ∧
      p'.services.service? k.id.text = some (.kind c') ∧ c.kind = k ∧ c'.kind = k ∧
      List.Forall₂ Aspect.Renumbered c.aspects c'.aspects) ∧
    (∀ iri, p.services.get k.id.text iri (p.env world) j =
      p'.services.get k.id.text iri (p'.env world) j) ∧
    ∀ request, p.services.list k.id.text request (p.env world) j =
      p'.services.list k.id.text request (p'.env world) j := by
  obtain ⟨c, hc, hservice⟩ := service_of_kind h hk
  obtain ⟨c', hc', hservice'⟩ := service_of_kind h' hk'
  have hrelated := AspectChain.renumbered_of_build hc hc' rfl rfl hself
  have hworld : (p.env world).world = (p'.env world).world := rfl
  have hfollows : List.Forall₂ (Aspect.Follows Aspect.never (p.env world) (p'.env world))
      c.aspects c'.aspects := hrelated.imp fun _ _ hab => Aspect.follows_of_world hab.1 hab.2 hworld
  have hkind := hc.aspects_eq.1
  have hkind' := hc'.aspects_eq.1
  refine ⟨⟨c, c', hservice, hservice', hkind, hkind', hrelated.imp fun _ _ hab => hab.2⟩, ?_, ?_⟩
  all_goals
    obtain ⟨kind, aspects⟩ := c
    obtain ⟨kind', others⟩ := c'
    obtain rfl : kind = k := hkind
    obtain rfl : kind' = kind := hkind'
  · intro iri
    rw [Services.get, Services.get, hservice, hservice']
    exact Service.get_same hfollows iri j
  · intro request
    rw [Services.list, Services.list, hservice, hservice']
    exact Service.list_same hfollows request j

/-! ### Books with and without neighbours -/

def neighbours : Extensions :=
  ⟨.ofList [("annotator", annotator), ("impostor", Service.impostor)], .ofList [("clerk", clerk)]⟩

theorem impostor_selfContained : Service.books.SelfContained neighbours := by
  intro name x hname hx
  obtain rfl : name = "impostor" := by simpa [Service.books] using hname
  obtain rfl : Service.impostor = x := Option.some.inj hx
  exact ⟨rfl, rfl, fun _ _ _ => rfl, fun _ _ _ => rfl⟩

/-- With an author in front and a type after it, the registry is another one, and a book is as it was. -/
theorem kinds_isolated_neighbours :
    ∃ p p', build ⟨[Service.books]⟩ .empty neighbours .standard = .ok p ∧
      build ⟨[annotatedAuthor, Service.books]⟩ clerks neighbours .standard = .ok p' ∧
      p.types.find? "demo.Note" = none ∧
      p'.types.find? "demo.Note" = some ⟨"demo.Note", [.plain "title" 1 .string]⟩ ∧
      (p'.services.get "demo.book" "demo.book/1" (p'.env stillWorld) []).1 =
        .ok (.ofEntity Service.secondBook) := by
  obtain ⟨p, hbuild, hnote, hservice⟩ : ∃ p, build ⟨[Service.books]⟩ .empty neighbours .standard = .ok p ∧
      p.types.find? "demo.Note" = none ∧ p.services.service? "demo.book" = some (.kind Service.bookChain) :=
    ⟨_, rfl, rfl, rfl⟩
  obtain ⟨p', hbuild', hnote'⟩ : ∃ p',
      build ⟨[annotatedAuthor, Service.books]⟩ clerks neighbours .standard = .ok p' ∧
      p'.types.find? "demo.Note" = some ⟨"demo.Note", [.plain "title" 1 .string]⟩ := ⟨_, rfl, rfl⟩
  obtain ⟨-, hsame, -⟩ :=
    kinds_isolated hbuild hbuild' (by simp) (by simp) impostor_selfContained stillWorld []
  refine ⟨p, p', hbuild, hbuild', hnote, hnote', ?_⟩
  change (p'.services.get Service.books.id.text "demo.book/1" (p'.env stillWorld) []).1 = _
  rw [← hsame, show Service.books.id.text = "demo.book" from rfl, Services.get, hservice]
  rfl

end Provider

end EntityCatalog
