import EntityCatalog.Proofs.Chain.Complete
import EntityCatalog.Proofs.Chain.Stopping
import Mathlib.Data.List.Induction
import Mathlib.Data.List.Nodup

/-!
# Reports grouped by entity

Discovery asks the aspects of a chain one after another (`Run.Steps`), and each may do to the reports
before it what it likes. What stands at the end is then grouped: one entity for each identifier, in the
order of the first reports, and each entity is all the reports on it merged in their order
(`Grouped`). A report more keeps that up (`Grouped.report`), so that it holds of any list of reports.
-/

namespace EntityCatalog

@[simp] theorem Entity.merge_id (e report : Entity) : (e.merge report).id = e.id := rfl

theorem eraseDups_concat {α : Type} [DecidableEq α] (l : List α) (a : α) :
    (l ++ [a]).eraseDups = if a ∈ l then l.eraseDups else l.eraseDups ++ [a] := by
  rw [List.eraseDups_append, List.removeAll]
  by_cases h : a ∈ l
  · simp [h]
  · simp [h, List.eraseDups_cons]

namespace AspectChain

open Run (Steps)

variable {kind : EntityKind} {request : ListRequest} {env : Env}

/-! ## One report more -/

theorem report_of_not_mem {e : Entity} {found : List Entity} (h : e.id ∉ found.map (·.id)) :
    report e found = found ++ [e] := by
  induction found with
  | nil => rfl
  | cons first rest ih =>
    rw [List.map_cons, List.mem_cons, not_or] at h
    rw [report, if_neg (Ne.symm h.1), ih h.2, List.cons_append]

theorem report_of_mem {e : Entity} {found : List Entity} (hdistinct : (found.map (·.id)).Nodup)
    (h : e.id ∈ found.map (·.id)) :
    report e found = found.map fun x => if x.id = e.id then x.merge e else x := by
  induction found with
  | nil => cases h
  | cons first rest ih =>
    rw [List.map_cons, List.nodup_cons] at hdistinct
    rw [report, List.map_cons]
    by_cases hfirst : first.id = e.id
    · have hrest : rest.map (fun x => if x.id = e.id then x.merge e else x) = rest.map id := by
        refine List.map_congr_left fun x hx => if_neg fun hid => hdistinct.1 ?_
        rw [hfirst, ← hid]
        exact List.mem_map_of_mem hx
      rw [if_pos hfirst, if_pos hfirst, hrest, List.map_id]
    · have hmem : e.id ∈ rest.map (·.id) := by
        rw [List.map_cons, List.mem_cons] at h
        exact h.resolve_left (Ne.symm hfirst)
      rw [if_neg hfirst, if_neg hfirst, ih hdistinct.2 hmem]

/-! ## Any number of reports -/

/-- One entity for each identifier, in the order of the first reports: the first report on it, with all
later ones merged into it in turn. -/
structure Grouped (reports found : List Entity) : Prop where
  distinct : (found.map (·.id)).Nodup
  ids : found.map (·.id) = (reports.map (·.id)).eraseDups
  merged : ∀ e ∈ found, ∃ first rest,
    reports.filter (·.id = e.id) = first :: rest ∧ e = rest.foldl Entity.merge first

namespace Grouped

variable {reports found : List Entity}

theorem mem_ids (h : Grouped reports found) {id : EntityId} :
    id ∈ found.map (·.id) ↔ id ∈ reports.map (·.id) := by
  rw [h.ids, List.mem_eraseDups]

theorem report (h : Grouped reports found) (e : Entity) :
    Grouped (reports ++ [e]) (AspectChain.report e found) := by
  have hids : ((reports ++ [e]).map (·.id)).eraseDups =
      if e.id ∈ found.map (·.id) then found.map (·.id) else found.map (·.id) ++ [e.id] := by
    rw [List.map_append, List.map_singleton, eraseDups_concat, h.ids]
    simp only [List.mem_eraseDups]
  have hothers {id : EntityId} (hne : e.id ≠ id) :
      (reports ++ [e]).filter (·.id = id) = reports.filter (·.id = id) := by
    simp [hne]
  by_cases hmem : e.id ∈ found.map (·.id)
  · -- the identifiers stay, and one entity takes the report in
    have hsame : (AspectChain.report e found).map (·.id) = found.map (·.id) := by
      rw [report_of_mem h.distinct hmem, List.map_map]
      refine List.map_congr_left fun x _ => ?_
      dsimp only [Function.comp_apply]
      split <;> rfl
    refine ⟨hsame ▸ h.distinct, by rw [hids, hsame, if_pos hmem], fun out hout => ?_⟩
    · rw [report_of_mem h.distinct hmem] at hout
      obtain ⟨x, hx, rfl⟩ := List.mem_map.1 hout
      obtain ⟨first, rest, hreports, hmerged⟩ := h.merged x hx
      by_cases hid : x.id = e.id
      · refine ⟨first, rest ++ [e], ?_, ?_⟩
        · rw [if_pos hid, Entity.merge_id, List.filter_append, hreports]
          simp [hid]
        · rw [if_pos hid, List.foldl_concat, ← hmerged]
      · refine ⟨first, rest, ?_, ?_⟩
        · rw [if_neg hid, hothers (Ne.symm hid), hreports]
        · rw [if_neg hid, hmerged]
  · -- the report is the first on its entity
    have hnew : e.id ∉ reports.map (·.id) := fun hknown => hmem (h.mem_ids.2 hknown)
    rw [report_of_not_mem hmem]
    have hids' : (found ++ [e]).map (·.id) = ((reports ++ [e]).map (·.id)).eraseDups := by
      rw [hids, if_neg hmem, List.map_append, List.map_singleton]
    refine ⟨?_, hids', fun out hout => ?_⟩
    · rw [List.map_append, List.map_singleton, ← List.concat_eq_append]
      exact h.distinct.concat hmem
    · rcases List.mem_append.1 hout with hold | hlast
      · obtain ⟨first, rest, hreports, hmerged⟩ := h.merged out hold
        have hne : e.id ≠ out.id := fun hid => hmem (hid ▸ List.mem_map_of_mem hold)
        exact ⟨first, rest, (hothers hne).trans hreports, hmerged⟩
      · obtain rfl := List.mem_singleton.1 hlast
        have hnone : reports.filter (·.id = out.id) = [] := by
          rw [List.filter_eq_nil_iff]
          intro x hx
          have hne : x.id ≠ out.id := fun hid => hnew (hid ▸ List.mem_map_of_mem hx)
          simp [hne]
        exact ⟨out, [], by rw [List.filter_append, hnone]; simp, rfl⟩

end Grouped

theorem grouped_group (reports : List Entity) : Grouped reports (group reports) := by
  induction reports using List.reverseRecOn with
  | nil => exact ⟨List.nodup_nil, rfl, by simp [group]⟩
  | append_singleton reports e ih =>
    rw [group, List.foldl_concat]
    exact ih.report e

/-- **Discovery groups the reports and loses none.** When all aspects of a chain have been asked without
a failure, it comes to the reports that stand at the end, grouped by their identifiers, and nothing is
looked at after that. -/
theorem discover_groups {c : AspectChain} {j j' : Journal} {reports : List Entity}
    (h : Steps (listing c.kind request) env c.aspects [] j reports j') :
    ∃ found, c.discover request env j = (.ok found, j') ∧
      (found.map (·.id)).Nodup ∧ found.map (·.id) = (reports.map (·.id)).eraseDups ∧
      ∀ e ∈ found, ∃ first rest, reports.filter (·.id = e.id) = first :: rest ∧
        e = rest.foldl Entity.merge first := by
  have hgrouped := grouped_group reports
  exact ⟨group reports, discover_eq_ok_iff.2 ⟨reports, h, rfl⟩, hgrouped.distinct, hgrouped.ids,
    hgrouped.merged⟩

/-! ### A catalog that repeats itself -/

/-- A report of a catalog on a book. -/
def catalogReport (segment : String) (members : List (String × Json.Value)) : Entity :=
  { Entity.bare ⟨⟨"demo", "book"⟩, [segment]⟩ with data := .object members }

def catalogReports : List Entity :=
  [catalogReport "b" [("from", .string "first")], catalogReport "a" [],
    catalogReport "b" [("extra", .nat 1)]]

/-- An aspect that forgets all reports before its own. -/
def catalog : AspectExtension where
  name := "catalog"
  repositoryAware _ := false
  providerAware _ := false
  descriptors _ := []
  augment _ _ e := .success e
  list _ _ _ _ := .success catalogReports

def catalogChain : AspectChain := ⟨Service.books, [.extension ⟨0, catalog, []⟩, .timestamp, .validation]⟩

/-- The book that is reported twice comes first, with what both reports say. -/
theorem discover_groups_catalog :
    Steps (listing catalogChain.kind (.all Service.books.id)) Service.quietEnv catalogChain.aspects [] []
        catalogReports [.ask "catalog"] ∧
      ∃ found, catalogChain.discover (.all Service.books.id) Service.quietEnv [] =
          (.ok found, [.ask "catalog"]) ∧
        found.map (·.id) = [⟨⟨"demo", "book"⟩, ["b"]⟩, ⟨⟨"demo", "book"⟩, ["a"]⟩] ∧
        catalogReport "b" [("extra", .nat 1), ("from", .string "first")] ∈ found := by
  have hgathered : Steps (listing catalogChain.kind (.all Service.books.id)) Service.quietEnv
      catalogChain.aspects [] [] catalogReports [.ask "catalog"] :=
    .next rfl (.next rfl (.next rfl .none))
  obtain ⟨found, hfound, -, hids, hmerged⟩ := discover_groups hgathered
  have htwo : found.map (·.id) = [⟨⟨"demo", "book"⟩, ["b"]⟩, ⟨⟨"demo", "book"⟩, ["a"]⟩] := by
    rw [hids]
    decide
  obtain ⟨e, he, hid⟩ := List.mem_map.1 (htwo ▸ List.mem_cons_self :
    (⟨⟨"demo", "book"⟩, ["b"]⟩ : EntityId) ∈ found.map (·.id))
  obtain ⟨first, rest, hreports, hmerge⟩ := hmerged e he
  refine ⟨hgathered, found, hfound, htwo, ?_⟩
  have hboth : catalogReports.filter (·.id = e.id) =
      [catalogReport "b" [("from", .string "first")], catalogReport "b" [("extra", .nat 1)]] := by
    rw [hid]
    rfl
  rw [hboth] at hreports
  cases hreports
  rwa [← show e = catalogReport "b" [("extra", .nat 1), ("from", .string "first")] from hmerge]

end AspectChain

end EntityCatalog
