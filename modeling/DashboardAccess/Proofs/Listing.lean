/-
# What a listing shows is what is granted

A line of an access list shows the level of a subject, by the name of its actions in
the table of the resource's kind.  Whoever the subject reaches has all rights of that
level, on the resource and, if it is a folder, on the dashboards in it.

* `Level.rights` : the rights of a level;
* `Resource.ExtendsTo` : the resources that permissions on a resource extend to;
* `subset_of_mem_rows` : the rows of the standard tables have the actions of their levels;
* `subset_of_mem_rights` : so has every grant that is listed at a level;
* `reply_may_of_listed` : the answers to everyone whom a line is about.
-/
import DashboardAccess.Proofs.Access
import DashboardAccess.Proofs.Replacement

namespace DashboardAccess

/-! ## Rights of a level -/

/-- The rights of a level; an unknown level has none. -/
def Level.rights : Level → List Right
  | .unknown => []
  | .view => [.view]
  | .edit => [.view, .edit, .save, .delete]
  | .admin => [.view, .edit, .save, .delete, .admin]

/-! ## Resources that permissions extend to -/

namespace Resource

/-- Permissions on a resource extend to the resource itself and, from a folder, to the
dashboards in it. -/
def ExtendsTo (r q : Resource) : Prop :=
  q = r ∨ (r.kind = .folder ∧ q.org = r.org ∧ q.place = .dashboardIn r.id)

variable {r q : Resource}

/-- Permissions extend within an organization. -/
theorem ExtendsTo.org_eq (h : r.ExtendsTo q) : q.org = r.org := by
  rcases h with rfl | ⟨-, horg, -⟩
  · rfl
  · exact horg

/-- Permissions extend to resources of the same kind, or else from folders. -/
theorem ExtendsTo.kind_eq (h : r.ExtendsTo q) : r.kind = q.kind ∨ r.kind = .folder := by
  rcases h with rfl | ⟨hk, -, -⟩
  · exact .inl rfl
  · exact .inr hk

/-- The scope of a resource is one of those on which rights are held on whatever its
permissions extend to. -/
theorem ExtendsTo.scope_mem (h : r.ExtendsTo q) : r.scope ∈ q.scopes := by
  rw [scope, Scope.ofId_eq]
  rcases h with rfl | ⟨hk, -, hplace⟩
  · obtain ⟨org, id, uid, title, place⟩ := q
    cases place <;> simp [kind, Kind.plural, scopes]
  · simp [hk, Kind.plural, scopes, hplace]

end Resource

/-! ## Names of actions -/

namespace PermissionTable

/-- Actions have the name of a row that fits them, or no name. -/
theorem nameOf_cases (table : PermissionTable) (actions : List String) :
    table.nameOf actions = "" ∨
      ∃ row ∈ table.rows, fits row.2 actions = true ∧ table.nameOf actions = row.1 := by
  rw [nameOf, name?]
  cases hrow : table.rows.find? fun row => fits row.2 actions with
  | none => exact .inl rfl
  | some row =>
    have hfits : fits row.2 actions = true := by simpa using List.find?_some hrow
    exact .inr ⟨row, List.mem_of_find?_eq_some hrow, hfits, rfl⟩

/-- A row of a standard table has all actions of its level on its own kind of resource,
and a row for folders also those on dashboards. -/
theorem subset_of_mem_rows {kind target : Kind} (hk : kind = target ∨ kind = .folder) :
    ∀ row ∈ (standard kind).rows, ∀ right ∈ (LevelMap.standard.level row.1).rights,
      right.actions target ⊆ row.2 := by
  cases kind with
  | folder => cases target <;> decide
  | dashboard =>
    cases target with
    | folder => rcases hk with hk | hk <;> cases hk
    | dashboard => decide

end PermissionTable

/-- A grant that is listed at a level has all actions of the level. -/
theorem AccessEntry.subset_of_mem_rights {kind target : Kind}
    (hk : kind = target ∨ kind = .folder) {g : Grant} {right : Right}
    (hright : right ∈ (levelOf (.standard kind) .standard g).rights) :
    right.actions target ⊆ g.actions := by
  rw [levelOf] at hright
  rcases (PermissionTable.standard kind).nameOf_cases g.actions with
    hname | ⟨row, hrow, hfits, hname⟩
  · -- no name stands for no level
    rw [hname] at hright
    exact absurd hright List.not_mem_nil
  · rw [hname] at hright
    exact List.Subset.trans (PermissionTable.subset_of_mem_rows hk row hrow right hright)
      (PermissionTable.fits_iff.1 hfits).2

/-! ## Lines of an access list -/

namespace Store

/-- The standard tables of a gate are those of the kinds. -/
theorem forKind_standard (k : Kind) : ({} : Tables).forKind k = PermissionTable.standard k := by
  cases k <;> rfl

/-- The access list of a stored resource by the standard tables shows managed grants on
its scope. -/
theorem reply_accessList_standard {s : Store} (hs : s.Reachable) {r : Resource}
    (hr : r ∈ s.resources) (lister : Gate) (hfresh : lister.kept = none)
    (htables : lister.tables = {}) (horg : r.org = lister.member.org)
    (hid : r.id = lister.target) :
    s.reply lister .accessList = .ok (.entries
      (((s.grantsOn r.org r.scope).filter Grant.isManaged).map
        (AccessEntry.ofGrant r lister.root (.standard r.kind) lister.levels))) := by
  have hf := (fetch_eq_ok_iff (wellFormed_of_reachable hs)).2 ⟨hr, horg, hid⟩
  rw [reply_accessList hfresh hf, htables, forKind_standard]
  simp only [PermissionTable.kind_standard]
  rfl

/-- Whatever history has led to the store, a stored resource has an access list, and
whoever the subject of one of its lines reaches has all rights of the level of the line,
on the resource and on every stored resource that its permissions extend to. -/
theorem reply_may_of_listed {s : Store} (hs : s.Reachable) {r : Resource}
    (hr : r ∈ s.resources) (lister : Gate) (hfresh : lister.kept = none)
    (hlevels : lister.levels = .standard) (htables : lister.tables = {})
    (horg : r.org = lister.member.org) (hid : r.id = lister.target) :
    ∃ lines, s.reply lister .accessList = .ok (.entries lines) ∧
      ∀ line ∈ lines, ∀ right ∈ line.level.rights, ∀ q ∈ s.resources, r.ExtendsTo q →
        ∀ g : Gate, g.kept = none → g.member.org = r.org → g.target = q.id →
          line.subject.appliesTo g.member = true →
            s.reply g (.may right) = .ok (.verdict true) := by
  refine ⟨_, reply_accessList_standard hs hr lister hfresh htables horg hid, ?_⟩
  intro line hline right hright q hq hext g hg hmember htarget happ
  obtain ⟨grant, hgrant, rfl⟩ := List.mem_map.1 hline
  obtain ⟨he, hscope⟩ := mem_grantsOn.1 (List.mem_filter.1 hgrant).1
  rw [hlevels] at hright
  -- the listed grant alone is enough
  have hpermits : s.Permits g.member q right :=
    permits_of_mem he hmember.symm happ hext.scope_mem (.inr (.inl hscope))
      (AccessEntry.subset_of_mem_rights hext.kind_eq hright)
  rw [reply_may_of_mem hs hq hg (hext.org_eq.trans hmember.symm) htarget.symm,
    (decides_requirement_iff s g.member q right).2 hpermits]

/-- A team that could only view a folder is listed at the highest level after it was given
that, and its members have all rights on the dashboard in the folder. -/
theorem reply_may_of_listed_team :
    let s := empty.after
      [(1, .save ⟨1, 7, "ops", "Ops", .folder⟩),
       (2, .save ⟨1, 42, "load", "Load", .dashboardIn 7⟩),
       (3, .setPermission .folders 1 "7" (.team 5 "sre" "") "View"),
       (4, .setPermission .folders 1 "7" (.role .viewer) "View"),
       (5, .setPermission .folders 1 "7" (.team 5 "sre" "") "Admin")]
    let lister : Gate := { member := ⟨1, 1, "root", .admin, []⟩, target := 7 }
    let g : Gate := { member := ⟨1, 10, "ann", .viewer, [5]⟩, target := 42 }
    ∃ lines, s.reply lister .accessList = .ok (.entries lines) ∧
      (∃ line ∈ lines, line.subject = .team 5 "sre" "" ∧ line.level = .admin) ∧
      ∀ right, s.reply g (.may right) = .ok (.verdict true) := by
  intro s lister g
  have hs : s.Reachable := ⟨_, rfl⟩
  let folder : Resource := ⟨1, 7, "ops", "Ops", .folder⟩
  have hfolder : folder ∈ s.resources := by decide +kernel
  obtain ⟨lines, hlines, hrights⟩ := reply_may_of_listed hs hfolder lister rfl rfl rfl rfl rfl
  have hshown := reply_accessList_standard hs hfolder lister rfl rfl rfl rfl
  rw [hlines, Except.ok.injEq, Reply.entries.injEq] at hshown
  obtain ⟨e, he, horg, hscope, hmanaged, hsubject, hlevel⟩ : ∃ e ∈ s.entries,
      e.org = 1 ∧ e.grant.scope = folder.scope ∧ e.grant.isManaged = true ∧
        e.grant.subject = .team 5 "sre" "" ∧
        AccessEntry.levelOf .folders .standard e.grant = .admin := by decide +kernel
  have hgrant : e.grant ∈ s.grantsOn 1 folder.scope := mem_grantsOn.2 ⟨horg ▸ he, hscope⟩
  have hline : AccessEntry.ofGrant folder "" .folders .standard e.grant ∈ lines := by
    rw [hshown]
    exact List.mem_map_of_mem (List.mem_filter.2 ⟨hgrant, hmanaged⟩)
  refine ⟨lines, hlines, ⟨_, hline, hsubject, hlevel⟩, fun right => ?_⟩
  refine hrights _ hline right ?_ ⟨1, 42, "load", "Load", .dashboardIn 7⟩
    (by decide +kernel) (.inr ⟨rfl, rfl, rfl⟩) g rfl rfl rfl ?_
  · rw [show (AccessEntry.ofGrant folder "" .folders .standard e.grant).level = .admin from hlevel]
    cases right <;> decide
  · rw [show (AccessEntry.ofGrant folder "" .folders .standard e.grant).subject =
      .team 5 "sre" "" from hsubject]
    rfl

end Store

end DashboardAccess
