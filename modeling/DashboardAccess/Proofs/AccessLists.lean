/-
# Access lists line by line

An access list has one line for each managed grant that is stored on exactly the scope of
the resource, and no other line: nothing from the folder, from scopes with a star or
without text, from the other kind, from other organizations or through other roles.  The
lines come in the order in which the grants have been made.  Each shows the subject and the
times of its grant and the level of the name of its actions, by sets of actions.

* `AccessEntry.showing` : the line of a stored grant;
* `ofGrant_standard` : the lines that a gate with the standard tables gives;
* `managedOn` : the entries that are listed;
* `reply_accessList_after` : the access list of every stored resource after any history.
-/
import DashboardAccess.Proofs.ActionNames
import DashboardAccess.Proofs.Listing
import DashboardAccess.Proofs.Managed

namespace DashboardAccess

/-! ## Lines -/

namespace AccessEntry

/-- The line of a grant on a resource: the level is that of the name of the first row, in the
standard table of the kind, with the same set of actions, or of the empty name. -/
def showing (r : Resource) (root : String) (levels : LevelMap) (g : Grant) : AccessEntry where
  resource := r
  url := r.url root
  subject := g.subject
  level :=
    levels.level
      ((((PermissionTable.standard r.kind).rowOfSet? g.actions.toFinset).map (·.1)).getD "")
  created := g.created
  updated := g.updated

/-- By a standard table, a grant that lists no action twice has the line of its set of
actions. -/
theorem ofGrant_standard (r : Resource) (root : String) (levels : LevelMap) {g : Grant}
    (hactions : g.actions.Nodup) :
    ofGrant r root (.standard r.kind) levels g = showing r root levels g := by
  rw [ofGrant, showing, levelOf, PermissionTable.nameOf_eq,
    PermissionTable.rowFor?_eq_rowOfSet? (PermissionTable.nodup_of_mem_standard r.kind) hactions]

end AccessEntry

namespace Store

/-! ## The entries that are listed -/

/-- The entries with managed grants on a scope of an organization, in the order of a
listing. -/
def managedOn (s : Store) (org : Int) (scope : Scope) : List Entry :=
  ((s.grantsOn org scope).filter Grant.isManaged).map (Entry.mk org)

/-- They are the entries of the organization and the scope through managed roles. -/
theorem mem_managedOn {s : Store} {org : Int} {scope : Scope} {e : Entry} :
    e ∈ s.managedOn org scope ↔
      e ∈ s.entries ∧ e.org = org ∧ Subject.managedMark.toList <+: e.grant.role.toList ∧
        e.grant.scope = scope := by
  have hmark : ∀ g : Grant, g.isManaged = true ↔
      Subject.managedMark.toList <+: g.role.toList := fun g => List.isPrefixOf_iff_prefix
  simp only [managedOn, List.mem_map, List.mem_filter, mem_grantsOn, hmark]
  constructor
  · rintro ⟨g, ⟨⟨he, hscope⟩, hrole⟩, rfl⟩
    exact ⟨he, rfl, hrole, hscope⟩
  · rintro ⟨he, rfl, hrole, hscope⟩
    exact ⟨e.grant, ⟨⟨he, hscope⟩, hrole⟩, rfl⟩

/-- None of them is listed twice. -/
theorem nodup_managedOn {s : Store} (h : s.WellFormed) (org : Int) (scope : Scope) :
    (s.managedOn org scope).Nodup := by
  refine List.Nodup.map (fun a b hab => congrArg Entry.grant hab) ?_
  exact (nodup_grantsOn h org scope).filter _

/-- They are listed in the order in which they have been made. -/
theorem pairwise_managedOn (history : List (Nat × Change)) (org : Int) (scope : Scope) :
    ((empty.after history).managedOn org scope).Pairwise fun a b =>
      ∃ m n, m < n ∧ LastAt (empty.made history) a.key m a.grant.created ∧
        LastAt (empty.made history) b.key n b.grant.created := by
  have hrecorded := recorded_history history
  have hasc := (hrecorded.pairwise_grantsOn org scope).filter Grant.isManaged
  refine List.pairwise_map.2 (hasc.imp_of_mem fun {a b} ha hb hlt => ?_)
  have hentry : ∀ {g}, g ∈ ((empty.after history).grantsOn org scope).filter Grant.isManaged →
      ⟨org, g⟩ ∈ (empty.after history).entries :=
    fun hg => (mem_grantsOn.1 (List.mem_filter.1 hg).1).1
  obtain ⟨m, hm, hmade⟩ := hrecorded.made _ (hentry ha)
  obtain ⟨n, hn, hmade'⟩ := hrecorded.made _ (hentry hb)
  have hm : a.id = m + 1 := hm
  have hn : b.id = n + 1 := hn
  exact ⟨m, n, by omega, hmade, hmade'⟩

/-! ## Access lists -/

/-- After any history, a gate with the standard tables that has loaded nothing yet gives an
access list of every stored resource.  It has one line for each entry of the organization
whose role name starts as those of managed roles do and whose scope is exactly that of the
resource, in the order in which these entries have been made, and no other lines. -/
theorem reply_accessList_after (history : List (Nat × Change)) {r : Resource}
    (hr : r ∈ (empty.after history).resources) {g : Gate} (hfresh : g.kept = none)
    (htables : g.tables = {}) (horg : r.org = g.member.org) (hid : r.id = g.target) :
    ∃ listed : List Entry,
      (empty.after history).reply g .accessList =
        .ok (.entries (listed.map fun e => AccessEntry.showing r g.root g.levels e.grant)) ∧
      listed.Nodup ∧
      (∀ e, e ∈ listed ↔ e ∈ (empty.after history).entries ∧ e.org = r.org ∧
        "managed:".toList <+: e.grant.role.toList ∧
        e.grant.scope = r.kind.plural ++ ":id:" ++ toString r.id) ∧
      listed.Pairwise fun a b =>
        ∃ m n, m < n ∧ LastAt (empty.made history) a.key m a.grant.created ∧
          LastAt (empty.made history) b.key n b.grant.created := by
  have hs : (empty.after history).Reachable := ⟨history, rfl⟩
  refine ⟨(empty.after history).managedOn r.org r.scope, ?_,
    nodup_managedOn (wellFormed_of_reachable hs) r.org r.scope, fun e => ?_,
    pairwise_managedOn history r.org r.scope⟩
  · rw [reply_accessList_standard hs hr g hfresh htables horg hid, managedOn, List.map_map]
    congr 2
    refine List.map_congr_left fun grant hgrant => ?_
    exact AccessEntry.ofGrant_standard r g.root g.levels
      (nodup_actions hs (mem_grantsOn.1 (List.mem_filter.1 hgrant).1).1)
  · rw [← Scope.ofId_eq]
    exact mem_managedOn

/-- A team that lost its permission on a dashboard and got another one is listed after a user
whose actions have no name.  What it holds on the folder, on a folder with the same id, through
another role or in another organization is not listed. -/
theorem reply_accessList_after_renewal :
    let ann : Subject := .user 10 "ann" ""
    let sre : Subject := .team 5 "sre" ""
    let load : Resource := ⟨1, 42, "load", "Load", .dashboardIn 7⟩
    let s := empty.after
      [(1, .save load),
       (2, .setPermission .dashboards 1 "42" sre "View"),
       (3, .setPermission .folders 1 "7" sre "View"),
       (4, .setPermission .folders 1 "42" sre "View"),
       (5, .setPermission .dashboards 2 "42" sre "View"),
       (6, .grantRole 1 "fixed:reader" sre
         [⟨"dashboards:read", "dashboards:id:42"⟩, ⟨"dashboards:read", "dashboards:*"⟩]),
       (7, .setGrant 1 ann "dashboards:id:42" ["dashboards:edit"]),
       (8, .setPermission .dashboards 1 "42" sre ""),
       (9, .setPermission .dashboards 1 "42" sre "Edit")]
    let g : Gate :=
      { member := { org := 1, user := 1, login := "root", role := .admin }
        target := 42
        levels := [("Edit", .admin), ("", .view)] }
    ∃ listed : List Entry,
      s.reply g .accessList =
        .ok (.entries (listed.map fun e => AccessEntry.showing load g.root g.levels e.grant)) ∧
      (listed.map fun e => AccessEntry.showing load g.root g.levels e.grant).map
        (fun line => (line.subject, line.level, line.created)) =
        [(ann, .view, 7), (sre, .admin, 9)] := by
  intro ann sre load s g
  have hload : load ∈ s.resources := by decide +kernel
  obtain ⟨listed, hreply, -⟩ := reply_accessList_after _ hload (g := g) rfl rfl rfl rfl
  refine ⟨listed, hreply, ?_⟩
  have hshown := reply_accessList_standard ⟨_, rfl⟩ hload g rfl rfl rfl rfl
  rw [hreply, Except.ok.injEq, Reply.entries.injEq] at hshown
  have hgrants : s.grantsOn load.org load.scope =
      [⟨6, "fixed:reader", ["dashboards:read"], "dashboards:id:42", sre, 6, 6⟩,
        ⟨7, "managed:users:10:permissions", ["dashboards:edit"], "dashboards:id:42", ann, 7, 7⟩,
        ⟨8, "managed:teams:5:permissions",
          ["dashboards:delete", "dashboards:edit", "dashboards:read", "dashboards:write"],
          "dashboards:id:42", sre, 9, 9⟩] :=
    grantsOn_eq_of_perm (by decide +kernel) (by decide +kernel)
  rw [hshown, hgrants]
  decide +kernel

end Store

end DashboardAccess
