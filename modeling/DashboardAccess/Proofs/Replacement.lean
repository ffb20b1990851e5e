/-
# Replacing and taking away named permissions

A named permission replaces what its subject held on the resource, and the empty
name takes it away.  A subject is told apart by all its data, though, while the
name of its managed role tells only its number: a grant to the same user under
another login is not replaced and not taken away.

* `mem_grantsOn`, `nodup_grantsOn`, `grantsOn_eq_of_perm` : what is listed on a scope;
* `Store.heldThrough` : the grants through a role on a scope;
* `PermissionTable.Settles` : the grants are just what a name stands for;
* `mem_heldThrough_setGrant` : what is held through a managed role afterwards;
* `settles_iff` : a named permission settles what is held through the managed role
  exactly if all that was held before was of the very same subject;
* `settles_of_steady` : it does so in every history in which subjects keep their
  data.
-/
import DashboardAccess.Proofs.Entries
import Mathlib.Data.List.Nodup

namespace DashboardAccess

/-! ## Listings -/

namespace Store

/-- A listing has the grants on the scope in the organization. -/
theorem mem_grantsOn {s : Store} {org : Int} {scope : Scope} {g : Grant} :
    g ∈ s.grantsOn org scope ↔ ⟨org, g⟩ ∈ s.entries ∧ g.scope = scope := by
  simp only [grantsOn, List.mem_mergeSort, List.mem_map, List.mem_filter, decide_eq_true_eq]
  constructor
  · rintro ⟨⟨o, g'⟩, ⟨he, ho, hs⟩, hg⟩
    obtain rfl : o = org := ho
    obtain rfl : g' = g := hg
    exact ⟨he, hs⟩
  · rintro ⟨he, hs⟩
    exact ⟨⟨org, g⟩, ⟨he, rfl, hs⟩, rfl⟩

/-- A listing has no grant twice. -/
theorem nodup_grantsOn {s : Store} (h : s.WellFormed) (org : Int) (scope : Scope) :
    (s.grantsOn org scope).Nodup := by
  have hnodup : s.entries.Nodup := Ascending.nodup_of_isAscending h.entries
  rw [grantsOn, (List.mergeSort_perm _ _).nodup_iff]
  refine List.Nodup.map_on ?_ (hnodup.filter _)
  intro a ha b hb hab
  have hoa : a.org = org := (of_decide_eq_true (List.mem_filter.1 ha).2).1
  have hob : b.org = org := (of_decide_eq_true (List.mem_filter.1 hb).2).1
  obtain ⟨oa, ga⟩ := a
  obtain ⟨ob, gb⟩ := b
  obtain rfl : oa = org := hoa
  obtain rfl : ob = oa := hob
  exact congrArg (Entry.mk ob) hab

/-- A listing is in the order of the ids. -/
theorem pairwise_id_le_grantsOn (s : Store) (org : Int) (scope : Scope) :
    (s.grantsOn org scope).Pairwise fun a b => a.id ≤ b.id := by
  have hsorted : (s.grantsOn org scope).Pairwise fun a b => decide (a.id ≤ b.id) = true := by
    refine List.pairwise_mergeSort (fun a b c hab hbc => ?_) (fun a b => ?_) _
    · rw [decide_eq_true_eq] at *
      omega
    · rw [Bool.or_eq_true, decide_eq_true_eq, decide_eq_true_eq]
      omega
  exact hsorted.imp of_decide_eq_true

/-- The grants stored on a scope are listed as they stand in the strict order of the
ids. -/
theorem grantsOn_eq_of_perm {s : Store} {org : Int} {scope : Scope} {l : List Grant}
    (hperm : ((s.entries.filter fun e =>
      e.org = org ∧ e.grant.scope = scope).map (·.grant)).Perm l)
    (hl : l.Pairwise fun a b => a.id < b.id) : s.grantsOn org scope = l := by
  have hlisted : (s.grantsOn org scope).Perm l := (List.mergeSort_perm _ _).trans hperm
  have hids : (l.map (·.id)).Nodup := List.pairwise_map.2 (hl.imp Int.ne_of_lt)
  refine hlisted.eq_of_pairwise (fun a b ha hb hab hba => ?_)
    (s.pairwise_id_le_grantsOn org scope) (hl.imp Int.le_of_lt)
  exact List.inj_on_of_nodup_map hids (hlisted.mem_iff.1 ha) hb (Int.le_antisymm hab hba)

/-! ## Grants through a role -/

/-- The grants that are held through a role on a scope, the oldest first. -/
def heldThrough (s : Store) (org : Int) (role : String) (scope : Scope) : List Grant :=
  (s.grantsOn org scope).filter fun g => g.role = role

/-- What is held through a role is stored with that role and scope. -/
theorem mem_heldThrough {s : Store} {org : Int} {role : String} {scope : Scope} {g : Grant} :
    g ∈ s.heldThrough org role scope ↔
      ⟨org, g⟩ ∈ s.entries ∧ g.scope = scope ∧ g.role = role := by
  rw [heldThrough, List.mem_filter, mem_grantsOn]
  simp [and_assoc]

/-- Nothing is held twice through a role on a scope. -/
theorem nodup_heldThrough {s : Store} (h : s.WellFormed) (org : Int) (role : String)
    (scope : Scope) : (s.heldThrough org role scope).Nodup :=
  (nodup_grantsOn h org scope).filter _

/-- After a managed grant, what is held through the managed role is the grant, and
all that was held before by subjects with other data. -/
theorem mem_heldThrough_setGrant {s : Store} (h : s.WellFormed) (now : Nat) (org : Int)
    (subject : Subject) (scope : Scope) (actions : List String) {g : Grant} :
    g ∈ (s.setGrant now org subject scope actions).2.heldThrough org subject.managedRole scope ↔
      (s.setGrant now org subject scope actions).1 = some g ∨
        (g ∈ s.heldThrough org subject.managedRole scope ∧ g.subject ≠ subject) := by
  have ht := wellFormed_setGrant h now org subject scope actions
  rw [mem_heldThrough, mem_heldThrough, mem_entries_iff ht, mem_entries_iff h,
    lookup_setGrant h]
  have hkey : managedKey org subject scope = Entry.key ⟨org, g⟩ ↔
      g.role = subject.managedRole ∧ g.subject = subject ∧ g.scope = scope := by
    simp only [managedKey, Entry.key, GrantKey.mk.injEq, true_and]
    constructor
    · rintro ⟨hr, hs, hc⟩
      exact ⟨hr.symm, hs.symm, hc.symm⟩
    · rintro ⟨hr, hs, hc⟩
      exact ⟨hr.symm, hs.symm, hc.symm⟩
  by_cases hk : managedKey org subject scope = Entry.key ⟨org, g⟩
  · obtain ⟨hr, hs, hc⟩ := hkey.1 hk
    rw [if_pos hk]
    simp [hr, hs, hc]
  · rw [if_neg hk]
    constructor
    · rintro ⟨he, hc, hr⟩
      exact .inr ⟨⟨he, hc, hr⟩, fun hs => hk (hkey.2 ⟨hr, hs, hc⟩)⟩
    · rintro (hg | ⟨⟨he, hc, hr⟩, -⟩)
      · exact absurd (key_of_setGrant hg).symm hk
      · exact ⟨he, hc, hr⟩

end Store

/-! ## Named permissions -/

namespace PermissionTable

/-- The grants are just what a name stands for: none for the empty name, and
otherwise one with the actions of the first row with the name. -/
def Settles (table : PermissionTable) (name : String) (held : List Grant) : Prop :=
  if name = "" then held = []
  else ∃ g row, held = [g] ∧ table.actions? name = some row ∧
    ∀ action, action ∈ g.actions ↔ action ∈ row

end PermissionTable

namespace Store

/-- Accepted names stand for no actions if they are empty and for those of their row
otherwise. -/
theorem namedActions_eq_ok_iff {table : PermissionTable} {name : String}
    {actions : List String} :
    namedActions table name = .ok actions ↔
      (name = "" ∧ actions = []) ∨ (name ≠ "" ∧ table.actions? name = some actions) := by
  unfold namedActions
  by_cases hn : name = ""
  · rw [if_pos hn]
    simp [hn, eq_comm]
  · rw [if_neg hn]
    cases table.actions? name <;> simp [hn]

/-- Taking a managed grant away leaves nothing exactly if all was of the subject. -/
theorem heldThrough_setGrant_eq_nil_iff {s : Store} (h : s.WellFormed) (now : Nat) (org : Int)
    (subject : Subject) (scope : Scope) :
    (s.setGrant now org subject scope []).2.heldThrough org subject.managedRole scope = [] ↔
      ∀ g ∈ s.heldThrough org subject.managedRole scope, g.subject = subject := by
  rw [List.eq_nil_iff_forall_not_mem]
  refine forall_congr' fun g => ?_
  rw [mem_heldThrough_setGrant h, setGrant_nil]
  simp

/-- Giving a managed grant leaves it alone exactly if all was of the subject. -/
theorem heldThrough_setGrant_eq_singleton_iff {s : Store} (h : s.WellFormed) (now : Nat)
    (org : Int) (subject : Subject) (scope : Scope) {actions : List String} {g : Grant}
    (hg : (s.setGrant now org subject scope actions).1 = some g) :
    (s.setGrant now org subject scope actions).2.heldThrough org subject.managedRole scope =
        [g] ↔
      ∀ g' ∈ s.heldThrough org subject.managedRole scope, g'.subject = subject := by
  have hmem := fun g' => mem_heldThrough_setGrant h now org subject scope actions (g := g')
  have hsub : g.subject = subject := congrArg GrantKey.subject (key_of_setGrant hg)
  rw [hg] at hmem
  constructor
  · intro hone g' hg'
    by_contra hne
    have hin := (hmem g').2 (.inr ⟨hg', hne⟩)
    rw [hone, List.mem_singleton] at hin
    exact hne (hin ▸ hsub)
  · intro hall
    have ht := wellFormed_setGrant h now org subject scope actions
    refine List.Perm.eq_singleton ((List.perm_ext_iff_of_nodup (nodup_heldThrough ht _ _ _)
      (List.nodup_singleton g)).2 fun g' => ?_)
    rw [hmem, List.mem_singleton]
    constructor
    · rintro (hg' | ⟨hg', hne⟩)
      · exact (Option.some.inj hg').symm
      · exact absurd (hall g' hg') hne
    · rintro rfl
      exact .inl rfl

/-- A row without actions never settles what is held, since no stored grant is without
actions. -/
theorem not_settles_setGrant_nil {s : Store} (hs : s.Reachable) (now : Nat)
    {table : PermissionTable} (org : Int) (subject : Subject) (scope : Scope) {name : String}
    (hname : name ≠ "") (hrow : table.actions? name = some []) :
    ¬ table.Settles name
      ((s.setGrant now org subject scope []).2.heldThrough org subject.managedRole scope) := by
  rw [PermissionTable.Settles, if_neg hname]
  rintro ⟨g, row, hone, hrow', hacts⟩
  obtain rfl : [] = row := Option.some.inj (hrow.symm.trans hrow')
  have hin : g ∈ (s.setGrant now org subject scope []).2.heldThrough org
      subject.managedRole scope := by
    rw [hone]
    exact List.mem_singleton_self g
  rw [mem_heldThrough_setGrant (wellFormed_of_reachable hs), setGrant_nil] at hin
  rcases hin with hin | ⟨hin, -⟩
  · cases hin
  · obtain ⟨action, ha⟩ := List.exists_mem_of_ne_nil _
      (actions_ne_nil hs _ (mem_heldThrough.1 hin).1)
    exact absurd ((hacts action).1 ha) List.not_mem_nil

/-- A row with actions settles what is held exactly if all was of the subject. -/
theorem settles_setGrant_iff_of_ne_nil {s : Store} (h : s.WellFormed) (now : Nat)
    {table : PermissionTable} (org : Int) (subject : Subject) (scope : Scope) {name : String}
    (hname : name ≠ "") {actions : List String} (hrow : table.actions? name = some actions)
    (hne : actions ≠ []) :
    table.Settles name
        ((s.setGrant now org subject scope actions).2.heldThrough org subject.managedRole
          scope) ↔
      ∀ g ∈ s.heldThrough org subject.managedRole scope, g.subject = subject := by
  rcases setGrant_fst s now org subject scope actions with ⟨hnil, -⟩ | ⟨-, g, hg, -, hacts⟩
  · exact absurd hnil hne
  · rw [PermissionTable.Settles, if_neg hname,
      ← heldThrough_setGrant_eq_singleton_iff h now org subject scope hg]
    constructor
    · -- the one grant that is held can only be the one that was given
      rintro ⟨g', row, hone, -, -⟩
      have hin : g ∈ (s.setGrant now org subject scope actions).2.heldThrough org
          subject.managedRole scope :=
        (mem_heldThrough_setGrant h now org subject scope actions).2 (.inl hg)
      rw [hone, List.mem_singleton] at hin
      rw [hone, hin]
    · intro hone
      refine ⟨g, actions, hone, hrow, fun action => ?_⟩
      rw [hacts, Ascending.mem_ofList]

/-- Setting the managed grant to the actions of an accepted name settles what is held
exactly if the row of the name has actions and all was of the subject. -/
theorem settles_setGrant_iff {s : Store} (hs : s.Reachable) (now : Nat)
    {table : PermissionTable} (org : Int) (subject : Subject) (scope : Scope) {name : String}
    {actions : List String} (hact : namedActions table name = .ok actions) :
    table.Settles name
        ((s.setGrant now org subject scope actions).2.heldThrough org subject.managedRole
          scope) ↔
      (name = "" ∨ table.actions? name ≠ some []) ∧
        ∀ g ∈ s.heldThrough org subject.managedRole scope, g.subject = subject := by
  have hw := wellFormed_of_reachable hs
  rcases namedActions_eq_ok_iff.1 hact with ⟨hname, rfl⟩ | ⟨hname, hrow⟩
  · rw [PermissionTable.Settles, if_pos hname, heldThrough_setGrant_eq_nil_iff hw]
    simp [hname]
  · by_cases hne : actions = []
    · subst hne
      have hnot := not_settles_setGrant_nil hs now org subject scope hname hrow
      simp [hname, hrow, hnot]
    · rw [settles_setGrant_iff_of_ne_nil hw now org subject scope hname hrow hne]
      simp [hname, hrow, hne]

/-- In every store that a history leads to, an accepted name settles what is held
through the subject's managed role exactly if its row has actions and everything
held through that role before was of a subject with the very same data. -/
theorem settles_iff {s t : Store} (hs : s.Reachable) {now : Nat} {table : PermissionTable}
    {org : Int} {resource : String} {subject : Subject} {name : String} {given : Option Grant}
    (h : s.setPermission now table org resource subject name = .ok (given, t)) :
    let scope := Scope.ofResource table.kind resource
    table.Settles name (t.heldThrough org subject.managedRole scope) ↔
      (name = "" ∨ table.actions? name ≠ some []) ∧
        ∀ g ∈ s.heldThrough org subject.managedRole scope, g.subject = subject := by
  intro scope
  obtain ⟨actions, hact, hset⟩ := setPermission_eq_ok_iff.1 h
  have ht : t = (s.setGrant now org subject scope actions).2 := by rw [hset]
  rw [ht]
  exact settles_setGrant_iff hs now org subject scope hact

/-- Editing is settled for a user who could only view before. -/
theorem settles_iff_same_login :
    let s := empty.after [(1, .setPermission .folders 1 "7" (.user 10 "ann" "") "View")]
    ∃ given t, s.setPermission 2 .folders 1 "7" (.user 10 "ann" "") "Edit" = .ok (given, t) ∧
      PermissionTable.folders.Settles "Edit"
        (t.heldThrough 1 (Subject.user 10 "ann" "").managedRole
          (Scope.ofResource PermissionTable.folders.kind "7")) := by
  intro s
  refine ⟨_, _, rfl, (settles_iff (s := s) ⟨_, rfl⟩ rfl).2 ⟨.inr (by decide), ?_⟩⟩
  decide +kernel

/-- A user who has got another login keeps what was given under the old one, although
the permission is taken away and the name of the managed role is the same. -/
theorem alias_outlives_revocation :
    let s := empty.after [(1, .setPermission .folders 1 "7" (.user 10 "ann" "") "View")]
    ∃ t, s.setPermission 2 .folders 1 "7" (.user 10 "anna" "") "" = .ok (none, t) ∧
      ¬ PermissionTable.folders.Settles ""
        (t.heldThrough 1 (Subject.user 10 "anna" "").managedRole
          (Scope.ofResource PermissionTable.folders.kind "7")) ∧
      t.decides { org := 1, user := 10, login := "anna", role := .viewer }
        (.on "folders:read" "folders:id:7") = true := by
  intro s
  refine ⟨_, rfl, ?_, ?_⟩
  · rw [PermissionTable.Settles, if_pos rfl]
    decide +kernel
  · decide +kernel

/-- If all changes of a history that touch the subject's managed role on the resource
do so for the subject with the very same data, then every accepted name whose row
has actions settles what is held through that role. -/
theorem settles_of_steady {history : List (Nat × Change)} {t : Store} {now : Nat}
    {table : PermissionTable} {org : Int} {resource : String} {subject : Subject}
    {name : String} {given : Option Grant}
    (hsteady : ∀ step ∈ history, ∀ key, step.2.Touches key → key.org = org →
      key.role = subject.managedRole → key.scope = Scope.ofResource table.kind resource →
      key.subject = subject)
    (hrow : table.actions? name ≠ some [])
    (h : (empty.after history).setPermission now table org resource subject name =
      .ok (given, t)) :
    table.Settles name
      (t.heldThrough org subject.managedRole (Scope.ofResource table.kind resource)) := by
  obtain ⟨actions, hact, hset⟩ := setPermission_eq_ok_iff.1 h
  have ht : t = ((empty.after history).setGrant now org subject
      (Scope.ofResource table.kind resource) actions).2 := by rw [hset]
  rw [ht]
  refine (settles_setGrant_iff ⟨history, rfl⟩ now org subject _ hact).2
    ⟨.inr hrow, fun g hg => ?_⟩
  obtain ⟨he, hscope, hrole⟩ := mem_heldThrough.1 hg
  by_contra hne
  -- no change touches the key of a grant to another subject, so nothing is stored there
  have huntouched : ∀ step ∈ history, ¬ step.2.Touches (Entry.key ⟨org, g⟩) :=
    fun step hstep htouch => hne (hsteady step hstep _ htouch rfl hrole hscope)
  have hw := wellFormed_after wellFormed_empty history
  have hl := (mem_entries_iff hw).1 he
  rw [lookup_after wellFormed_empty huntouched] at hl
  cases hl

end Store

end DashboardAccess
