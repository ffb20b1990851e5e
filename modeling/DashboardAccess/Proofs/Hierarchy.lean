/-
# The hierarchy of rights

Where grants are changed by the names of the standard tables only, each of them has the
actions of one row.  The rows are nested, so whoever has a right also has the ones below
it, whichever grants it comes from: one action of the higher right leads to a grant
whose row has all actions of the lower one.

* `Change.IsNamed` : changes by the names of the standard tables;
* `Store.Named` : every grant has the actions of a row;
* `named_apply`, `named_after` : one change, whole histories;
* `Right.brings`, `exists_action_brings` : the rights that come with a right, and the
  action by which they do in every row;
* `permits_of_mem_brings` : whoever has a right has those that come with it;
* `reply_may_of_isNamed` : the answers to any member about any stored resource.
-/
import DashboardAccess.Proofs.Access
import DashboardAccess.Proofs.Replacement

namespace DashboardAccess

/-! ## Named changes -/

/-- Storing a resource, or a permission by a name of the standard table of a kind. -/
def Change.IsNamed : Change → Prop
  | .save _ => True
  | .setPermission table _ _ _ _ => ∃ kind, table = .standard kind
  | _ => False

namespace Store

/-- Every grant has the actions of a row of a standard table. -/
def Named (s : Store) : Prop :=
  ∀ e ∈ s.entries, ∃ kind, ∃ row ∈ (PermissionTable.standard kind).rows,
    ∀ action, action ∈ e.grant.actions ↔ action ∈ row.2

theorem named_empty : Named empty := by
  intro e he
  cases he

end Store

/-- The actions of a name are those of a row. -/
theorem PermissionTable.exists_row_of_actions? {table : PermissionTable} {name : String}
    {actions : List String} (h : table.actions? name = some actions) :
    ∃ row ∈ table.rows, row.2 = actions := by
  obtain ⟨before, rest, hrows, -⟩ := List.lookup_eq_some_iff.1 h
  refine ⟨(name, actions), ?_, rfl⟩
  rw [hrows]
  exact List.mem_append_right _ List.mem_cons_self

namespace Store

/-- A managed grant of a name's actions has the actions of a row, like all others. -/
theorem named_setGrant {s : Store} (h : s.WellFormed) (hs : s.Named) (now : Nat) (org : Int)
    (subject : Subject) (scope : Scope) {kind : Kind} {name : String} {actions : List String}
    (hact : namedActions (.standard kind) name = .ok actions) :
    (s.setGrant now org subject scope actions).2.Named := by
  intro e he
  have ht := wellFormed_setGrant h now org subject scope actions
  rw [mem_entries_iff ht, lookup_setGrant h] at he
  by_cases hk : managedKey org subject scope = e.key
  · rw [if_pos hk] at he
    rcases setGrant_fst s now org subject scope actions with ⟨-, hg⟩ | ⟨hne, g, hg, -, hacts⟩
    · rw [hg] at he
      cases he
    · rw [hg] at he
      cases he
      rcases namedActions_eq_ok_iff.1 hact with ⟨-, hnil⟩ | ⟨-, hsome⟩
      · exact absurd hnil hne
      · obtain ⟨row, hrow, rfl⟩ := PermissionTable.exists_row_of_actions? hsome
        exact ⟨kind, row, hrow, fun action => hacts ▸ Ascending.mem_ofList⟩
  · rw [if_neg hk] at he
    exact hs e ((mem_entries_iff h).2 he)

/-- A named change leaves grants with the actions of rows. -/
theorem named_apply {s : Store} (h : s.WellFormed) (hs : s.Named) (now : Nat) {c : Change}
    (hc : c.IsNamed) : (c.apply now s).Named := by
  cases c with
  | save r =>
    simp only [Change.apply, Change.run, save]
    by_cases hid : r.id = 0
    · rw [if_pos hid]
      exact hs
    · rw [if_neg hid]
      exact hs
  | grantRole org role subject permissions => exact absurd hc id
  | setGrant org subject scope actions => exact absurd hc id
  | setPermission table org resource subject name =>
    obtain ⟨kind, rfl⟩ := hc
    simp only [Change.apply, Change.run, setPermission]
    cases hact : namedActions (.standard kind) name with
    | error e => exact hs
    | ok actions => exact named_setGrant h hs now org subject _ hact

/-- So does every history of named changes. -/
theorem named_after {s : Store} (h : s.WellFormed) (hs : s.Named)
    {history : List (Nat × Change)} (hnamed : ∀ step ∈ history, step.2.IsNamed) :
    (s.after history).Named := by
  induction history generalizing s with
  | nil => exact hs
  | cons step rest ih =>
    obtain ⟨now, c⟩ := step
    exact ih (Change.wellFormed_apply h now c)
      (named_apply h hs now (hnamed _ List.mem_cons_self))
      fun step hstep => hnamed step (List.mem_cons_of_mem _ hstep)

end Store

/-! ## Nested rows -/

namespace Right

/-- The rights that come with a right. -/
def brings : Right → List Right
  | .view => [.view]
  | .edit | .save | .delete => [.edit, .save, .delete, .view]
  | .admin => [.admin, .edit, .save, .delete, .view]

/-- Every right has an action that no row of the standard tables has without all actions of
the rights that come with it, whatever the kinds of the resource and the table. -/
theorem exists_action_brings (right : Right) (target : Kind) :
    ∃ action ∈ right.actions target, ∀ kind, ∀ row ∈ (PermissionTable.standard kind).rows,
      action ∈ row.2 → ∀ lower ∈ right.brings, lower.actions target ⊆ row.2 := by
  cases right <;> cases target <;>
    exact ⟨_, List.mem_cons_self, fun kind => by cases kind <;> decide⟩

end Right

namespace Store

/-- Where all grants are by name, a right on a resource comes with those below it. -/
theorem permits_of_mem_brings {s : Store} (hs : s.Named) {m : Member} {r : Resource}
    {right lower : Right} (hlower : lower ∈ right.brings) (h : s.Permits m r right) :
    s.Permits m r lower := by
  obtain ⟨scope, hscope, hall⟩ := h
  obtain ⟨action, haction, hrows⟩ := right.exists_action_brings r.kind
  -- of the grants that the right comes from, the one with this action is enough
  obtain ⟨e, he, horg, happ, hlists, hreach⟩ := hall action haction
  obtain ⟨kind, row, hrow, hsame⟩ := hs e he
  refine permits_of_mem he horg happ hscope hreach fun other hother => ?_
  exact (hsame other).2 (hrows kind row hrow ((hsame action).1 hlists) lower hlower hother)

/-! ## Answers of gates -/

/-- After any history of named changes, gates that have loaded nothing yet answer every
question about the rights of a member on a stored resource, and whoever may change
permissions may edit, whoever may edit may save and delete and the other way around, and
whoever may edit may view. -/
theorem reply_may_of_isNamed {history : List (Nat × Change)}
    (hnamed : ∀ step ∈ history, step.2.IsNamed) {r : Resource}
    (hr : r ∈ (empty.after history).resources) {m : Member} (horg : r.org = m.org) :
    ∃ may : Right → Bool,
      (∀ g : Gate, g.kept = none → g.member = m → g.target = r.id →
        ∀ right, (empty.after history).reply g (.may right) = .ok (.verdict (may right))) ∧
      (may .admin = true → may .edit = true) ∧
      may .save = may .edit ∧ may .delete = may .edit ∧
      (may .edit = true → may .view = true) := by
  have hs : (empty.after history).Reachable := ⟨history, rfl⟩
  have hrows := named_after wellFormed_empty named_empty hnamed
  let may := fun right : Right => (empty.after history).decides m (right.requirement r)
  have hbrings : ∀ right, ∀ lower ∈ right.brings, may right = true → may lower = true := by
    intro right lower hlower h
    rw [decides_requirement_iff] at h ⊢
    exact permits_of_mem_brings hrows hlower h
  refine ⟨may, ?_, hbrings .admin .edit (by decide), ?_, ?_, hbrings .edit .view (by decide)⟩
  · rintro g hg rfl htarget right
    exact reply_may_of_mem hs hr hg horg htarget.symm right
  · exact Bool.eq_iff_iff.2
      ⟨hbrings .save .edit (by decide), hbrings .edit .save (by decide)⟩
  · exact Bool.eq_iff_iff.2
      ⟨hbrings .delete .edit (by decide), hbrings .edit .delete (by decide)⟩

/-- Editing through a star that stands for many dashboards, after viewing was taken away
from the folder again. -/
theorem reply_may_of_isNamed_star :
    let history : List (Nat × Change) :=
      [(1, .save ⟨1, 42, "load", "Load", .dashboardIn 7⟩),
       (2, .setPermission .folders 1 "7" (.role .viewer) "View"),
       (3, .setPermission .dashboards 1 "4*" (.user 10 "ann" "") "Admin"),
       (4, .setPermission .dashboards 1 "4*" (.user 10 "ann" "") "Edit"),
       (5, .setPermission .folders 1 "7" (.role .viewer) "")]
    let m : Member := { org := 1, user := 10, login := "ann", role := .editor }
    (∀ step ∈ history, step.2.IsNamed) ∧
      ∃ may : Right → Bool,
        (∀ right, (empty.after history).reply { member := m, target := 42 } (.may right) =
          .ok (.verdict (may right))) ∧
        may .save = true ∧ may .delete = true ∧ may .edit = true ∧ may .view = true ∧
        may .admin = false := by
  intro history m
  have hnamed : ∀ step ∈ history, step.2.IsNamed := by
    simp only [history, List.forall_mem_cons, Change.IsNamed]
    exact ⟨trivial, ⟨.folder, rfl⟩, ⟨.dashboard, rfl⟩, ⟨.dashboard, rfl⟩, ⟨.folder, rfl⟩, by simp⟩
  obtain ⟨may, hmay, -, hsave, hdelete, hview⟩ := reply_may_of_isNamed hnamed
    (r := ⟨1, 42, "load", "Load", .dashboardIn 7⟩) (by decide +kernel) (m := m) rfl
  have hreply := hmay { member := m, target := 42 } rfl rfl rfl
  have hvalue : ∀ right granted, (empty.after history).reply { member := m, target := 42 }
      (.may right) = .ok (.verdict granted) → may right = granted := by
    intro right granted h
    rw [hreply, Except.ok.injEq, Reply.verdict.injEq] at h
    exact h
  have hedit : may .edit = true := hvalue .edit true rfl
  have hadmin : may .admin = false := hvalue .admin false rfl
  exact ⟨hnamed, may, hreply, hsave.trans hedit, hdelete.trans hedit, hedit, hview hedit, hadmin⟩

end Store

end DashboardAccess
