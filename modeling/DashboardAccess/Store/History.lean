/-
# Histories of a store

The changes that a store can go through, each at a time of the clock, and the
stores that they lead to.  A change that fails leaves the store as it is.

* `Change.run` : what a change hands back, and the store afterwards;
* `Store.after` : the store after a history of changes;
* `wellFormed_of_reachable` : every store that a history leads to is in order.
-/
import DashboardAccess.Store

namespace DashboardAccess

/-! ## Changes -/

/-- A change of a store. -/
inductive Change where
  /-- Store a resource. -/
  | save (r : Resource)
  /-- Add permissions to what a role grants to a subject. -/
  | grantRole (org : Int) (role : String) (subject : Subject) (permissions : List Permission)
  /-- Make the managed actions of a subject on a scope the given ones. -/
  | setGrant (org : Int) (subject : Subject) (scope : Scope) (actions : List String)
  /-- Make a subject's permission on a resource the one that a table names. -/
  | setPermission (table : PermissionTable) (org : Int) (resource : String)
      (subject : Subject) (name : String)
deriving DecidableEq, Repr

/-- What a change hands back: nothing, or the managed grant that it leaves. -/
inductive Receipt where
  | done
  | grant (g : Option Grant)
deriving DecidableEq, Repr

namespace Change

/-- Make a change at a time. -/
def run (now : Nat) (s : Store) : Change → Except Failure (Receipt × Store)
  | .save r =>
    match s.save r with
    | .ok t => .ok (.done, t)
    | .error e => .error e
  | .grantRole org role subject permissions =>
    .ok (.done, s.grantRole now org role subject permissions)
  | .setGrant org subject scope actions =>
    let (g, t) := s.setGrant now org subject scope actions
    .ok (.grant g, t)
  | .setPermission table org resource subject name =>
    match s.setPermission now table org resource subject name with
    | .ok (g, t) => .ok (.grant g, t)
    | .error e => .error e

/-- The store after a change at a time. -/
def apply (now : Nat) (s : Store) (c : Change) : Store :=
  match c.run now s with
  | .ok (_, t) => t
  | .error _ => s

/-- A change that fails leaves the store as it is. -/
theorem apply_of_run_eq_error {now : Nat} {s : Store} {c : Change} {e : Failure}
    (h : c.run now s = .error e) : c.apply now s = s := by
  rw [apply, h]

/-- A change that succeeds leads to the store that it hands back. -/
theorem apply_of_run_eq_ok {now : Nat} {s t : Store} {c : Change} {r : Receipt}
    (h : c.run now s = .ok (r, t)) : c.apply now s = t := by
  rw [apply, h]

/-- A change keeps the order of a store. -/
theorem wellFormed_apply {s : Store} (h : s.WellFormed) (now : Nat) (c : Change) :
    (c.apply now s).WellFormed := by
  cases c with
  | save r =>
    simp only [apply, run]
    cases hs : s.save r with
    | error e => exact h
    | ok t => exact Store.wellFormed_save h hs
  | grantRole org role subject permissions =>
    exact Store.wellFormed_grantRole h now org role subject permissions
  | setGrant org subject scope actions =>
    exact Store.wellFormed_setGrant h now org subject scope actions
  | setPermission table org resource subject name =>
    simp only [apply, run, Store.setPermission]
    cases Store.namedActions table name with
    | error e => exact h
    | ok actions => exact Store.wellFormed_setGrant h now org subject _ actions

end Change

/-! ## Histories -/

namespace Store

/-- The store after a history of changes, each at its own time. -/
def after (s : Store) (history : List (Nat × Change)) : Store :=
  history.foldl (fun s h => h.2.apply h.1 s) s

@[simp] theorem after_nil (s : Store) : s.after [] = s :=
  rfl

@[simp] theorem after_cons (s : Store) (now : Nat) (c : Change) (rest : List (Nat × Change)) :
    s.after ((now, c) :: rest) = (c.apply now s).after rest :=
  rfl

/-- A history goes on where another one ended. -/
theorem after_append (s : Store) (first second : List (Nat × Change)) :
    s.after (first ++ second) = (s.after first).after second :=
  List.foldl_append

/-- Some history leads from nothing to the store. -/
def Reachable (s : Store) : Prop :=
  ∃ history, s = empty.after history

/-- What a history leads to from such a store is itself led to by a history. -/
theorem Reachable.after {s : Store} (hs : s.Reachable) (history : List (Nat × Change)) :
    (s.after history).Reachable := by
  obtain ⟨before, rfl⟩ := hs
  exact ⟨before ++ history, (after_append empty before history).symm⟩

/-- A history keeps the order of a store. -/
theorem wellFormed_after {s : Store} (h : s.WellFormed) (history : List (Nat × Change)) :
    (s.after history).WellFormed := by
  induction history generalizing s with
  | nil => exact h
  | cons step rest ih => exact ih (Change.wellFormed_apply h step.1 step.2)

/-- Every store that a history leads to is in order. -/
theorem wellFormed_of_reachable {s : Store} (h : s.Reachable) : s.WellFormed := by
  obtain ⟨history, rfl⟩ := h
  exact wellFormed_after wellFormed_empty history

end Store

end DashboardAccess
