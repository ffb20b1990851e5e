/-
# Requirements

What a member must be allowed in order to do something: an action, on a scope or
anywhere, or all or any of several requirements.  A requirement is decided
against the granted scopes of each action.

* `Requirement.induction` : leaves first, then what is made of several parts;
* `holds_leaf`, `holds_all`, `holds_any` : the decision, case by case;
* `lookup_add` : what adding scopes to a table changes;
* `lookup_ofPermissions` : the table of a list of permissions, row by row;
* `render` : the text of a requirement, as the journal shows it.
-/
import DashboardAccess.Permission
import DashboardAccess.Rows

namespace DashboardAccess

/-! ## Granted scopes by action -/

/-- The scopes that each action is granted on, at most one row for an action. -/
abbrev GrantedScopes := List (String × List Scope)

namespace GrantedScopes

/-- Add scopes to the row of an action. -/
def add (action : String) (scopes : List Scope) (granted : GrantedScopes) : GrantedScopes :=
  Rows.put action ((granted.lookup action).getD [] ++ scopes) granted

/-- The table that holds the given rows, rows of one action joined. -/
def ofRows (rows : List (String × List Scope)) : GrantedScopes :=
  rows.foldl (fun granted row => granted.add row.1 row.2) []

/-- The table of a list of permissions. -/
def ofPermissions (permissions : List Permission) : GrantedScopes :=
  ofRows (permissions.map fun p => (p.action, [p.scope]))

/-- Adding scopes extends the row of their action and leaves the others alone. -/
theorem lookup_add (action a : String) (scopes : List Scope) (granted : GrantedScopes) :
    (granted.add action scopes).lookup a =
      if a = action then some ((granted.lookup a).getD [] ++ scopes) else granted.lookup a := by
  rw [add, Rows.lookup_put]
  by_cases h : a = action
  · subst h
    rfl
  · rw [if_neg h, if_neg h]

/-- The scopes granted for an action by a list of rows, in their order. -/
theorem lookup_foldl_add (rows : List (String × List Scope)) (granted : GrantedScopes)
    (a : String) :
    (rows.foldl (fun granted row => granted.add row.1 row.2) granted).lookup a =
      if a ∈ rows.map (·.1) then
        some ((granted.lookup a).getD [] ++ (rows.filter (·.1 = a)).flatMap (·.2))
      else granted.lookup a := by
  induction rows generalizing granted with
  | nil => simp
  | cons row rest ih =>
    rw [List.foldl_cons, ih, lookup_add]
    simp only [List.map_cons, List.mem_cons]
    by_cases h : a = row.1
    · subst h
      by_cases hr : row.1 ∈ rest.map (·.1)
      · simp [hr]
      · have hf : rest.filter (fun x => decide (x.1 = row.1)) = [] := by
          rw [List.filter_eq_nil_iff]
          intro x hx he
          exact hr (List.mem_map.2 ⟨x, hx, by simpa using he⟩)
        simp [hr, hf]
    · have h' : ¬ row.1 = a := fun he => h he.symm
      rw [List.filter_cons_of_neg (by simpa using h')]
      simp only [h, false_or, if_false]

/-- The row of an action holds the scopes of its permissions in their order; an
action without permissions has no row. -/
theorem lookup_ofPermissions (permissions : List Permission) (a : String) :
    (ofPermissions permissions).lookup a =
      if a ∈ permissions.map (·.action) then
        some ((permissions.filter (·.action = a)).map (·.scope))
      else none := by
  rw [ofPermissions, ofRows, lookup_foldl_add]
  simp only [List.map_map, List.filter_map, Function.comp_def, List.lookup_nil, Option.getD_none,
    List.nil_append, List.flatMap_map]
  congr 2
  induction permissions.filter (·.action = a) with
  | nil => rfl
  | cons p rest ih => rw [List.flatMap_cons, ih, List.map_cons, List.singleton_append]

end GrantedScopes

/-! ## Requirements and their decision -/

/-- What a member must be allowed. -/
inductive Requirement where
  /-- An action, on a scope or, without one, anywhere. -/
  | leaf (action : String) (scope : Option Scope)
  /-- Every one of several requirements. -/
  | all (parts : List Requirement)
  /-- At least one of several requirements. -/
  | any (parts : List Requirement)
deriving Repr, Inhabited

namespace Requirement

/-- An action on a scope. -/
def on (action : String) (scope : Scope) : Requirement :=
  .leaf action (some scope)

/-- An action anywhere. -/
def anywhere (action : String) : Requirement :=
  .leaf action none

/-- What holds of leaves, and of all and any of several requirements if it holds of each
of them, holds of every requirement. -/
@[elab_as_elim, induction_eliminator]
theorem induction {motive : Requirement → Prop}
    (leaf : ∀ action scope, motive (.leaf action scope))
    (all : ∀ parts, (∀ r ∈ parts, motive r) → motive (.all parts))
    (any : ∀ parts, (∀ r ∈ parts, motive r) → motive (.any parts)) : ∀ r, motive r
  | .leaf action scope => leaf action scope
  | .all parts => all parts fun r _ => induction leaf all any r
  | .any parts => any parts fun r _ => induction leaf all any r

/-- Whether granted scopes are enough for an action: its row must exist and, if a
scope is asked for, have a scope that covers it. -/
def leafHolds (granted : GrantedScopes) (action : String) (scope : Option Scope) : Bool :=
  match granted.lookup action, scope with
  | none, _ => false
  | some _, none => true
  | some scopes, some requested => scopes.any (Scope.covers · requested)

mutual

/-- Whether granted scopes are enough for a requirement. -/
def holds (granted : GrantedScopes) : Requirement → Bool
  | .leaf action scope => leafHolds granted action scope
  | .all parts => allHold granted parts
  | .any parts => anyHolds granted parts

/-- Whether granted scopes are enough for every requirement of a list. -/
def allHold (granted : GrantedScopes) : List Requirement → Bool
  | [] => true
  | r :: rest => holds granted r && allHold granted rest

/-- Whether granted scopes are enough for some requirement of a list. -/
def anyHolds (granted : GrantedScopes) : List Requirement → Bool
  | [] => false
  | r :: rest => holds granted r || anyHolds granted rest

end

theorem allHold_eq (granted : GrantedScopes) (parts : List Requirement) :
    allHold granted parts = parts.all (holds granted) := by
  induction parts with
  | nil => rfl
  | cons r rest ih => rw [allHold, ih, List.all_cons]

theorem anyHolds_eq (granted : GrantedScopes) (parts : List Requirement) :
    anyHolds granted parts = parts.any (holds granted) := by
  induction parts with
  | nil => rfl
  | cons r rest ih => rw [anyHolds, ih, List.any_cons]

@[simp] theorem holds_leaf (granted : GrantedScopes) (action : String) (scope : Option Scope) :
    holds granted (.leaf action scope) = leafHolds granted action scope := by
  rw [holds]

@[simp] theorem holds_all (granted : GrantedScopes) (parts : List Requirement) :
    holds granted (.all parts) = parts.all (holds granted) := by
  rw [holds, allHold_eq]

@[simp] theorem holds_any (granted : GrantedScopes) (parts : List Requirement) :
    holds granted (.any parts) = parts.any (holds granted) := by
  rw [holds, anyHolds_eq]

/-! ## Text -/

mutual

/-- The text of a requirement: an action, `on` and its scope, or the parts in
brackets after `all` or `any`. -/
def render : Requirement → List Char
  | .leaf action none => action.toList
  | .leaf action (some scope) => action.toList ++ " on ".toList ++ scope.toList
  | .all parts => "all(".toList ++ renderParts parts
  | .any parts => "any(".toList ++ renderParts parts

/-- The texts of several requirements with commas between them, and the closing
bracket. -/
def renderParts : List Requirement → List Char
  | [] => [')']
  | [r] => render r ++ [')']
  | r :: s :: rest => render r ++ ", ".toList ++ renderParts (s :: rest)

end

/-- The text of a requirement. -/
def text (r : Requirement) : String :=
  String.ofList r.render

end Requirement

end DashboardAccess
