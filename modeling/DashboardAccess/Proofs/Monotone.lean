/-
# More permissions never deny

A requirement is put together from actions on scopes by all and any, never by an
exception.  So whatever is decided with yes stays so under more permissions, however deep
the requirement is nested.

* `Requirement.holds_mono` : if every leaf that holds goes on to hold, so does every
  requirement;
* `Requirement.leafHolds_ofPermissions_iff` : a leaf, by a list of permissions;
* `Requirement.holds_of_subset`, `Store.decides_of_subset` : decisions under more
  permissions.
-/
import DashboardAccess.Proofs.Access

namespace DashboardAccess

namespace Requirement

/-- If every leaf that holds under some granted scopes also holds under others, so does
every requirement. -/
theorem holds_mono {granted more : GrantedScopes}
    (hleaf : ∀ action scope, leafHolds granted action scope = true →
      leafHolds more action scope = true) (r : Requirement) :
    r.holds granted = true → r.holds more = true := by
  induction r with
  | leaf action scope =>
    rw [holds_leaf, holds_leaf]
    exact hleaf action scope
  | all parts ih =>
    rw [holds_all, holds_all, List.all_eq_true, List.all_eq_true]
    intro hall r hr
    exact ih r hr (hall r hr)
  | any parts ih =>
    rw [holds_any, holds_any, List.any_eq_true, List.any_eq_true]
    rintro ⟨r, hr, hholds⟩
    exact ⟨r, hr, ih r hr hholds⟩

/-- An action anywhere needs a row of the action, whatever its scopes. -/
theorem leafHolds_none (granted : GrantedScopes) (action : String) :
    leafHolds granted action none = (granted.lookup action).isSome := by
  unfold leafHolds
  cases granted.lookup action with
  | none => rfl
  | some scopes => rfl

/-- An action on a scope needs a row of the action with a scope that covers it. -/
theorem leafHolds_some_iff {granted : GrantedScopes} {action : String} {requested : Scope} :
    leafHolds granted action (some requested) = true ↔
      ∃ scopes, granted.lookup action = some scopes ∧
        ∃ s ∈ scopes, Scope.covers s requested = true := by
  rw [leafHolds_some]
  cases granted.lookup action with
  | none => simp
  | some scopes => simp

/-- A leaf holds if one permission has its action and, if a scope is asked for, covers
it. -/
theorem leafHolds_ofPermissions_iff {permissions : List Permission} {action : String}
    {scope : Option Scope} :
    leafHolds (GrantedScopes.ofPermissions permissions) action scope = true ↔
      ∃ p ∈ permissions, p.action = action ∧
        ∀ requested ∈ scope, Scope.covers p.scope requested = true := by
  cases scope with
  | some requested =>
    have hon := @holds_on_iff permissions action requested
    rw [on, holds_leaf] at hon
    simpa using hon
  | none =>
    rw [leafHolds_none, GrantedScopes.lookup_ofPermissions]
    by_cases ha : action ∈ permissions.map (·.action)
    · rw [if_pos ha]
      simpa using ha
    · rw [if_neg ha]
      simpa using ha

/-- What holds by some permissions holds by every list that has them all. -/
theorem holds_of_subset {permissions more : List Permission} (h : permissions ⊆ more)
    (r : Requirement) : r.holds (GrantedScopes.ofPermissions permissions) = true →
      r.holds (GrantedScopes.ofPermissions more) = true := by
  refine holds_mono (fun action scope hleaf => ?_) r
  obtain ⟨p, hp, haction, hscope⟩ := leafHolds_ofPermissions_iff.1 hleaf
  exact leafHolds_ofPermissions_iff.2 ⟨p, h hp, haction, hscope⟩

end Requirement

/-- What is decided with yes for a member stays so, for whichever member and in whichever
store all the permissions are there. -/
theorem Store.decides_of_subset {s t : Store} {m n : Member}
    (h : s.permissionsOf m ⊆ t.permissionsOf n) {r : Requirement}
    (hr : s.decides m r = true) : t.decides n r = true :=
  Requirement.holds_of_subset h r hr

end DashboardAccess
