/-
# Requirements and flat lists of permissions

To decide a requirement for a member, the permissions that are stored for the member are
gathered by action first.  Nothing is lost and nothing is mixed up on the way: the decision
can be read off the permissions one by one, as they came.

* `Requirement.MetBy` : a requirement is met by permissions, rule by rule;
* `metBy_leaf_iff`, `metBy_all_iff`, `metBy_any_iff` : the rules, backwards;
* `holds_iff_metBy` : what the gathered permissions decide;
* `metBy_congr` : neither order nor repetition of the permissions matters;
* `Collaborators.run_decide_eq_map` : decisions over any storage, also one that fails;
* `Collaborators.run_decide_stored` : decisions by the permissions that a storage hands out;
* `Store.decides_iff_metBy` : decisions over a store.
-/
import DashboardAccess.Proofs.Inquiries
import DashboardAccess.Proofs.Monotone

namespace DashboardAccess

namespace Requirement

/-! ## Met by permissions -/

/-- A requirement is met by permissions as they are in a list. -/
inductive MetBy (permissions : List Permission) : Requirement → Prop where
  /-- An action anywhere, by a permission for the action. -/
  | anywhere {p : Permission} (hp : p ∈ permissions) : MetBy permissions (.anywhere p.action)
  /-- An action on a scope, by one permission that is for the action and reaches the
  scope. -/
  | on {p : Permission} (hp : p ∈ permissions) {scope : Scope}
      (hscope : Scope.Reaches p.scope scope) : MetBy permissions (.on p.action scope)
  /-- All of several requirements, if each of them is met. -/
  | all {parts : List Requirement} (hparts : ∀ r ∈ parts, MetBy permissions r) :
      MetBy permissions (.all parts)
  /-- Any of several requirements, by one of them that is met. -/
  | any {parts : List Requirement} {r : Requirement} (hr : r ∈ parts)
      (hmet : MetBy permissions r) : MetBy permissions (.any parts)

section
variable {permissions : List Permission}

/-- A leaf is met by one permission alone. -/
theorem metBy_leaf_iff {action : String} {scope : Option Scope} :
    (leaf action scope).MetBy permissions ↔
      ∃ p ∈ permissions, p.action = action ∧
        ∀ requested ∈ scope, Scope.Reaches p.scope requested := by
  constructor
  · intro h
    cases h with
    | anywhere hp => exact ⟨_, hp, rfl, by simp⟩
    | on hp hscope => exact ⟨_, hp, rfl, by simpa using hscope⟩
  · rintro ⟨p, hp, rfl, hscope⟩
    cases scope with
    | none => exact .anywhere hp
    | some requested => exact .on hp (hscope requested rfl)

/-- All of several requirements are met if each is; so all of none are. -/
theorem metBy_all_iff {parts : List Requirement} :
    (all parts).MetBy permissions ↔ ∀ r ∈ parts, r.MetBy permissions := by
  constructor
  · intro h
    cases h with
    | all hparts => exact hparts
  · exact .all

/-- Any of several requirements is met if one is; so any of none is not. -/
theorem metBy_any_iff {parts : List Requirement} :
    (any parts).MetBy permissions ↔ ∃ r ∈ parts, r.MetBy permissions := by
  constructor
  · intro h
    cases h with
    | any hr hmet => exact ⟨_, hr, hmet⟩
  · rintro ⟨r, hr, hmet⟩
    exact .any hr hmet

/-! ## Decisions -/

/-- The gathered permissions decide a requirement as the permissions in their list do. -/
theorem holds_iff_metBy (r : Requirement) :
    r.holds (GrantedScopes.ofPermissions permissions) = true ↔ r.MetBy permissions := by
  induction r with
  | leaf action scope =>
    simp only [holds_leaf, leafHolds_ofPermissions_iff, metBy_leaf_iff, Scope.covers_iff_reaches]
  | all parts ih =>
    rw [holds_all, List.all_eq_true, metBy_all_iff]
    exact forall₂_congr ih
  | any parts ih =>
    rw [holds_any, List.any_eq_true, metBy_any_iff]
    exact exists_congr fun r => and_congr_right (ih r)

instance (permissions : List Permission) (r : Requirement) : Decidable (r.MetBy permissions) :=
  decidable_of_iff _ (holds_iff_metBy r)

/-- A requirement is met by every list of the same permissions, in any order and however
often each of them comes. -/
theorem metBy_congr {others : List Permission} (h : ∀ p, p ∈ permissions ↔ p ∈ others)
    (r : Requirement) : r.MetBy permissions ↔ r.MetBy others := by
  rw [← holds_iff_metBy, ← holds_iff_metBy]
  exact ⟨holds_of_subset (fun p => (h p).1) r, holds_of_subset (fun p => (h p).2) r⟩

end

end Requirement

/-! ## Decisions over stored permissions -/

namespace Collaborators

variable {σ : Type}

/-- A decision over stored permissions finds the permissions first, and fails if that
fails. -/
theorem run_decide_eq_map {c : Collaborators σ}
    {stored : Member → StateM σ (Except Failure (List Permission))}
    (hc : c.evaluator = .stored stored) (m : Member) (r : Requirement) (st : σ) :
    (c.plain.decide m r).run st =
      (((stored m).run st).1.map fun permissions => decide (r.MetBy permissions),
        ((stored m).run st).2) := by
  have hmet : (fun permissions => decide (r.MetBy permissions)) =
      fun permissions => r.holds (GrantedScopes.ofPermissions permissions) := by
    funext permissions
    rw [Bool.eq_iff_iff, decide_eq_true_iff, ← Requirement.holds_iff_metBy]
  rw [hmet, plain, hc]
  rfl

/-- Whatever stores the permissions, a requirement of any nesting is decided by whether the
permissions of the member, as they come from there, meet it, and by nothing else: the same
permissions in another order, and some of them more than once, decide the same, for
whichever member and from whichever storage they come. -/
theorem run_decide_stored {c : Collaborators σ}
    {stored : Member → StateM σ (Except Failure (List Permission))}
    (hc : c.evaluator = .stored stored) {m : Member} {st st' : σ} {permissions : List Permission}
    (hm : (stored m).run st = (.ok permissions, st')) (r : Requirement) :
    (c.plain.decide m r).run st = (.ok (decide (r.MetBy permissions)), st') ∧
    ∀ (d : Collaborators σ) (elsewhere : Member → StateM σ (Except Failure (List Permission)))
        (n : Member) (other other' : σ) (more : List Permission),
      d.evaluator = .stored elsewhere → (elsewhere n).run other = (.ok more, other') →
      (∀ p, p ∈ more ↔ p ∈ permissions) →
        (d.plain.decide n r).run other = (.ok (decide (r.MetBy permissions)), other') := by
  constructor
  · rw [run_decide_eq_map hc, hm]
    rfl
  · intro d elsewhere n other other' more hd hn hsame
    rw [run_decide_eq_map hd, hn]
    simp only [Except.map, Requirement.metBy_congr hsame r]

/-- Two permissions, and the same two turned around and one of them twice, meet a nested
requirement; the scope of one of them is of no use to the action of the other. -/
theorem run_decide_stored_turned :
    let p : Permission := ⟨"folders:read", "folders:*"⟩
    let q : Permission := ⟨"folders:write", "folders:id:7"⟩
    -- a storage that counts how often it is asked
    let storing (permissions : List Permission) : Collaborators Nat :=
      { load := fun id org => pure (.error (.noResource id org))
        list := fun _ _ => pure (.ok [])
        evaluator := .stored fun _ asked => (.ok permissions, asked + 1) }
    let m : Member := { org := 1, user := 10, login := "ann", role := .viewer }
    let elsewhere : Requirement := .on "folders:write" "folders:id:8"
    let r : Requirement :=
      .all [.any [elsewhere, .anywhere "folders:read"], .on "folders:write" "folders:id:7"]
    ((storing [p, q]).plain.decide m r).run 0 = (.ok true, 1) ∧
      ((storing [q, p, q]).plain.decide m r).run 5 = (.ok true, 6) ∧
      ((storing [p, q]).plain.decide m elsewhere).run 0 = (.ok false, 1) := by
  intro p q storing m elsewhere r
  have hmet : decide (r.MetBy [p, q]) = true := by decide +kernel
  have hnot : decide (elsewhere.MetBy [p, q]) = false := by decide +kernel
  have hr := @run_decide_stored Nat (storing [p, q]) _ rfl m 0 1 [p, q] rfl r
  have helsewhere := @run_decide_stored Nat (storing [p, q]) _ rfl m 0 1 [p, q] rfl elsewhere
  refine ⟨hmet ▸ hr.1, ?_, hnot ▸ helsewhere.1⟩
  exact hmet ▸ hr.2 (storing [q, p, q]) _ m 5 6 [q, p, q] rfl rfl (by simp [or_comm])

end Collaborators

/-- Over a store, a requirement is decided by whether the permissions of the member meet
it. -/
theorem Store.decides_iff_metBy {s : Store} {m : Member} {r : Requirement} :
    s.decides m r = true ↔ r.MetBy (s.permissionsOf m) :=
  Requirement.holds_iff_metBy r

end DashboardAccess
