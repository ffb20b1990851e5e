/-
# Wider scopes never deny

What is granted on some scopes is granted on all that cover as much.  Every requirement
that holds by granted scopes goes on to hold if each action keeps its row and each scope
finds one in its row that covers all that it covers; so it does if scopes are replaced by
wider ones.

* `Scope.covers_star_iff` : what a scope with a star at its end covers;
* `Scope.Subsumes` : a scope covers all that another one covers;
* `Scope.Widening`, `Widening.subsumes` : the whole organization, everything, or everything
  with a shorter start;
* `GrantedScopes.Within` : granted scopes find wider ones for the same actions;
* `GrantedScopes.Widening` : one granted scope is replaced by a wider one;
* `Requirement.leafHolds_of_within`, `Requirement.holds_of_within` : leaf by leaf, then
  every requirement.
-/
import DashboardAccess.Proofs.Monotone
import Mathlib.Logic.Relation
import Mathlib.Tactic.SplitIfs

namespace DashboardAccess

/-! ## Scopes -/

namespace Scope

/-- A scope covers all that another one covers. -/
def Subsumes (wide narrow : Scope) : Prop :=
  ∀ requested, covers narrow requested = true → covers wide requested = true

/-- A start with a star behind it covers whatever begins with the start. -/
theorem covers_star_iff (start : String) (requested : Scope) :
    covers (start ++ "*") requested = true ↔ start.toList <+: requested.toList := by
  rw [covers_iff]
  constructor
  · rintro (hempty | rfl | ⟨q, hq, hprefix⟩)
    · exact absurd hempty (by simp)
    · exact String.toList_append ▸ List.prefix_append _ _
    · obtain rfl : start = q := by simpa [← String.toList_inj] using hq
      exact hprefix
  · intro hprefix
    exact .inr (.inr ⟨start, rfl, hprefix⟩)

/-- The plain ways in which a scope is made wider. -/
inductive Widening : Scope → Scope → Prop where
  /-- The empty scope, for the whole organization. -/
  | organization (s : Scope) : Widening s ""
  /-- The star alone, for everything. -/
  | star (s : Scope) : Widening s "*"
  /-- A shorter start of the scope, with a star for the rest. -/
  | start (start rest : String) (hrest : rest ≠ "") : Widening (start ++ rest) (start ++ "*")

/-- A wider scope covers all that the scope does. -/
theorem Widening.subsumes {narrow wide : Scope} (h : Widening narrow wide) :
    Subsumes wide narrow := by
  intro requested hcovers
  cases h with
  | organization => exact (covers_iff _ _).2 (.inl rfl)
  | star => exact (covers_star_iff "" requested).2 List.nil_prefix
  | start start rest hrest =>
    rw [covers_star_iff]
    obtain hempty | rfl | ⟨q, hq, hprefix⟩ := (covers_iff _ _).1 hcovers
    · exact absurd hempty (by simp [hrest])
    · exact String.toList_append ▸ List.prefix_append _ _
    · have hparts : start.toList ++ rest.toList = q.toList ++ ['*'] := by
        simpa [← String.toList_inj] using hq
      obtain hall | hstart := List.prefix_concat_iff.1 ⟨rest.toList, hparts⟩
      · -- then the star, too, is in the start, and nothing is left for the rest
        rw [← hall] at hparts
        exact absurd (List.append_right_eq_self.1 hparts) (by simpa using hrest)
      · exact hstart.trans hprefix

end Scope

/-! ## Granted scopes -/

namespace GrantedScopes

/-- Every action of some granted scopes is an action of others, which grant it on a scope
that covers as much for each of its scopes. -/
structure Within (granted more : GrantedScopes) : Prop where
  actions : ∀ action, (granted.lookup action).isSome → (more.lookup action).isSome
  scopes : ∀ action scopes, granted.lookup action = some scopes → ∀ narrow ∈ scopes,
    ∃ others, more.lookup action = some others ∧ ∃ wide ∈ others, Scope.Subsumes wide narrow

/-- One of the scopes of an action is replaced by a wider one. -/
inductive Widening (granted : GrantedScopes) : GrantedScopes → Prop where
  | replace {action : String} (before after : List Scope) {narrow wide : Scope}
      (hrow : granted.lookup action = some (before ++ narrow :: after))
      (hwide : Scope.Widening narrow wide) :
      Widening granted (Rows.put action (before ++ wide :: after) granted)

/-- With one scope replaced by a wider one, all scopes find wider ones. -/
theorem Widening.within {granted more : GrantedScopes} (h : granted.Widening more) :
    granted.Within more := by
  cases h with
  | @replace action before after narrow wide hrow hwide =>
    constructor
    · intro a ha
      rw [Rows.lookup_put]
      split
      · rfl
      · exact ha
    · intro a scopes ha s hs
      rw [Rows.lookup_put]
      by_cases haction : a = action
      · subst haction
        obtain rfl : scopes = before ++ narrow :: after := Option.some_inj.1 (ha.symm.trans hrow)
        refine ⟨_, if_pos rfl, ?_⟩
        rw [List.mem_append, List.mem_cons, or_left_comm] at hs
        obtain rfl | hs := hs
        · exact ⟨wide, by simp, hwide.subsumes⟩
        · have hkept := List.mem_append.2 (hs.imp_right (List.mem_cons_of_mem wide))
          exact ⟨s, hkept, fun _ => id⟩
      · exact ⟨scopes, (if_neg haction).trans ha, s, hs, fun _ => id⟩

end GrantedScopes

/-! ## Requirements -/

namespace Requirement

/-- A leaf that holds goes on to hold if all scopes find wider ones. -/
theorem leafHolds_of_within {granted more : GrantedScopes} (h : granted.Within more)
    (action : String) (scope : Option Scope) (hleaf : leafHolds granted action scope = true) :
    leafHolds more action scope = true := by
  cases scope with
  | none =>
    rw [leafHolds_none] at hleaf ⊢
    exact h.actions action hleaf
  | some requested =>
    obtain ⟨scopes, hrow, narrow, hnarrow, hcovers⟩ := leafHolds_some_iff.1 hleaf
    obtain ⟨others, hothers, wide, hwide, hsubsumes⟩ := h.scopes action scopes hrow narrow hnarrow
    exact leafHolds_some_iff.2 ⟨others, hothers, wide, hwide, hsubsumes requested hcovers⟩

/-- Whatever holds by granted scopes, of any nesting, goes on to hold if every action keeps
its row, with a scope for each of its scopes that covers all that this one covers; and
so it does after any number of scopes have been replaced by the whole organization, by the star
alone, or by a shorter start of their own with a star. -/
theorem holds_of_within (r : Requirement) {granted more : GrantedScopes} :
    (granted.Within more → r.holds granted = true → r.holds more = true) ∧
    (Relation.ReflTransGen GrantedScopes.Widening granted more →
      r.holds granted = true → r.holds more = true) := by
  have hwithin {granted more : GrantedScopes} (h : granted.Within more) :
      r.holds granted = true → r.holds more = true :=
    holds_mono (leafHolds_of_within h) r
  refine ⟨hwithin, fun hreplaced hholds => ?_⟩
  induction hreplaced with
  | refl => exact hholds
  | tail _ hlast ih => exact hwithin hlast.within ih

/-- A requirement with an action that is granted on nothing in particular, under wider
scopes in other rows, and with a scope replaced twice. -/
theorem holds_of_within_twice :
    let granted : GrantedScopes :=
      [("folders:create", []), ("folders:read", ["folders:id:7", "folders:id:9"])]
    let more : GrantedScopes :=
      [("folders:read", ["dashboards:*", "folders:id:*"]), ("folders:create", [])]
    let once : GrantedScopes := Rows.put "folders:read" ["folders:*", "folders:id:9"] granted
    let twice : GrantedScopes := Rows.put "folders:read" ["", "folders:id:9"] once
    let r : Requirement :=
      .all [.anywhere "folders:create", .any [.all [.on "folders:read" "folders:id:7"], .any []]]
    r.holds granted = true ∧ r.holds more = true ∧ r.holds twice = true := by
  intro granted more once twice r
  have hholds : r.holds granted = true := by decide +kernel
  have hwithin : granted.Within more := by
    constructor
    · intro action
      simp only [granted, more, Rows.lookup_cons_if]
      split_ifs <;> simp
    · intro action scopes hrow narrow hnarrow
      simp only [granted, Rows.lookup_cons_if] at hrow
      split_ifs at hrow with hcreate hread
      · cases hrow
        cases hnarrow
      · subst hread
        obtain rfl : ["folders:id:7", "folders:id:9"] = scopes := Option.some_inj.1 hrow
        refine ⟨["dashboards:*", "folders:id:*"], rfl, "folders:id:*", by decide, ?_⟩
        obtain rfl | rfl : narrow = "folders:id:7" ∨ narrow = "folders:id:9" := by
          simpa using hnarrow
        · exact (Scope.Widening.start "folders:id:" "7" (by decide)).subsumes
        · exact (Scope.Widening.start "folders:id:" "9" (by decide)).subsumes
      · cases hrow
  have hfirst : granted.Widening once :=
    .replace [] ["folders:id:9"] (by decide +kernel) (.start "folders:" "id:7" (by decide))
  have hlast : once.Widening twice :=
    .replace [] ["folders:id:9"] (by decide +kernel) (.organization "folders:*")
  exact ⟨hholds, (holds_of_within r).1 hwithin hholds,
    (holds_of_within r).2 (.tail (.single hfirst) hlast) hholds⟩

end Requirement

end DashboardAccess
