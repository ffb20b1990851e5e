/-
# Organization roles and permission levels

Every member of an organization has one of three roles, each including the ones
below it.  Levels are the coarse steps by which listings describe a named
permission, and a `LevelMap` says which name stands for which level.

* `includes_trans`, `includes_antisymm` : inclusion orders the roles;
* `word_inj` : the word of a role tells the role.
-/

namespace DashboardAccess

/-! ## Roles -/

/-- What a member is in the organization as a whole. -/
inductive Role where
  | viewer
  | editor
  | admin
deriving DecidableEq, Repr

namespace Role

/-- The name of a role. -/
def name : Role → String
  | .viewer => "Viewer"
  | .editor => "Editor"
  | .admin => "Admin"

/-- The name of a role in small letters, as role names of grants spell it. -/
def word : Role → String
  | .viewer => "viewer"
  | .editor => "editor"
  | .admin => "admin"

/-- How high a role stands. -/
def rank : Role → Nat
  | .viewer => 0
  | .editor => 1
  | .admin => 2

instance : Ord Role := ⟨compareOn rank⟩

/-- A role includes itself and every lower one. -/
def includes (a b : Role) : Bool :=
  decide (b.rank ≤ a.rank)

theorem includes_trans {a b c : Role} (hab : a.includes b = true) (hbc : b.includes c = true) :
    a.includes c = true := by
  simp only [includes, decide_eq_true_eq] at *
  omega

/-- Roles of equal rank are equal. -/
theorem rank_inj {a b : Role} (h : a.rank = b.rank) : a = b := by
  cases a <;> cases b <;> first | rfl | cases h

/-- Roles that include each other are equal. -/
theorem includes_antisymm {a b : Role} (hab : a.includes b = true)
    (hba : b.includes a = true) : a = b := by
  simp only [includes, decide_eq_true_eq] at hab hba
  exact rank_inj (Nat.le_antisymm hba hab)

/-- Different roles have different words. -/
theorem word_inj {a b : Role} (h : a.word = b.word) : a = b := by
  cases a <;> cases b <;> simp_all [word]

end Role

/-! ## Levels -/

/-- How much a named permission allows, as listings show it. -/
inductive Level where
  | unknown
  | view
  | edit
  | admin
deriving DecidableEq, Repr

namespace Level

/-- The number of a level. -/
def value : Level → Nat
  | .unknown => 0
  | .view => 1
  | .edit => 2
  | .admin => 4

instance : Ord Level := ⟨compareOn value⟩

/-- The name of a level; the unknown level has none. -/
def name : Level → String
  | .unknown => ""
  | .view => "View"
  | .edit => "Edit"
  | .admin => "Admin"

end Level

/-- Which permission name stands for which level. -/
abbrev LevelMap := List (String × Level)

namespace LevelMap

/-- The three names that the built-in tables use. -/
def standard : LevelMap :=
  [("View", .view), ("Edit", .edit), ("Admin", .admin)]

/-- The level of the first row with the name; a name without a row is unknown. -/
def level (levels : LevelMap) (name : String) : Level :=
  (levels.lookup name).getD .unknown

end LevelMap

end DashboardAccess
