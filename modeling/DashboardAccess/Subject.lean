/-
# Members and subjects

A member is who asks; a subject is whom a grant is for: one user, one team, or
everybody whose role includes a given one.

* `appliesTo` : whom a subject reaches;
* `managedRole` : the name under which grants to a subject are managed;
* `compare_eq_eq_iff` : the order of subjects (users, teams, roles; then field by
  field) tells any two of them apart.
-/
import DashboardAccess.Role

namespace DashboardAccess

/-! ## Members -/

/-- A signed-in user in one organization. -/
structure Member where
  org : Int
  user : Int
  login : String
  role : Role
  teams : List Int := []
deriving DecidableEq, Repr

namespace Member

/-- How the journal names a member. -/
def text (m : Member) : String :=
  "user;" ++ toString m.org ++ ";" ++ toString m.user ++ ";" ++ m.login

end Member

/-! ## Subjects -/

/-- Whom a grant is for.  Only the number of a user or team decides whom it
reaches; the other fields describe it in listings. -/
inductive Subject where
  | user (id : Int) (login email : String)
  | team (id : Int) (name email : String)
  | role (role : Role)
deriving DecidableEq, Repr

namespace Subject

/-- The user itself, the members of the team, or all whose role includes the
role. -/
def appliesTo : Subject → Member → Bool
  | .user id _ _, m => decide (id = m.user)
  | .team id _ _, m => m.teams.contains id
  | .role r, m => m.role.includes r

/-- What the names of managed roles start with. -/
def managedMark : String := "managed:"

/-- The name of the role through which grants to a subject are managed. -/
def managedRole : Subject → String
  | .user id _ _ => managedMark ++ "users:" ++ toString id ++ ":permissions"
  | .team id _ _ => managedMark ++ "teams:" ++ toString id ++ ":permissions"
  | .role r => managedMark ++ "builtins:" ++ r.word ++ ":permissions"

/-! ## The order of subjects -/

/-- Users come first, then teams, then roles. -/
def form : Subject → Nat
  | .user .. => 0
  | .team .. => 1
  | .role _ => 2

/-- The number of a user or team, or the rank of a role. -/
def number : Subject → Int
  | .user id _ _ => id
  | .team id _ _ => id
  | .role r => r.rank

/-- The login of a user or the name of a team. -/
def title : Subject → String
  | .user _ login _ => login
  | .team _ name _ => name
  | .role _ => ""

/-- The address of a user or team. -/
def email : Subject → String
  | .user _ _ email => email
  | .team _ _ email => email
  | .role _ => ""

/-- By form, then number, then login or name, then address. -/
def order : Subject → Subject → Ordering :=
  compareLex (compareOn form) <| compareLex (compareOn number) <|
    compareLex (compareOn title) (compareOn email)

instance : Ord Subject := ⟨order⟩

instance : Std.TransOrd Subject := by
  show Std.TransCmp order
  unfold order
  infer_instance

/-- Only equal subjects compare as equal. -/
theorem compare_eq_eq_iff {a b : Subject} : compare a b = .eq ↔ a = b := by
  constructor
  · intro h
    have h : order a b = .eq := h
    simp only [order, compareLex_eq_eq, compareOn, Std.LawfulEqCmp.compare_eq_iff_eq] at h
    obtain ⟨hf, hn, ht, he⟩ := h
    cases a <;> cases b <;> simp_all [form, number, title, email]
    exact Role.rank_inj (by omega)
  · rintro rfl
    exact Std.ReflCmp.compare_self

instance : Std.LawfulEqOrd Subject where
  compare_self := compare_eq_eq_iff.2 rfl
  eq_of_compare := compare_eq_eq_iff.1

/-- Subjects in ascending order; equal ones keep their number. -/
def sort (subjects : List Subject) : List Subject :=
  subjects.mergeSort fun a b => (compare a b).isLE

end Subject

end DashboardAccess
