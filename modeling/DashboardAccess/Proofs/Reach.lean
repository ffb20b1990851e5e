/-
# Whom a subject reaches

Two subjects have the same managed role name exactly if they reach the same members.
Both sides come down to the form of a subject and its number; logins, names and addresses
only describe it.

Subjects are ordered by whom they reach.  Below a role stand all subjects whose members
have it, and otherwise a subject stands only below itself.  To tell who stands above a
subject, one member is enough: a weakest one of those that the subject reaches, with the
lowest role, in no other team, and not the user whom the subject above might be.

* `Alike` : the same user, team or role, whatever describes it;
* `managedRole_eq_iff_alike` : the names of managed roles tell subjects apart that are not
  alike, and no others;
* `Below`, `below_iff` : the order of subjects by whom they reach;
* `Below.antisymm` : subjects below each other are alike;
* `below_of_appliesTo_weakest`, `alike_of_weakest` : what a weakest member tells;
* `alike_iff_appliesTo`, `alike_iff_appliesTo_of_fits` : subjects that reach the same members
  are alike, and among numbers of 64 bits the members of one organization tell so;
* `managedRole_identifies_reach` : names and members together.
-/
import DashboardAccess.Permission
import DashboardAccess.Proofs.ScopeText
import DashboardAccess.WordSize

namespace DashboardAccess

/-- The numbers of the user and of all teams have 64 bits. -/
structure Member.Fits (m : Member) : Prop where
  user : isInt64 m.user = true
  teams : ∀ id ∈ m.teams, isInt64 id = true

namespace Subject

variable {s t : Subject}

/-- The number of the subject has 64 bits. -/
def Fits (s : Subject) : Prop :=
  isInt64 s.number = true

instance : Decidable s.Fits :=
  inferInstanceAs (Decidable (_ = true))

/-! ## Subjects but for their descriptions -/

/-- The subjects are the same user, the same team or the same role, whatever describes
them. -/
inductive Alike : Subject → Subject → Prop where
  | user (id : Int) (login login' email email' : String) :
      Alike (.user id login email) (.user id login' email')
  | team (id : Int) (name name' email email' : String) :
      Alike (.team id name email) (.team id name' email')
  | role (r : Role) : Alike (.role r) (.role r)

theorem Alike.symm (h : s.Alike t) : t.Alike s := by
  cases h <;> constructor

/-- Subjects that are alike reach the same members. -/
theorem Alike.appliesTo_eq (h : s.Alike t) (m : Member) : s.appliesTo m = t.appliesTo m := by
  cases h <;> rfl

/-- Subjects that are alike have the same managed role. -/
theorem Alike.managedRole_eq (h : s.Alike t) : s.managedRole = t.managedRole := by
  cases h <;> rfl

/-- The word behind the mark tells the form of the subject. -/
theorem form_eq_of_managedRole_eq (h : s.managedRole = t.managedRole) : s.form = t.form := by
  rw [← String.toList_inj] at h
  cases s <;> cases t <;> simp_all [managedRole, managedMark, form]

/-- Names of managed roles of one form differ only in what tells the subject. -/
theorem managedName_inj {mark word a b ending : String}
    (h : mark ++ word ++ a ++ ending = mark ++ word ++ b ++ ending) : a = b := by
  rw [String.append_left_inj] at h
  exact (String.append_right_inj _).1 h

/-- The name of the managed role tells the form of a subject, and then its number or which
role it is. -/
theorem alike_of_managedRole_eq (h : s.managedRole = t.managedRole) : s.Alike t := by
  have hform := form_eq_of_managedRole_eq h
  cases s with
  | user id login email =>
    cases t with
    | user id' login' email' =>
      obtain rfl : id = id' := Scope.toString_inj.1 (managedName_inj h)
      exact .user ..
    | team id' name' email' => cases hform
    | role q => cases hform
  | team id name email =>
    cases t with
    | user id' login' email' => cases hform
    | team id' name' email' =>
      obtain rfl : id = id' := Scope.toString_inj.1 (managedName_inj h)
      exact .team ..
    | role q => cases hform
  | role r =>
    cases t with
    | user id' login' email' => cases hform
    | team id' name' email' => cases hform
    | role q =>
      obtain rfl : r = q := Role.word_inj (managedName_inj h)
      exact .role r

/-- The managed roles of subjects have the same name exactly if the subjects are alike. -/
theorem managedRole_eq_iff_alike : s.managedRole = t.managedRole ↔ s.Alike t :=
  ⟨alike_of_managedRole_eq, Alike.managedRole_eq⟩

/-! ## The order by reach -/

/-- The lowest role of all members whom the subject reaches; a user or the members of a team
may have any role. -/
def floor : Subject → Role
  | .role r => r
  | _ => .viewer

/-- The first subject is the second one but for what describes it, or the second one is a
role that all members have whom the first one reaches. -/
def Below (s t : Subject) : Prop :=
  s.Alike t ∨ ∃ r, t = .role r ∧ s.floor.includes r = true

/-- No member whom the subject reaches has a lower role. -/
theorem includes_floor {m : Member} (h : s.appliesTo m = true) :
    m.role.includes s.floor = true := by
  cases s with
  | role r => exact h
  | user id login email => exact decide_eq_true (Nat.zero_le _)
  | team id name email => exact decide_eq_true (Nat.zero_le _)

/-- Whom a subject reaches all subjects above it reach. -/
theorem Below.appliesTo {m : Member} (h : s.Below t) (hs : s.appliesTo m = true) :
    t.appliesTo m = true := by
  rcases h with halike | ⟨r, rfl, hr⟩
  · rw [← halike.appliesTo_eq, hs]
  · exact Role.includes_trans (includes_floor hs) hr

/-- Subjects below each other are alike. -/
theorem Below.antisymm (hst : s.Below t) (hts : t.Below s) : s.Alike t := by
  rcases hst with halike | ⟨r, rfl, hr⟩
  · exact halike
  · rcases hts with halike | ⟨q, rfl, hq⟩
    · exact halike.symm
    · -- two roles, each the floor of itself
      obtain rfl : q = r := Role.includes_antisymm hr hq
      exact .role q

/-! ## Weakest members -/

/-- A number that is not the number of the subject. -/
def stranger (s : Subject) : Int :=
  if s.number = 0 then 1 else 0

theorem stranger_ne (s : Subject) : s.stranger ≠ s.number := by
  unfold stranger
  split <;> omega

theorem isInt64_stranger (s : Subject) : isInt64 s.stranger = true := by
  unfold stranger
  split <;> decide

/-- A member of the organization whom the subject reaches, with no team and no role that are
not needed for this; `aside` is its number unless the subject asks for one. -/
def weakest (org aside : Int) : Subject → Member
  | .user id _ _ => { org, user := id, login := "", role := .viewer }
  | .team id _ _ => { org, user := aside, login := "", role := .viewer, teams := [id] }
  | .role r => { org, user := aside, login := "", role := r }

theorem appliesTo_weakest (s : Subject) (org aside : Int) :
    s.appliesTo (s.weakest org aside) = true := by
  cases s with
  | user id login email => exact decide_eq_true rfl
  | team id name email => simp [appliesTo, weakest]
  | role r => exact decide_eq_true (Nat.le_refl _)

theorem org_weakest (s : Subject) (org aside : Int) : (s.weakest org aside).org = org := by
  cases s <;> rfl

theorem role_weakest (s : Subject) (org aside : Int) :
    (s.weakest org aside).role = s.floor := by
  cases s <;> rfl

theorem fits_weakest (h : s.Fits) (org : Int) {aside : Int}
    (haside : isInt64 aside = true) : (s.weakest org aside).Fits := by
  cases s with
  | user id login email => exact ⟨h, List.forall_mem_nil _⟩
  | team id name email => exact ⟨haside, List.forall_mem_singleton.2 h⟩
  | role r => exact ⟨haside, List.forall_mem_nil _⟩

/-- A subject stands above another one if it reaches a weakest member of the other one whose
number was set aside from its own. -/
theorem below_of_appliesTo_weakest {org : Int}
    (h : t.appliesTo (s.weakest org t.stranger) = true) : s.Below t := by
  cases t with
  | role r =>
    refine .inr ⟨r, rfl, ?_⟩
    rw [← role_weakest s org]
    exact h
  | user id login email =>
    -- the number is only that of the other subject, the one set aside is not this user's
    have hid : id = (s.weakest org (user id login email).stranger).user := of_decide_eq_true h
    have hne := stranger_ne (user id login email)
    cases s with
    | user id' login' email' => exact .inl (hid ▸ .user ..)
    | team id' name' email' => exact absurd hid.symm hne
    | role q => exact absurd hid.symm hne
  | team id name email =>
    -- a team can only be the one team of the member
    have hid := List.contains_iff_mem.1 h
    cases s with
    | user id' login' email' => cases hid
    | team id' name' email' => exact .inl (List.mem_singleton.1 hid ▸ .team ..)
    | role q => cases hid

/-- A subject stands below another one exactly if the other one reaches all whom it
reaches. -/
theorem below_iff : s.Below t ↔ ∀ m, s.appliesTo m = true → t.appliesTo m = true := by
  constructor
  · intro h m
    exact h.appliesTo
  · intro h
    exact below_of_appliesTo_weakest (h _ (appliesTo_weakest s 0 t.stranger))

/-- Subjects are alike if they agree about two members of an organization, a weakest one for
each of them. -/
theorem alike_of_weakest (org : Int)
    (hs : s.appliesTo (s.weakest org t.stranger) = t.appliesTo (s.weakest org t.stranger))
    (ht : s.appliesTo (t.weakest org s.stranger) = t.appliesTo (t.weakest org s.stranger)) :
    s.Alike t := by
  rw [appliesTo_weakest] at hs ht
  exact (below_of_appliesTo_weakest hs.symm).antisymm (below_of_appliesTo_weakest ht)

/-- Subjects are alike exactly if they reach the same members. -/
theorem alike_iff_appliesTo : s.Alike t ↔ ∀ m, s.appliesTo m = t.appliesTo m := by
  constructor
  · intro h
    exact h.appliesTo_eq
  · intro h
    have hst : s.Below t := below_iff.2 fun m hm => h m ▸ hm
    have hts : t.Below s := below_iff.2 fun m hm => h m ▸ hm
    exact hst.antisymm hts

/-- For subjects with numbers of 64 bits the members with such numbers are enough, and of
them those of any one organization. -/
theorem alike_iff_appliesTo_of_fits (hs : s.Fits) (ht : t.Fits) (org : Int) :
    s.Alike t ↔ ∀ m : Member, m.org = org → m.Fits → s.appliesTo m = t.appliesTo m := by
  constructor
  · intro h m _ _
    exact h.appliesTo_eq m
  · intro h
    exact alike_of_weakest org
      (h _ (org_weakest s org _) (fits_weakest hs org (isInt64_stranger t)))
      (h _ (org_weakest t org _) (fits_weakest ht org (isInt64_stranger s)))

/-! ## Names of managed roles -/

/-- The name of a managed role identifies whom the subject reaches.  Two subjects have the
same name exactly if they reach the same members, whatever their logins, names and addresses;
with numbers of 64 bits, exactly if they do so among the members with such numbers, be it in
one organization only.  And every grant through a managed role is a managed one. -/
theorem managedRole_identifies_reach (s t : Subject) :
    (s.managedRole = t.managedRole ↔ ∀ m, s.appliesTo m = t.appliesTo m) ∧
    (s.Fits → t.Fits → ∀ org, (s.managedRole = t.managedRole ↔
      ∀ m : Member, m.org = org → m.Fits → s.appliesTo m = t.appliesTo m)) ∧
    ∀ g : Grant, g.role = s.managedRole → g.isManaged = true := by
  refine ⟨?_, fun hs ht org => ?_, fun g hg => ?_⟩
  · rw [managedRole_eq_iff_alike, alike_iff_appliesTo]
  · rw [managedRole_eq_iff_alike, alike_iff_appliesTo_of_fits hs ht org]
  · rw [Grant.isManaged, hg, isManagedRole_managedRole]

/-- The user with the least number of 64 bits is the same one under another login and address.
The team with that number is not, and some member of the first organization tells so. -/
theorem managedRole_identifies_reach_renamed :
    let ann : Subject := .user (-9223372036854775808) "ann" ""
    let anna : Subject := .user (-9223372036854775808) "anna" "anna@example.org"
    let team : Subject := .team (-9223372036854775808) "ann" ""
    let g : Grant := ⟨1, "managed:users:-9223372036854775808:permissions", ["folders:read"],
      "folders:id:7", ann, 1, 1⟩
    ann.Fits ∧ team.Fits ∧ g.role = ann.managedRole ∧
    (∀ m, ann.appliesTo m = anna.appliesTo m) ∧
    (∃ m : Member, m.org = 1 ∧ m.Fits ∧ ann.appliesTo m ≠ team.appliesTo m) ∧
    g.isManaged = true := by
  intro ann anna team g
  have hann : ann.Fits := by decide
  have hteam : team.Fits := by decide
  have hg : g.role = ann.managedRole := by decide
  refine ⟨hann, hteam, hg, (managedRole_identifies_reach ann anna).1.1 rfl, ?_,
    (managedRole_identifies_reach ann anna).2.2 g hg⟩
  -- if no member told them apart, the names would be the same
  refine Classical.byContradiction fun hnone => ?_
  have hname : ann.managedRole = team.managedRole :=
    ((managedRole_identifies_reach ann team).2.1 hann hteam 1).2 fun m horg hfits =>
      Decidable.not_not.1 fun hne => hnone ⟨m, horg, hfits, hne⟩
  exact absurd hname (by decide)

end Subject

end DashboardAccess
