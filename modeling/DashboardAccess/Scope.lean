/-
# Scopes

A scope is a text that names the resources a permission reaches: one resource
(`folders:id:7`), everything that starts alike (`dashboards:*`), or, when it is
empty, the whole organization.

* `covers_iff` : when one scope covers another, said without recursion;
* `ofResource_eq`, `ofId_eq` : the text of the scope of one resource.
-/

namespace DashboardAccess

/-! ## Kinds of resources -/

/-- The two kinds of resources that access is decided for. -/
inductive Kind where
  | folder
  | dashboard
deriving DecidableEq, Repr

namespace Kind

/-- The name of a kind. -/
def name : Kind → String
  | .folder => "Folder"
  | .dashboard => "Dashboard"

/-- The word that scopes and actions of a kind start with. -/
def plural : Kind → String
  | .folder => "folders"
  | .dashboard => "dashboards"

end Kind

/-! ## Scopes as text -/

/-- Names the resources that a permission reaches. -/
abbrev Scope := String

namespace Scope

/-- The parts of a scope with a colon between each two. -/
def join (parts : List String) : Scope :=
  String.intercalate ":" parts

/-- The scope of the resource of a kind whose id has the text `id`. -/
def ofResource (kind : Kind) (id : String) : Scope :=
  join [kind.plural, "id", id]

/-- The scope of the resource of a kind with a numeric id. -/
def ofId (kind : Kind) (id : Int) : Scope :=
  ofResource kind (toString id)

/-- The scope of a resource is its kind's word, `id` and the text of its id. -/
theorem ofResource_eq (kind : Kind) (id : String) :
    ofResource kind id = kind.plural ++ ":id:" ++ id := by
  simp [ofResource, join, String.intercalate_cons_cons, ← String.toList_inj]

/-- The same with a numeric id. -/
theorem ofId_eq (kind : Kind) (id : Int) : ofId kind id = kind.plural ++ ":id:" ++ toString id :=
  ofResource_eq kind (toString id)

/-! ## Coverage -/

/-- A pattern matches a text that it equals; a star at its end stands for any
rest. -/
def matchesText : List Char → List Char → Bool
  | [], [] => true
  | ['*'], _ => true
  | p :: ps, c :: cs => p == c && matchesText ps cs
  | _, _ => false

/-- A granted scope covers a requested one if it is empty, equal to it, or ends
in a star before which it agrees with the start of the requested one. -/
def covers (granted requested : Scope) : Bool :=
  granted.toList.isEmpty || matchesText granted.toList requested.toList

/-- A pattern matches exactly the text it spells and, with a star at its end,
every continuation of what stands before the star. -/
theorem matchesText_iff (p t : List Char) :
    matchesText p t = true ↔ p = t ∨ ∃ q, p = q ++ ['*'] ∧ q <+: t := by
  fun_induction matchesText p t with
  | case1 => simp
  | case2 t => simp
  | case3 p ps c cs hstar ih =>
    simp only [Bool.and_eq_true, beq_iff_eq, ih, List.cons.injEq]
    constructor
    · rintro ⟨rfl, rfl | ⟨q, rfl, hq⟩⟩
      · exact .inl ⟨rfl, rfl⟩
      · exact .inr ⟨p :: q, rfl, by simpa using hq⟩
    · rintro (⟨rfl, rfl⟩ | ⟨q, hp, hq⟩)
      · exact ⟨rfl, .inl rfl⟩
      · cases q with
        | nil =>
          obtain ⟨rfl, rfl⟩ : p = '*' ∧ ps = [] := by simpa using hp
          exact absurd rfl (hstar rfl)
        | cons d q =>
          obtain ⟨rfl, rfl⟩ : p = d ∧ ps = q ++ ['*'] := by simpa using hp
          obtain ⟨hpc, hq⟩ := List.cons_prefix_cons.1 hq
          exact ⟨hpc, .inr ⟨q, rfl, hq⟩⟩
  | case4 p t h1 h2 h3 =>
    cases p with
    | nil => cases t with
      | nil => exact absurd rfl (h1 rfl)
      | cons c cs => simp
    | cons d ps => cases t with
      | nil =>
        simp only [Bool.false_eq_true, false_iff, not_or, not_exists, not_and]
        refine ⟨by simp, fun q hp hq => ?_⟩
        have : q = [] := by simpa using hq
        subst this
        obtain ⟨rfl, rfl⟩ : d = '*' ∧ ps = [] := by simpa using hp
        exact h2 rfl
      | cons c cs => exact absurd rfl (h3 _ _ _ _ rfl)

/-- A granted scope covers exactly: everything if it is empty, itself, and, with
a star at its end, whatever starts with the text before the star. -/
theorem covers_iff (granted requested : Scope) :
    covers granted requested = true ↔
      granted = "" ∨ granted = requested ∨
        ∃ q, granted = q ++ "*" ∧ q.toList <+: requested.toList := by
  simp only [covers, Bool.or_eq_true, matchesText_iff, List.isEmpty_iff]
  constructor
  · rintro (h | h | ⟨q, hq, hp⟩)
    · exact .inl (by simpa using h)
    · exact .inr (.inl (String.toList_inj.1 h))
    · exact .inr (.inr ⟨String.ofList q, by simp [← String.toList_inj, hq], by simpa using hp⟩)
  · rintro (rfl | rfl | ⟨q, rfl, hp⟩)
    · exact .inl rfl
    · exact .inr (.inl rfl)
    · exact .inr (.inr ⟨q.toList, by simp, hp⟩)

end Scope

end DashboardAccess
