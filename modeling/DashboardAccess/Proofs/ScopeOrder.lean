/-
# Scopes that cover as much as others

To cover a scope is nearly the same as to cover all that it covers.  The two part at one
place: a start with two stars covers the same start with one star, where the last star
stands for the star before it, and yet not the start alone, which one star covers.

* `Subsumes.covers` : what covers as much as a scope covers the scope;
* `DoubleStar` : a start with two stars, against the same start with one;
* `subsumes_of_covers` : from covering a scope to covering as much;
* `DoubleStar.covers`, `DoubleStar.exists_not_covers` : the place where it fails;
* `subsumes_iff` : when a scope covers all that another one covers.
-/
import DashboardAccess.Proofs.Coverage

namespace DashboardAccess

namespace Scope

/-! ## Covering a scope and covering as much -/

/-- Every scope covers itself. -/
theorem covers_refl (s : Scope) : covers s s = true :=
  (covers_iff s s).2 (.inr (.inl rfl))

/-- What covers as much as a scope covers the scope. -/
theorem Subsumes.covers {wide narrow : Scope} (h : Subsumes wide narrow) :
    Scope.covers wide narrow = true :=
  h narrow (covers_refl narrow)

/-! ## Two stars -/

/-- The wide scope is a start with two stars, the narrow one the same start with one. -/
def DoubleStar (wide narrow : Scope) : Prop :=
  ∃ start, wide = start ++ "**" ∧ narrow = start ++ "*"

section
variable {wide narrow : Scope}

/-- A start that a scope with a star begins with is a start before the star, or it is the
whole scope. -/
theorem prefix_of_prefix_append_star {start rest : String}
    (h : start.toList <+: (rest ++ "*").toList) :
    start = rest ++ "*" ∨ start.toList <+: rest.toList := by
  rw [String.toList_append] at h
  rcases List.prefix_concat_iff.1 h with hall | hshort
  · left
    rw [← String.toList_inj, String.toList_append]
    exact hall
  · exact .inr hshort

/-- Two stars behind a start are a star behind the start with a star. -/
theorem append_two_stars (start : String) : start ++ "**" = start ++ "*" ++ "*" := by
  rw [String.append_assoc]
  rfl

/-- A scope that covers another one covers all that this one covers, unless it ends in two
stars where the other one ends in one. -/
theorem subsumes_of_covers (h : covers wide narrow = true) (hstars : ¬ DoubleStar wide narrow) :
    Subsumes wide narrow := by
  intro requested hrequested
  rcases (covers_iff wide narrow).1 h with rfl | rfl | ⟨start, rfl, hstart⟩
  · exact (covers_iff "" requested).2 (.inl rfl)
  · exact hrequested
  · rw [covers_star_iff]
    rcases (covers_iff narrow requested).1 hrequested with rfl | rfl | ⟨rest, rfl, hrest⟩
    · have hnil : start.toList = [] := List.prefix_nil.1 hstart
      rw [hnil]
      exact List.nil_prefix
    · exact hstart
    · rcases prefix_of_prefix_append_star hstart with hall | hshort
      · -- the start takes in the star of the narrow scope
        exact absurd ⟨rest, hall ▸ (append_two_stars rest).symm, rfl⟩ hstars
      · exact hshort.trans hrest

/-- The wide scope is the longer one. -/
theorem DoubleStar.length_lt (h : DoubleStar wide narrow) :
    String.length narrow < String.length wide := by
  obtain ⟨start, rfl, rfl⟩ := h
  rw [append_two_stars, String.length_append (start ++ "*")]
  exact Nat.lt_succ_self _

/-- Two stars cover one: the last of them stands for the star. -/
theorem DoubleStar.covers (h : DoubleStar wide narrow) : Scope.covers wide narrow = true := by
  obtain ⟨start, rfl, rfl⟩ := h
  rw [append_two_stars]
  exact (covers_star_iff _ _).2 (List.prefix_refl _)

/-- One star covers the start alone, two stars do not. -/
theorem DoubleStar.exists_not_covers (h : DoubleStar wide narrow) :
    ∃ requested, Scope.covers narrow requested = true ∧ Scope.covers wide requested = false := by
  obtain ⟨start, rfl, rfl⟩ := h
  refine ⟨start, (covers_star_iff start start).2 (List.prefix_refl _), ?_⟩
  rw [append_two_stars, ← Bool.not_eq_true, covers_star_iff]
  intro hlonger
  have hlength := hlonger.length_le
  rw [String.toList_append, List.length_append] at hlength
  exact absurd hlength (Nat.not_succ_le_self _)

/-! ## Subsumption -/

/-- A scope covers all that another one covers if and only if it covers this one and is not
the same start with a second star.  So coverage is reflexive, and it goes on from scope to
scope except through such a pair: there it always breaks at some scope. -/
theorem subsumes_iff (wide narrow : Scope) :
    (Subsumes wide narrow ↔ covers wide narrow = true ∧ ¬ DoubleStar wide narrow) ∧
    covers wide wide = true ∧
    (∀ requested, covers wide narrow = true → covers narrow requested = true →
      covers wide requested = true ∨ DoubleStar wide narrow) ∧
    (DoubleStar wide narrow → covers wide narrow = true ∧
      ∃ requested, covers narrow requested = true ∧ covers wide requested = false) := by
  refine ⟨⟨fun h => ⟨h.covers, fun hstars => ?_⟩, fun ⟨hcovers, hstars⟩ => ?_⟩, covers_refl wide,
    fun requested hcovers hrequested => ?_, fun hstars => ⟨hstars.covers, hstars.exists_not_covers⟩⟩
  · obtain ⟨requested, hnarrow, hwide⟩ := hstars.exists_not_covers
    exact absurd (h requested hnarrow) (by simp [hwide])
  · exact subsumes_of_covers hcovers hstars
  · by_cases hstars : DoubleStar wide narrow
    · exact .inr hstars
    · exact .inl (subsumes_of_covers hcovers hstars requested hrequested)

end

/-- Two stars behind a start cover one star behind it, and less than this one covers; the
other way round they are covered with all that they cover. -/
theorem subsumes_iff_folders :
    covers "folders:**" "folders:*" = true ∧ ¬ Subsumes "folders:**" "folders:*" ∧
      Subsumes "folders:*" "folders:**" := by
  have hstars : DoubleStar "folders:**" "folders:*" := ⟨"folders:", rfl, rfl⟩
  refine ⟨((subsumes_iff _ _).2.2.2 hstars).1, fun h => ((subsumes_iff _ _).1.1 h).2 hstars, ?_⟩
  exact (subsumes_iff _ _).1.2 ⟨by decide +kernel, fun h => absurd h.length_lt (by decide)⟩

end Scope

end DashboardAccess
