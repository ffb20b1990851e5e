/-
# The text of scopes

The text of a resource's scope tells the kind and the id of the resource.  It reaches other
resources only through a star at the end of the text of the id, which stands for the rest of
an id of the same kind; the number of a resource has no star in its text.

* `toString_inj`, `star_not_mem_toString` : the text of a number;
* `ofResource_prefix_iff` : which scopes start alike;
* `covers_ofResource_iff` : when the scope of one resource covers that of another;
* `covers_ofId_iff` : with a numeric id it covers that of no other;
* `kinds_and_ids_apart` : what the scope of any text of an id covers among numeric ids.
-/
import DashboardAccess.Scope

namespace DashboardAccess

namespace Scope

/-! ## Numbers as text -/

/-- The digits of a natural number tell it. -/
theorem natText_inj {m n : Nat} (h : m.repr = n.repr) : m = n := by
  rw [← Nat.ofDigitChars_ten_toDigits (n := m), ← Nat.toList_repr, h, Nat.toList_repr,
    Nat.ofDigitChars_ten_toDigits]

/-- A character that is no digit does not occur in the text of a natural number. -/
theorem not_mem_natText {c : Char} (hc : c.isDigit = false) (n : Nat) : c ∉ n.repr.toList := by
  intro hmem
  rw [Nat.toList_repr] at hmem
  have hdigit := Nat.isDigit_of_mem_toDigits (by decide) (by decide) hmem
  rw [hc] at hdigit
  cases hdigit

/-- The text of a natural number is not that of a negative one. -/
theorem natText_ne_minus (n : Nat) (s : String) : n.repr ≠ "-" ++ s := by
  intro h
  apply not_mem_natText (c := '-') (by decide) n
  rw [h, String.toList_append]
  exact List.mem_append_left _ (by decide)

/-- Different numbers have different texts. -/
theorem toString_inj {m n : Int} : toString m = toString n ↔ m = n := by
  constructor
  · intro h
    rw [Int.toString_eq_repr, Int.toString_eq_repr, Int.repr_eq_if, Int.repr_eq_if] at h
    by_cases hm : 0 ≤ m
    · by_cases hn : 0 ≤ n
      · rw [if_pos hm, if_pos hn] at h
        have hmn := natText_inj h
        omega
      · rw [if_pos hm, if_neg hn] at h
        exact absurd h (natText_ne_minus _ _)
    · by_cases hn : 0 ≤ n
      · rw [if_neg hm, if_pos hn] at h
        exact absurd h.symm (natText_ne_minus _ _)
      · rw [if_neg hm, if_neg hn, String.append_right_inj] at h
        have hmn := natText_inj h
        omega
  · rintro rfl
    rfl

/-- There is no star in the text of a number. -/
theorem star_not_mem_toString (n : Int) : '*' ∉ (toString n).toList := by
  have hdigits := not_mem_natText (c := '*') (by decide)
  rw [Int.toString_eq_repr, Int.repr_eq_if]
  by_cases hn : 0 ≤ n
  · rw [if_pos hn]
    exact hdigits _
  · rw [if_neg hn, String.toList_append, List.mem_append, not_or]
    exact ⟨by decide, hdigits _⟩

/-! ## Scopes of single resources -/

/-- The scope of a resource tells its kind and the text of its id. -/
theorem ofResource_inj {k k' : Kind} {a b : String} :
    ofResource k a = ofResource k' b ↔ k = k' ∧ a = b := by
  constructor
  · intro h
    rw [ofResource_eq, ofResource_eq, ← String.toList_inj] at h
    rw [← String.toList_inj]
    cases k <;> cases k' <;> simp_all [Kind.plural]
  · rintro ⟨rfl, rfl⟩
    rfl

/-- The scope of a resource starts as another one does if the kinds are the same and the text
of the id starts as the other one does. -/
theorem ofResource_prefix_iff {k k' : Kind} {a b : String} :
    (ofResource k a).toList <+: (ofResource k' b).toList ↔ k = k' ∧ a.toList <+: b.toList := by
  rw [ofResource_eq, ofResource_eq]
  cases k <;> cases k' <;> simp [Kind.plural, List.cons_prefix_cons]

/-- A star at the end of a resource's scope is one at the end of the text of its id. -/
theorem exists_eq_append_star {k : Kind} {id start : String}
    (h : ofResource k id = start ++ "*") : ∃ p, id = p ++ "*" ∧ start = ofResource k p := by
  rw [ofResource_eq, ← String.toList_inj, String.toList_append, String.toList_append,
    String.toList_append] at h
  rcases List.eq_nil_or_concat id.toList with hnil | ⟨p, c, hid⟩
  · -- the scope of an empty id ends in a colon
    rw [hnil, List.append_nil] at h
    have hlast := congrArg List.getLast? h
    cases k <;> simp [Kind.plural] at hlast
  · rw [hid, List.concat_eq_append, ← List.append_assoc] at h
    obtain ⟨hstart, hstar⟩ := List.append_inj' h rfl
    refine ⟨String.ofList p, ?_, ?_⟩
    · rw [← String.toList_inj, hid, String.toList_append, String.toList_ofList,
        List.concat_eq_append, hstar]
    · rw [ofResource_eq, ← String.toList_inj, ← hstart]
      simp

/-- The scope of a resource covers that of another one if the kinds are the same and the ids
are too, or if the text of its id is a start of the other id's and a star. -/
theorem covers_ofResource_iff {k k' : Kind} {a b : String} :
    covers (ofResource k a) (ofResource k' b) = true ↔
      k = k' ∧ (a = b ∨ ∃ p, a = p ++ "*" ∧ p.toList <+: b.toList) := by
  rw [covers_iff]
  constructor
  · rintro (hempty | heq | ⟨start, hstart, hprefix⟩)
    · rw [ofResource_eq, ← String.toList_inj] at hempty
      cases k <;> simp [Kind.plural] at hempty
    · obtain ⟨hk, hid⟩ := ofResource_inj.1 heq
      exact ⟨hk, .inl hid⟩
    · obtain ⟨p, ha, rfl⟩ := exists_eq_append_star hstart
      obtain ⟨hk, hp⟩ := ofResource_prefix_iff.1 hprefix
      exact ⟨hk, .inr ⟨p, ha, hp⟩⟩
  · rintro ⟨rfl, rfl | ⟨p, rfl, hp⟩⟩
    · exact .inr (.inl rfl)
    · refine .inr (.inr ⟨ofResource k p, ?_, ofResource_prefix_iff.2 ⟨rfl, hp⟩⟩)
      rw [ofResource_eq, ofResource_eq, ← String.append_assoc]

/-- The scope of a resource covers the scope of no other resource. -/
theorem covers_ofId_iff {k k' : Kind} {m n : Int} :
    covers (ofId k m) (ofId k' n) = true ↔ k = k' ∧ m = n := by
  rw [ofId, ofId, covers_ofResource_iff, toString_inj]
  refine and_congr_right fun _ => or_iff_left ?_
  rintro ⟨p, hp, -⟩
  apply star_not_mem_toString m
  rw [hp, String.toList_append]
  exact List.mem_append_right _ (by decide)

/-- Scopes of resources keep kinds and ids apart: whatever text stands in the place of the id,
the scope covers that of a numeric id only if the kinds are the same and the text is that of
the number, or a start of it, which may be empty, with one star.  So the scope of a dashboard
or folder covers that of no other one, and never that of the other kind. -/
theorem kinds_and_ids_apart (k k' : Kind) (r : String) (m n : Int) :
    (covers (ofResource k r) (ofId k' n) = true ↔
      k = k' ∧ (r = toString n ∨ ∃ p, r = p ++ "*" ∧ p.toList <+: (toString n).toList)) ∧
    (covers (ofId .dashboard m) (ofId .dashboard n) = true ↔ m = n) ∧
    (covers (ofId .folder m) (ofId .folder n) = true ↔ m = n) ∧
    covers (ofId .dashboard m) (ofId .folder n) = false ∧
    covers (ofId .folder m) (ofId .dashboard n) = false := by
  refine ⟨covers_ofResource_iff, ?_, ?_, ?_, ?_⟩
  · rw [covers_ofId_iff, eq_self, true_and]
  · rw [covers_ofId_iff, eq_self, true_and]
  · rw [← Bool.not_eq_true, covers_ofId_iff]
    simp
  · rw [← Bool.not_eq_true, covers_ofId_iff]
    simp

end Scope

end DashboardAccess
