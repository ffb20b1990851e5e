/-
# Slugs and path roots

The part of a title that can stand in a path, and a root path without the
slashes at its end.

* `slug` : the runs of letters and digits of the lower-cased title, with single
  hyphens between them;
* `mem_slug` : a slug has small letters, digits and hyphens only;
* `trimSlashes_append` : slashes at the end of a root path do not matter.
-/
import DashboardAccess.Text.LetterCase

namespace DashboardAccess

namespace Text

/-! ## Slugs -/

/-- The runs of ASCII letters and digits of a text. -/
def words (cs : List Char) : List (List Char) :=
  (cs.splitOnP fun c => !c.isAlphanum).filter fun w => !w.isEmpty

/-- The words of the lower-cased title with hyphens between them. -/
def slug (title : String) : String :=
  String.ofList (['-'].intercalate (words (lower title).toList))

/-- The characters of a piece between separators are characters of the text. -/
theorem mem_of_mem_splitOnP {p : Char → Bool} {cs w : List Char} {c : Char}
    (hw : w ∈ cs.splitOnP p) (hc : c ∈ w) : c ∈ cs ∧ p c = false := by
  induction cs generalizing w with
  | nil =>
    rw [List.splitOnP_nil, List.mem_singleton] at hw
    subst hw
    cases hc
  | cons d rest ih =>
    rw [List.splitOnP_cons_eq_if_modifyHead] at hw
    split at hw
    · rcases List.mem_cons.1 hw with rfl | hw
      · cases hc
      · exact ⟨List.mem_cons_of_mem _ (ih hw hc).1, (ih hw hc).2⟩
    · rename_i hd
      cases hs : rest.splitOnP p with
      | nil => exact absurd hs (List.splitOnP_ne_nil p rest)
      | cons v vs =>
        rw [hs, List.modifyHead_cons] at hw
        rcases List.mem_cons.1 hw with rfl | hw
        · rcases List.mem_cons.1 hc with rfl | hc
          · exact ⟨List.mem_cons_self, by simpa using hd⟩
          · have h := ih (w := v) (by rw [hs]; exact List.mem_cons_self) hc
            exact ⟨List.mem_cons_of_mem _ h.1, h.2⟩
        · have h := ih (w := w) (by rw [hs]; exact List.mem_cons_of_mem _ hw) hc
          exact ⟨List.mem_cons_of_mem _ h.1, h.2⟩

/-- A word consists of letters and digits of the text. -/
theorem mem_of_mem_words {cs w : List Char} {c : Char} (hw : w ∈ words cs) (hc : c ∈ w) :
    c ∈ cs ∧ c.isAlphanum = true := by
  have h := mem_of_mem_splitOnP (List.mem_filter.1 hw).1 hc
  exact ⟨h.1, by simpa using h.2⟩

/-- A character of words with hyphens between them is a hyphen or stands in a word. -/
theorem mem_intercalate {ws : List (List Char)} {c : Char} (h : c ∈ ['-'].intercalate ws) :
    c = '-' ∨ ∃ w ∈ ws, c ∈ w := by
  induction ws with
  | nil => cases h
  | cons w rest ih =>
    cases rest with
    | nil => exact .inr ⟨w, List.mem_cons_self, by simpa using h⟩
    | cons v vs =>
      rw [List.intercalate_cons_cons, List.mem_append, List.mem_append, List.mem_singleton] at h
      rcases h with (h | h) | h
      · exact .inr ⟨w, List.mem_cons_self, h⟩
      · exact .inl h
      · exact (ih h).imp_right fun ⟨u, hu, hc⟩ => ⟨u, List.mem_cons_of_mem w hu, hc⟩

/-- A slug has hyphens and letters and digits of the lower-cased title only. -/
theorem mem_slug {title : String} {c : Char} (h : c ∈ (slug title).toList) :
    c = '-' ∨ (c ∈ (lower title).toList ∧ c.isAlphanum = true) := by
  rw [slug, String.toList_ofList] at h
  rcases mem_intercalate h with hc | ⟨w, hw, hc⟩
  · exact .inl hc
  · exact .inr (mem_of_mem_words hw hc)

/-- A slug has no slash. -/
theorem slash_not_mem_slug (title : String) : '/' ∉ (slug title).toList := by
  intro h
  rcases mem_slug h with h | ⟨_, h⟩
  · exact absurd h (by decide)
  · exact absurd h (by decide)

/-! ## Root paths -/

/-- A text without the slashes at its end. -/
def trimSlashes (root : String) : String :=
  String.ofList (root.toList.reverse.dropWhile (· = '/')).reverse

/-- Slashes at the end of a root path do not matter. -/
theorem trimSlashes_append (root : String) (n : Nat) :
    trimSlashes (root ++ String.ofList (List.replicate n '/')) = trimSlashes root := by
  have h : ∀ cs : List Char, (List.replicate n '/' ++ cs).dropWhile (· = '/') =
      cs.dropWhile (· = '/') := by
    intro cs
    induction n with
    | zero => rfl
    | succ n ih =>
      rw [List.replicate_succ, List.cons_append, List.dropWhile_cons_of_pos (by simp), ih]
  rw [trimSlashes, trimSlashes, String.toList_append, String.toList_ofList, List.reverse_append,
    List.reverse_replicate, h]

end Text

end DashboardAccess
