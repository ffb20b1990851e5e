/-
# The form of slugs

A slug is what the lower-cased title keeps of its letters and digits, with one hyphen
wherever something was left out between two of them.  It looks like a slug itself, and the
slug of a slug is the slug.

* `IsSlug` : words of small letters and digits with single hyphens between them;
* `Neighbours` : two characters that are kept, with nothing kept between them;
* `hyphenate_cons_of_not`, `hyphenate_cons` : hyphenation, one character at a time;
* `filter_hyphenate` : what is left without the hyphens;
* `Neighbours.hyphenate` : where the hyphens stand;
* `IsSlug.hyphenate_eq` : a slug is hyphenated already;
* `slug_canonical` : all of this about the slug of a title.
-/
import DashboardAccess.Text.Slug
import Mathlib.Data.List.Basic

namespace DashboardAccess

namespace Text

/-! ## From character to character -/

/-- The words of a text with hyphens between them. -/
def hyphenate (cs : List Char) : List Char :=
  ['-'].intercalate (words cs)

/-- What stands in a slug between a character and the text after it: nothing if the next
character is kept or no other one is, else a hyphen. -/
def hyphenBefore (cs : List Char) : List Char :=
  if cs.head?.any Char.isAlphanum || (words cs).isEmpty then [] else ['-']

/-- A slug is the hyphenated lower case of its title. -/
theorem toList_slug (title : String) : (slug title).toList = hyphenate (lower title).toList := by
  rw [slug, String.toList_ofList, hyphenate]

/-- A character that is neither letter nor digit begins no word. -/
theorem words_cons_of_not {c : Char} (hc : c.isAlphanum = false) (cs : List Char) :
    words (c :: cs) = words cs := by
  rw [words, List.splitOnP_cons_eq_if_modifyHead, if_pos (by simp [hc]), List.filter_cons]
  rfl

/-- A letter or digit goes to the word of the letter or digit after it. -/
theorem exists_words_cons {c d : Char} (hc : c.isAlphanum = true) (hd : d.isAlphanum = true)
    (cs : List Char) :
    ∃ w ws, words (d :: cs) = w :: ws ∧ words (c :: d :: cs) = (c :: w) :: ws := by
  have hsplit : ∀ {e : Char}, e.isAlphanum = true → ∀ es : List Char,
      (e :: es).splitOnP (fun c => !c.isAlphanum) =
        (es.splitOnP fun c => !c.isAlphanum).modifyHead (List.cons e) := by
    intro e he es
    rw [List.splitOnP_cons_eq_if_modifyHead, if_neg (by simp [he])]
  cases hs : cs.splitOnP fun c => !c.isAlphanum with
  | nil => exact absurd hs (List.splitOnP_ne_nil _ cs)
  | cons w ws =>
    refine ⟨d :: w, ws.filter fun v => !v.isEmpty, ?_, ?_⟩
    · rw [words, hsplit hd, hs, List.modifyHead_cons, List.filter_cons_of_pos (by simp)]
    · rw [words, hsplit hc, hsplit hd, hs, List.modifyHead_cons, List.modifyHead_cons,
        List.filter_cons_of_pos (by simp)]

/-- A letter or digit before anything else is a word of its own. -/
theorem words_cons_gap {c d : Char} (hc : c.isAlphanum = true) (hd : d.isAlphanum = false)
    (cs : List Char) : words (c :: d :: cs) = [c] :: words (d :: cs) := by
  have hword : ∀ e ∈ [c], (!e.isAlphanum) = false := by simpa using hc
  have hsplit : (c :: d :: cs).splitOnP (fun e => !e.isAlphanum) =
      [c] :: cs.splitOnP (fun e => !e.isAlphanum) :=
    List.splitOnP_append_cons_of_forall_mem hword d (by simpa using hd) cs
  rw [words_cons_of_not hd, words, words, hsplit, List.filter_cons_of_pos (by simp)]

/-- A character that is neither letter nor digit leaves no trace of its own. -/
theorem hyphenate_cons_of_not {c : Char} (hc : c.isAlphanum = false) (cs : List Char) :
    hyphenate (c :: cs) = hyphenate cs := by
  rw [hyphenate, words_cons_of_not hc, hyphenate]

/-- A letter or digit is kept, with a hyphen after it if something is left out before the
next one. -/
theorem hyphenate_cons {c : Char} (hc : c.isAlphanum = true) (cs : List Char) :
    hyphenate (c :: cs) = c :: (hyphenBefore cs ++ hyphenate cs) := by
  cases cs with
  | nil =>
    have hsingle : words [c] = [[c]] := by
      simp [words, List.splitOnP_cons_eq_if_modifyHead, hc]
    rw [hyphenate, hsingle]
    rfl
  | cons d rest =>
    rw [hyphenate, hyphenBefore, hyphenate, List.head?_cons, Option.any_some]
    cases hd : d.isAlphanum with
    | true =>
      obtain ⟨w, ws, hw, hcw⟩ := exists_words_cons hc hd rest
      rw [hw, hcw, List.intercalate_cons_cons_left]
      rfl
    | false =>
      rw [words_cons_gap hc hd]
      cases words (d :: rest) with
      | nil => rfl
      | cons w ws => simp [List.intercalate_cons_cons]

/-! ## What is kept -/

/-- A letter or digit is no hyphen. -/
theorem ne_hyphen {c : Char} (hc : c.isAlphanum = true) : c ≠ '-' := by
  rintro rfl
  exact absurd hc (by decide)

/-- A hyphen is no character to keep. -/
theorem filter_hyphenBefore (cs : List Char) : (hyphenBefore cs).filter (· ≠ '-') = [] := by
  rw [hyphenBefore]
  split <;> rfl

/-- Without its hyphens a hyphenated text is the letters and digits of the text. -/
theorem filter_hyphenate (cs : List Char) :
    (hyphenate cs).filter (· ≠ '-') = cs.filter Char.isAlphanum := by
  induction cs with
  | nil => rfl
  | cons c rest ih =>
    cases hc : c.isAlphanum with
    | true =>
      rw [hyphenate_cons hc, List.filter_cons_of_pos (by simpa using ne_hyphen hc),
        List.filter_append, filter_hyphenBefore, List.nil_append, ih, List.filter_cons_of_pos hc]
    | false => rw [hyphenate_cons_of_not hc, ih, List.filter_cons_of_neg (by simp [hc])]

/-! ## Where the hyphens stand -/

/-- Two characters that are kept stand in a text, with nothing kept between them. -/
structure Neighbours (keep : Char → Bool) (text before : List Char) (first : Char)
    (between : List Char) (second : Char) (after : List Char) : Prop where
  text_eq : text = before ++ first :: (between ++ second :: after)
  first_kept : keep first = true
  second_kept : keep second = true
  between_dropped : ∀ c ∈ between, keep c = false

/-- What is left out before a text leaves no trace of its own. -/
theorem hyphenate_append_of_not {gap : List Char} (hgap : ∀ c ∈ gap, c.isAlphanum = false)
    (cs : List Char) : hyphenate (gap ++ cs) = hyphenate cs := by
  induction gap with
  | nil => rfl
  | cons c rest ih =>
    rw [List.cons_append, hyphenate_cons_of_not (hgap c List.mem_cons_self),
      ih fun d hd => hgap d (List.mem_cons_of_mem c hd)]

/-- What comes before a text is hyphenated in front of it. -/
theorem exists_hyphenate_append (before cs : List Char) :
    ∃ start, hyphenate (before ++ cs) = start ++ hyphenate cs ∧
      start.filter (· ≠ '-') = before.filter Char.isAlphanum := by
  induction before with
  | nil => exact ⟨[], rfl, rfl⟩
  | cons c rest ih =>
    obtain ⟨start, hstart, hkept⟩ := ih
    cases hc : c.isAlphanum with
    | true =>
      refine ⟨c :: (hyphenBefore (rest ++ cs) ++ start), ?_, ?_⟩
      · rw [List.cons_append, hyphenate_cons hc, hstart, List.cons_append, List.append_assoc]
      · rw [List.filter_cons_of_pos (by simpa using ne_hyphen hc), List.filter_append,
          filter_hyphenBefore, List.nil_append, hkept, List.filter_cons_of_pos hc]
    | false =>
      refine ⟨start, ?_, ?_⟩
      · rw [List.cons_append, hyphenate_cons_of_not hc, hstart]
      · rw [hkept, List.filter_cons_of_neg (by simp [hc])]

/-- Between a letter or digit and the next one stands a hyphen if something is left out
there, and nothing else. -/
theorem hyphenBefore_append {second : Char} (hsecond : second.isAlphanum = true)
    {between : List Char} (hbetween : ∀ c ∈ between, c.isAlphanum = false)
    (after : List Char) :
    hyphenBefore (between ++ second :: after) = if between = [] then [] else ['-'] := by
  cases between with
  | nil => simp [hyphenBefore, hsecond]
  | cons c rest =>
    have hwords : words (c :: rest ++ second :: after) ≠ [] := by
      intro hnil
      have hempty : hyphenate (c :: rest ++ second :: after) = [] := by
        rw [hyphenate, hnil]
        rfl
      rw [hyphenate_append_of_not hbetween, hyphenate_cons hsecond] at hempty
      cases hempty
    rw [hyphenBefore, if_neg (List.cons_ne_nil c rest), if_neg]
    simpa [hbetween c List.mem_cons_self] using hwords

/-- Neighbouring letters and digits of a text are neighbours in the hyphenated text, in the
same place among what is kept, with a hyphen between them if they were apart. -/
theorem Neighbours.hyphenate {text before between after : List Char} {first second : Char}
    (h : Neighbours Char.isAlphanum text before first between second after) :
    ∃ before' after',
      Neighbours (· ≠ '-') (hyphenate text) before' first
        (if between = [] then [] else ['-']) second after' ∧
      before'.filter (· ≠ '-') = before.filter Char.isAlphanum ∧
      after'.filter (· ≠ '-') = after.filter Char.isAlphanum := by
  obtain ⟨start, hstart, hkept⟩ :=
    exists_hyphenate_append before (first :: (between ++ second :: after))
  refine ⟨start, hyphenBefore after ++ Text.hyphenate after,
    ⟨?_, decide_eq_true (ne_hyphen h.first_kept), decide_eq_true (ne_hyphen h.second_kept), ?_⟩,
    hkept, ?_⟩
  · rw [h.text_eq, hstart, hyphenate_cons h.first_kept,
      hyphenBefore_append h.second_kept h.between_dropped,
      hyphenate_append_of_not h.between_dropped, hyphenate_cons h.second_kept]
  · split <;> simp
  · rw [List.filter_append, filter_hyphenBefore, List.nil_append, filter_hyphenate]

/-! ## The look of a slug -/

/-- The characters of the words of a slug: small letters and digits. -/
def isSlugChar (c : Char) : Bool :=
  c.isLower || c.isDigit

/-- A text of words of small letters and digits, perhaps of none, with single hyphens between
the words. -/
def IsSlug (text : List Char) : Prop :=
  ∃ ws : List (List Char), text = ['-'].intercalate ws ∧
    ∀ w ∈ ws, w ≠ [] ∧ ∀ c ∈ w, isSlugChar c = true

/-- The characters of the words of a slug are the ASCII letters and digits but for the
capitals. -/
theorem isSlugChar_iff {c : Char} :
    isSlugChar c = true ↔ c.isAlphanum = true ∧ c.isUpper = false := by
  rw [isSlugChar, ← Bool.not_eq_true, Bool.or_eq_true, isUpper_iff, isLower_iff, isDigit_iff,
    isAlphanum_iff]
  omega

/-- The letters and digits that are kept are ASCII characters. -/
theorem lt_of_isAlphanum {c : Char} (hc : c.isAlphanum = true) : c.toNat < 0x80 := by
  have hranges := isAlphanum_iff.1 hc
  omega

/-- Words with hyphens between them are the words of that text. -/
theorem words_intercalate {ws : List (List Char)}
    (hws : ∀ w ∈ ws, w ≠ [] ∧ ∀ c ∈ w, c.isAlphanum = true) :
    words (['-'].intercalate ws) = ws := by
  induction ws with
  | nil => rfl
  | cons w rest ih =>
    obtain ⟨hne, hchars⟩ := hws w List.mem_cons_self
    have hword : ∀ c ∈ w, (!c.isAlphanum) = false := fun c hc => by simp [hchars c hc]
    cases rest with
    | nil =>
      rw [List.intercalate_singleton, words, List.splitOnP_eq_singleton hword,
        List.filter_cons_of_pos (by simpa using hne)]
      rfl
    | cons v vs =>
      have hrest := ih fun u hu => hws u (List.mem_cons_of_mem w hu)
      rw [List.intercalate_cons_cons, List.append_assoc, List.singleton_append, words,
        List.splitOnP_append_cons_of_forall_mem hword '-' (by decide),
        List.filter_cons_of_pos (by simpa using hne), ← words, hrest]

namespace IsSlug

variable {text : List Char}

/-- A slug has small letters, digits and hyphens only. -/
theorem mem (h : IsSlug text) {c : Char} (hc : c ∈ text) : c = '-' ∨ isSlugChar c = true := by
  obtain ⟨ws, rfl, hws⟩ := h
  exact (mem_intercalate hc).imp_right fun ⟨w, hw, hcw⟩ => (hws w hw).2 c hcw

/-- A slug does not start with a hyphen. -/
theorem head?_ne (h : IsSlug text) : text.head? ≠ some '-' := by
  obtain ⟨ws, rfl, hws⟩ := h
  cases ws with
  | nil => simp
  | cons w rest =>
    obtain ⟨hne, hchars⟩ := hws w List.mem_cons_self
    cases w with
    | nil => exact absurd rfl hne
    | cons c cs =>
      rw [List.intercalate_cons_cons_left, List.head?_cons]
      intro heq
      cases heq
      exact absurd (hchars '-' List.mem_cons_self) (by decide)

/-- A slug does not end with a hyphen. -/
theorem getLast?_ne (h : IsSlug text) : text.getLast? ≠ some '-' := by
  obtain ⟨ws, rfl, hws⟩ := h
  induction ws with
  | nil => simp
  | cons w rest ih =>
    cases rest with
    | nil =>
      rw [List.intercalate_singleton]
      intro hlast
      exact absurd ((hws w List.mem_cons_self).2 '-' (List.mem_of_getLast? hlast)) (by decide)
    | cons v vs =>
      have hv := (hws v (List.mem_cons_of_mem w List.mem_cons_self)).1
      have hrest := ih fun u hu => hws u (List.mem_cons_of_mem w hu)
      cases v with
      | nil => exact absurd rfl hv
      | cons d ds =>
        rw [List.intercalate_cons_cons_left] at hrest
        rw [List.intercalate_cons_cons, List.intercalate_cons_cons_left, List.getLast?_append_cons]
        exact hrest

/-- A slug is hyphenated already. -/
theorem hyphenate_eq (h : IsSlug text) : hyphenate text = text := by
  obtain ⟨ws, rfl, hws⟩ := h
  rw [hyphenate, words_intercalate fun w hw =>
    ⟨(hws w hw).1, fun c hc => (isSlugChar_iff.1 ((hws w hw).2 c hc)).1⟩]

/-- A slug is its own lower case. -/
theorem lower_eq {s : String} (h : IsSlug s.toList) : lower s = s := by
  refine lower_eq_self fun c hc => ?_
  rcases h.mem hc with rfl | hslug
  · decide
  · obtain ⟨hkept, hsmall⟩ := isSlugChar_iff.1 hslug
    exact ⟨lt_of_isAlphanum hkept, hsmall⟩

end IsSlug

/-- The slug of a title is one. -/
theorem isSlug_slug (title : String) : IsSlug (slug title).toList := by
  refine ⟨words (lower title).toList, toList_slug title, fun w hw => ⟨?_, fun c hc => ?_⟩⟩
  · simpa using (List.mem_filter.1 hw).2
  · obtain ⟨hmem, hkept⟩ := mem_of_mem_words hw hc
    exact isSlugChar_iff.2 ⟨hkept, not_isUpper_of_mem_lower hmem⟩

/-! ## Slugs of titles -/

/-- The slug of any title is words of small letters and digits with single hyphens between
them, and none at its ends; without the hyphens it is the letters and digits of the
lower-cased title, in their order; letters and digits next to one another are so in the slug
as well, and there is one hyphen between them in the slug if they were apart in the title;
and the slug of the slug is the slug. -/
theorem slug_canonical (title : String) :
    (IsSlug (slug title).toList ∧
      (slug title).toList.head? ≠ some '-' ∧ (slug title).toList.getLast? ≠ some '-') ∧
    (slug title).toList.filter (· ≠ '-') = (lower title).toList.filter Char.isAlphanum ∧
    (∀ before first between second after,
      Neighbours Char.isAlphanum (lower title).toList before first between second after →
      ∃ before' after',
        Neighbours (· ≠ '-') (slug title).toList before' first
          (if between = [] then [] else ['-']) second after' ∧
        before'.filter (· ≠ '-') = before.filter Char.isAlphanum ∧
        after'.filter (· ≠ '-') = after.filter Char.isAlphanum) ∧
    slug (slug title) = slug title := by
  have hslug := isSlug_slug title
  refine ⟨⟨hslug, hslug.head?_ne, hslug.getLast?_ne⟩, ?_,
    fun before first between second after h => ?_, ?_⟩
  · rw [toList_slug, filter_hyphenate]
  · rw [toList_slug]
    exact h.hyphenate
  · rw [← String.toList_inj, toList_slug (slug title), hslug.lower_eq, hslug.hyphenate_eq]

/-- The lower case of the dotted capital i is an i with a dot on top of it, which is left
out, and that of the sign for kelvins is a k. -/
theorem slug_canonical_dotted :
    slug "\u0130 \u212A9!" = "i-k9" ∧
      ∃ before' after',
        Neighbours (· ≠ '-') (slug "\u0130 \u212A9!").toList before' 'i' ['-'] 'k' after' ∧
        before'.filter (· ≠ '-') = [] ∧ after'.filter (· ≠ '-') = ['9'] := by
  have hlower : (lower "\u0130 \u212A9!").toList = ['i', '\u0307', ' ', 'k', '9', '!'] := by
    decide +kernel
  have happart : Neighbours Char.isAlphanum (lower "\u0130 \u212A9!").toList [] 'i'
      ['\u0307', ' '] 'k' ['9', '!'] :=
    ⟨hlower, rfl, rfl, List.forall_mem_cons.2 ⟨rfl, List.forall_mem_singleton.2 rfl⟩⟩
  obtain ⟨before', after', hneighbours, hbefore, hafter⟩ :=
    (slug_canonical "\u0130 \u212A9!").2.2.1 _ _ _ _ _ happart
  exact ⟨by decide +kernel, before', after', hneighbours, hbefore, hafter⟩

end Text

end DashboardAccess
