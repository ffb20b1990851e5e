/-
# Requirements can be read off their text

Between the words of a requirement's text there are blanks, commas and brackets.  If none
of them is in a word itself, the text can be read in one way only: the first word goes on to
the first mark, and the mark tells what kind of requirement it is.  Actions may have the
names that open a list, since only there is a bracket behind them, and scopes may be empty,
since `on` and a blank announce them.  A line of the journal about a decision can be read in
one way, too, whatever login it shows: in the text of a requirement, a blank behind a
quotation mark comes before `on` and a scope, and no requirement has such a text.

* `IsWord`, `word_append_inj` : the end of a word is seen;
* `Plain` : requirements with plain words;
* `renderParts_append_inj`, `Plain.readable` : texts with something behind them;
* `Plain.quotes`, `Plain.not_onWord_render` : what is behind a quotation mark and a blank;
* `Record.decided_text`, `Plain.quoted_inj` : lines about decisions;
* `text_eq_iff_of_plain` : equal texts are texts of equal requirements, also in such lines.
-/
import DashboardAccess.Journal

namespace DashboardAccess

namespace Requirement

/-! ## Words -/

/-- What the text of a requirement puts between words. -/
def marks : List Char :=
  [' ', ',', '(', ')']

/-- There is no mark among the characters. -/
def IsWord (w : List Char) : Prop :=
  ∀ c ∈ w, c ∉ marks

instance (w : List Char) : Decidable (IsWord w) :=
  List.decidableBAll (fun c => c ∉ marks) w

/-- What is behind a word: nothing, or a text that begins with a mark. -/
def Breaks (rest : List Char) : Prop :=
  ∀ c ∈ rest.head?, c ∈ marks

theorem breaks_cons {c : Char} (hc : c ∈ marks) (rest : List Char) : Breaks (c :: rest) := by
  rintro d ⟨⟩
  exact hc

/-- A text is a word and what is behind it in one way only. -/
theorem word_append_inj {w w' u v : List Char} (hw : IsWord w) (hw' : IsWord w')
    (hu : Breaks u) (hv : Breaks v) (h : w ++ u = w' ++ v) : w = w' ∧ u = v := by
  induction w generalizing w' with
  | nil =>
    cases w' with
    | nil => exact ⟨rfl, h⟩
    | cons d w' =>
      obtain rfl : u = d :: (w' ++ v) := h
      exact absurd (hu d rfl) (hw' d List.mem_cons_self)
  | cons c w ih =>
    cases w' with
    | nil =>
      obtain rfl : c :: (w ++ u) = v := h
      exact absurd (hv c rfl) (hw c List.mem_cons_self)
    | cons d w' =>
      obtain ⟨rfl, hrest⟩ := List.cons.inj h
      obtain ⟨rfl, rfl⟩ := ih (fun c hc => hw c (List.mem_cons_of_mem _ hc))
        (fun c hc => hw' c (List.mem_cons_of_mem _ hc)) hrest
      exact ⟨rfl, rfl⟩

/-! ## Plain requirements -/

/-- No action is empty, and there are no marks in actions and scopes. -/
inductive Plain : Requirement → Prop where
  | leaf {action : String} {scope : Option Scope} (hne : action ≠ "")
      (haction : IsWord action.toList) (hscope : ∀ s ∈ scope, IsWord s.toList) :
      Plain (.leaf action scope)
  | all {parts : List Requirement} (hparts : ∀ r ∈ parts, Plain r) : Plain (.all parts)
  | any {parts : List Requirement} (hparts : ∀ r ∈ parts, Plain r) : Plain (.any parts)

/-- The word that the text of a requirement begins with. -/
def firstWord : Requirement → List Char
  | .leaf action _ => action.toList
  | .all _ => "all".toList
  | .any _ => "any".toList

/-- What is behind the first word. -/
def tail : Requirement → List Char
  | .leaf _ none => []
  | .leaf _ (some scope) => " on ".toList ++ scope.toList
  | .all parts => '(' :: renderParts parts
  | .any parts => '(' :: renderParts parts

/-- The text of a requirement is its first word and what is behind it. -/
theorem render_eq (r : Requirement) : r.render = r.firstWord ++ r.tail := by
  cases r with
  | leaf action scope =>
    cases scope with
    | none => simp [render, firstWord, tail]
    | some s => simp [render, firstWord, tail]
  | all parts => simp [render, firstWord, tail]
  | any parts => simp [render, firstWord, tail]

/-- The first word is a word. -/
theorem Plain.isWord {r : Requirement} (h : r.Plain) : IsWord r.firstWord := by
  cases h with
  | leaf _ haction _ => exact haction
  | all _ => exact (by decide : IsWord "all".toList)
  | any _ => exact (by decide : IsWord "any".toList)

/-- The first word is not empty. -/
theorem Plain.firstWord_ne_nil {r : Requirement} (h : r.Plain) : r.firstWord ≠ [] := by
  cases h with
  | leaf hne _ _ => simpa [firstWord] using hne
  | all _ => simp [firstWord]
  | any _ => simp [firstWord]

/-- The text of a requirement does not begin with a mark. -/
theorem Plain.cons_ne_render_append {r : Requirement} (h : r.Plain) {c : Char} (hc : c ∈ marks)
    (u v : List Char) : c :: u ≠ r.render ++ v := by
  intro heq
  rw [render_eq] at heq
  cases hw : r.firstWord with
  | nil => exact h.firstWord_ne_nil hw
  | cons d w =>
    rw [hw] at heq
    obtain ⟨rfl, -⟩ := List.cons.inj heq
    exact h.isWord c (by simp [hw]) hc

/-! ## Texts with something behind them -/

/-- What is behind a whole requirement: nothing, or a text that begins with a comma or a
closing bracket. -/
def Stops (rest : List Char) : Prop :=
  ∀ c ∈ rest.head?, c = ',' ∨ c = ')'

theorem stops_nil : Stops [] := by
  rintro c ⟨⟩

theorem Stops.breaks {rest : List Char} (h : Stops rest) : Breaks rest := by
  intro c hc
  rcases h c hc with rfl | rfl <;> decide

/-- What is behind the first word begins with a mark. -/
theorem breaks_tail_append (r : Requirement) {u : List Char} (hu : Stops u) :
    Breaks (r.tail ++ u) := by
  cases r with
  | leaf action scope =>
    cases scope with
    | none => exact hu.breaks
    | some s => exact breaks_cons (by decide) _
  | all parts => exact breaks_cons (by decide) _
  | any parts => exact breaks_cons (by decide) _

/-- The first words of equal texts are equal, and so is what is behind them. -/
theorem Plain.firstWord_tail_eq {r s : Requirement} (hr : r.Plain) (hs : s.Plain)
    {u v : List Char} (hu : Stops u) (hv : Stops v) (h : r.render ++ u = s.render ++ v) :
    r.firstWord = s.firstWord ∧ r.tail ++ u = s.tail ++ v := by
  rw [render_eq, render_eq, List.append_assoc, List.append_assoc] at h
  exact word_append_inj hr.isWord hs.isWord (breaks_tail_append r hu) (breaks_tail_append s hv) h

/-- What is behind the first of several requirements: the others, each after a comma, and
the closing bracket. -/
def behind : List Requirement → List Char
  | [] => [')']
  | r :: rest => ", ".toList ++ renderParts (r :: rest)

/-- The texts of several requirements are that of the first one and what is behind it. -/
theorem renderParts_cons (r : Requirement) (rest : List Requirement) :
    renderParts (r :: rest) = r.render ++ behind rest := by
  cases rest with
  | nil => simp [renderParts, behind]
  | cons s rest => simp [renderParts, behind]

theorem stops_behind_append (rest : List Requirement) (u : List Char) :
    Stops (behind rest ++ u) := by
  cases rest with
  | nil =>
    rintro c ⟨⟩
    exact .inr rfl
  | cons s rest =>
    rintro c ⟨⟩
    exact .inl rfl

/-- Whatever follows, the requirement and what follows can be read off. -/
def Readable (r : Requirement) : Prop :=
  ∀ s, s.Plain → ∀ u v, Stops u → Stops v → r.render ++ u = s.render ++ v → r = s ∧ u = v

section
variable {u v : List Char}

/-- The requirements behind another one can be read off if each of them can: a comma or the
closing bracket tells whether there is one more. -/
theorem behind_append_inj {rest others : List Requirement} (hread : ∀ r ∈ rest, r.Readable)
    (hothers : ∀ s ∈ others, s.Plain) (h : behind rest ++ u = behind others ++ v) :
    rest = others ∧ u = v := by
  induction rest generalizing others with
  | nil =>
    cases others with
    | nil => exact ⟨rfl, (List.cons.inj h).2⟩
    | cons s others => exact absurd (List.cons.inj h).1 (by decide)
  | cons r rest ih =>
    cases others with
    | nil => exact absurd (List.cons.inj h).1 (by decide)
    | cons s others =>
      have hmore : renderParts (r :: rest) ++ u = renderParts (s :: others) ++ v :=
        (List.cons.inj (List.cons.inj h).2).2
      rw [renderParts_cons, renderParts_cons, List.append_assoc, List.append_assoc] at hmore
      obtain ⟨rfl, hrest⟩ := hread r List.mem_cons_self s (hothers s List.mem_cons_self) _ _
        (stops_behind_append rest u) (stops_behind_append others v) hmore
      obtain ⟨rfl, rfl⟩ := ih (fun r hr => hread r (List.mem_cons_of_mem _ hr))
        (fun s hs => hothers s (List.mem_cons_of_mem _ hs)) hrest
      exact ⟨rfl, rfl⟩

/-- Several requirements in brackets and what follows the closing one can be read off if
each of them can. -/
theorem renderParts_append_inj {parts others : List Requirement}
    (hparts : ∀ r ∈ parts, r.Plain) (hothers : ∀ s ∈ others, s.Plain)
    (hread : ∀ r ∈ parts, r.Readable)
    (h : renderParts parts ++ u = renderParts others ++ v) : parts = others ∧ u = v := by
  cases parts with
  | nil =>
    cases others with
    | nil => exact ⟨rfl, (List.cons.inj h).2⟩
    | cons s others =>
      rw [renderParts_cons, List.append_assoc] at h
      exact absurd h ((hothers s List.mem_cons_self).cons_ne_render_append (by decide) _ _)
  | cons r parts =>
    cases others with
    | nil =>
      rw [renderParts_cons, List.append_assoc] at h
      exact absurd h.symm ((hparts r List.mem_cons_self).cons_ne_render_append (by decide) _ _)
    | cons s others =>
      -- one more comma in front makes both lists what is behind another requirement
      exact behind_append_inj hread hothers (congrArg (", ".toList ++ ·) h)

/-- Behind an action and its scope there is no opening bracket. -/
theorem tail_leaf_append_ne (action : String) (scope : Option Scope) (hu : Stops u)
    (x : List Char) : (leaf action scope).tail ++ u ≠ '(' :: x := by
  intro h
  cases scope with
  | none =>
    obtain rfl : u = '(' :: x := h
    exact absurd (hu '(' rfl) (by decide)
  | some s => exact absurd (List.cons.inj h).1 (by decide)

/-- Behind an action, a blank tells whether there is a scope. -/
theorem tail_leaf_append_inj {action action' : String} {scope scope' : Option Scope}
    (hscope : ∀ s ∈ scope, IsWord s.toList) (hscope' : ∀ s ∈ scope', IsWord s.toList)
    (hu : Stops u) (hv : Stops v)
    (h : (leaf action scope).tail ++ u = (leaf action' scope').tail ++ v) :
    scope = scope' ∧ u = v := by
  cases scope with
  | none =>
    cases scope' with
    | none => exact ⟨rfl, h⟩
    | some s' =>
      obtain rfl : u = ' ' :: _ := h
      exact absurd (hu ' ' rfl) (by decide)
  | some s =>
    cases scope' with
    | none =>
      obtain rfl : ' ' :: _ = v := h
      exact absurd (hv ' ' rfl) (by decide)
    | some s' =>
      have hwords : s.toList ++ u = s'.toList ++ v := by
        simpa only [tail, List.append_assoc, List.append_cancel_left_eq] using h
      obtain ⟨hs, rfl⟩ :=
        word_append_inj (hscope s rfl) (hscope' s' rfl) hu.breaks hv.breaks hwords
      exact ⟨congrArg some (String.toList_inj.1 hs), rfl⟩

/-- A plain requirement can be read off, whatever follows. -/
theorem Plain.readable {r : Requirement} (hr : r.Plain) : r.Readable := by
  induction r with
  | leaf action scope =>
    intro s hs u v hu hv h
    obtain ⟨hword, htail⟩ := hr.firstWord_tail_eq hs hu hv h
    cases hr with
    | leaf _ _ hscope =>
      cases hs with
      | leaf _ _ hscope' =>
        obtain rfl := String.toList_inj.1 hword
        obtain ⟨rfl, rfl⟩ := tail_leaf_append_inj hscope hscope' hu hv htail
        exact ⟨rfl, rfl⟩
      | all _ => exact absurd htail (tail_leaf_append_ne action scope hu _)
      | any _ => exact absurd htail (tail_leaf_append_ne action scope hu _)
  | all parts ih =>
    intro s hs u v hu hv h
    obtain ⟨hword, htail⟩ := hr.firstWord_tail_eq hs hu hv h
    cases hr with
    | all hparts =>
      cases hs with
      | leaf _ _ _ => exact absurd htail.symm (tail_leaf_append_ne _ _ hv _)
      | all hothers =>
        obtain ⟨rfl, rfl⟩ := renderParts_append_inj hparts hothers
          (fun r hr => ih r hr (hparts r hr)) (List.cons.inj htail).2
        exact ⟨rfl, rfl⟩
      | any _ => exact absurd hword (by simp [firstWord])
  | any parts ih =>
    intro s hs u v hu hv h
    obtain ⟨hword, htail⟩ := hr.firstWord_tail_eq hs hu hv h
    cases hr with
    | any hparts =>
      cases hs with
      | leaf _ _ _ => exact absurd htail.symm (tail_leaf_append_ne _ _ hv _)
      | all _ => exact absurd hword (by simp [firstWord])
      | any hothers =>
        obtain ⟨rfl, rfl⟩ := renderParts_append_inj hparts hothers
          (fun r hr => ih r hr (hparts r hr)) (List.cons.inj htail).2
        exact ⟨rfl, rfl⟩

end

/-! ## Behind a quotation mark and a blank -/

/-- A text of `on`, a word and something that is behind a whole requirement. -/
def OnWord (t : List Char) : Prop :=
  ∃ w stop, t = "on ".toList ++ w ++ stop ∧ IsWord w ∧ Stops stop

theorem isWord_on : IsWord "on".toList := by
  decide

/-- No requirement has such a text: behind an action named `on` there is one more `on`. -/
theorem Plain.not_onWord_render {r : Requirement} (hr : r.Plain) : ¬ OnWord r.render := by
  rintro ⟨w, stop, heq, hw, hstop⟩
  have hfirst : r.firstWord ++ r.tail = "on".toList ++ (' ' :: (w ++ stop)) := by
    rw [← render_eq, heq]
    simp
  have hbreaks : Breaks r.tail := List.append_nil r.tail ▸ breaks_tail_append r stops_nil
  obtain ⟨-, htail⟩ :=
    word_append_inj hr.isWord isWord_on hbreaks (breaks_cons (by decide) _) hfirst
  cases hr with
  | @leaf _ scope _ _ _ =>
    cases scope with
    | none => cases htail
    | some s =>
      have hwords : "on".toList ++ (' ' :: s.toList) = w ++ stop := by
        simpa [tail] using htail
      obtain ⟨-, rfl⟩ :=
        word_append_inj isWord_on hw (breaks_cons (by decide) _) hstop.breaks hwords
      exact absurd (hstop ' ' rfl) (by decide)
  | all _ => exact absurd (List.cons.inj htail).1 (by decide)
  | any _ => exact absurd (List.cons.inj htail).1 (by decide)

section
variable {t u : List Char}

/-- A quotation mark is behind what has no quotation mark in it. -/
theorem suffix_of_suffix_append {x : List Char} (hx : '\'' ∉ x)
    (h : '\'' :: t <:+ x ++ u) : '\'' :: t <:+ u := by
  induction x with
  | nil => exact h
  | cons c x ih =>
    rw [List.mem_cons, not_or] at hx
    rcases List.suffix_cons_iff.1 h with heq | hlater
    · exact absurd (List.cons.inj heq).1 hx.1
    · exact ih hx.2 hlater

/-- A quotation mark and a blank in a text that begins with a word are behind the word, or
the quotation mark ends it. -/
theorem suffix_of_suffix_word {w : List Char} (hw : IsWord w)
    (h : '\'' :: ' ' :: t <:+ w ++ u) : u = ' ' :: t ∨ '\'' :: ' ' :: t <:+ u := by
  induction w with
  | nil => exact .inr h
  | cons c w ih =>
    have hrest : IsWord w := fun d hd => hw d (List.mem_cons_of_mem _ hd)
    rcases List.suffix_cons_iff.1 h with heq | hlater
    · obtain ⟨-, hblank⟩ := List.cons.inj heq
      cases w with
      | nil => exact .inl hblank.symm
      | cons d w =>
        obtain ⟨rfl, -⟩ := List.cons.inj hblank
        exact absurd (hrest ' ' List.mem_cons_self) (by decide)
    · exact ih hrest hlater

/-- Wherever a quotation mark and a blank are in the text of a requirement, `on` and a scope
come next. -/
def Quotes (r : Requirement) : Prop :=
  ∀ t u, Stops u → '\'' :: ' ' :: t <:+ r.render ++ u → OnWord t ∨ '\'' :: ' ' :: t <:+ u

/-- The same among the requirements behind another one. -/
theorem onWord_of_suffix_behind {rest : List Requirement} (hquotes : ∀ r ∈ rest, r.Quotes)
    (h : '\'' :: ' ' :: t <:+ behind rest ++ u) : OnWord t ∨ '\'' :: ' ' :: t <:+ u := by
  induction rest with
  | nil => exact .inr (suffix_of_suffix_append (x := [')']) (by decide) h)
  | cons r rest ih =>
    have hmore : '\'' :: ' ' :: t <:+ r.render ++ (behind rest ++ u) := by
      rw [behind, renderParts_cons, List.append_assoc, List.append_assoc] at h
      exact suffix_of_suffix_append (by decide) h
    rcases hquotes r List.mem_cons_self t _ (stops_behind_append rest u) hmore with hon | hlater
    · exact .inl hon
    · exact ih (fun r hr => hquotes r (List.mem_cons_of_mem _ hr)) hlater

/-- The same among requirements in brackets. -/
theorem onWord_of_suffix_parts {parts : List Requirement} (hquotes : ∀ r ∈ parts, r.Quotes)
    (h : '\'' :: ' ' :: t <:+ renderParts parts ++ u) : OnWord t ∨ '\'' :: ' ' :: t <:+ u := by
  cases parts with
  | nil => exact .inr (suffix_of_suffix_append (x := [')']) (by decide) h)
  | cons r parts =>
    have hbehind : '\'' :: ' ' :: t <:+ behind (r :: parts) ++ u :=
      h.trans (List.suffix_append ", ".toList _)
    exact onWord_of_suffix_behind hquotes hbehind

/-- In the text of a plain requirement a blank behind a quotation mark comes before a
scope. -/
theorem Plain.quotes {r : Requirement} (hr : r.Plain) : r.Quotes := by
  induction r with
  | leaf action scope =>
    intro t u hu h
    have hblank : ∀ t, u ≠ ' ' :: t := by
      rintro t rfl
      exact absurd (hu ' ' rfl) (by decide)
    rw [render_eq, List.append_assoc] at h
    cases hr with
    | leaf _ haction hscope =>
      cases scope with
      | none => exact .inr ((suffix_of_suffix_word haction h).resolve_left (hblank t))
      | some s =>
        rcases suffix_of_suffix_word haction h with heq | hlater
        · exact .inl ⟨s.toList, u, (List.cons.inj heq).2.symm, hscope s rfl, hu⟩
        · have hlater : '\'' :: ' ' :: t <:+ s.toList ++ u := by
            rw [tail, List.append_assoc] at hlater
            exact suffix_of_suffix_append (by decide) hlater
          exact .inr ((suffix_of_suffix_word (hscope s rfl) hlater).resolve_left (hblank t))
  | all parts ih =>
    intro t u _ h
    cases hr with
    | all hparts =>
      rw [render, List.append_assoc] at h
      exact onWord_of_suffix_parts (fun r hr => ih r hr (hparts r hr))
        (suffix_of_suffix_append (by decide) h)
  | any parts ih =>
    intro t u _ h
    cases hr with
    | any hparts =>
      rw [render, List.append_assoc] at h
      exact onWord_of_suffix_parts (fun r hr => ih r hr (hparts r hr))
        (suffix_of_suffix_append (by decide) h)

/-- The text of a requirement does not end in a quotation mark, a blank and the text of a
requirement. -/
theorem Plain.render_ne_append_quote {r s : Requirement} (hr : r.Plain) (hs : s.Plain)
    (x : List Char) : r.render ≠ x ++ '\'' :: ' ' :: s.render := by
  intro heq
  have hsuffix : '\'' :: ' ' :: s.render <:+ r.render ++ [] := by
    rw [List.append_nil, heq]
    exact List.suffix_append x _
  rcases hr.quotes s.render [] stops_nil hsuffix with hon | hnil
  · exact hs.not_onWord_render hon
  · exact absurd (List.suffix_nil.1 hnil) (List.cons_ne_nil _ _)

end

end Requirement

/-! ## Lines about decisions -/

namespace Record

/-- A line about a decision up to the quotation mark behind the member. -/
def opening (verdict : Bool) (m : Member) : String :=
  "TRACE" ++ " " ++ (if verdict then "Granted '" else "Denied '") ++ m.text

/-- A line about a decision ends in a quotation mark, a blank, the requirement and a full
stop. -/
theorem decided_text (verdict : Bool) (m : Member) (r : Requirement) :
    (decided verdict m r).text = opening verdict m ++ "' " ++ r.text ++ "." := by
  show "TRACE" ++ " " ++
    ((if verdict then "Granted '" else "Denied '") ++ m.text ++ "' " ++ r.text ++ ".") = _
  simp only [opening, String.append_assoc]

/-- The same, character by character. -/
theorem toList_decided_text (verdict : Bool) (m : Member) (r : Requirement) :
    (decided verdict m r).text.toList =
      (opening verdict m).toList ++ '\'' :: ' ' :: r.render ++ ['.'] := by
  have hquote : "' ".toList = ['\'', ' '] := by decide
  have hstop : ".".toList = ['.'] := by decide
  rw [decided_text, String.toList_append, String.toList_append, String.toList_append, hquote,
    hstop, Requirement.text, String.toList_ofList, List.append_assoc (opening verdict m).toList]
  rfl

/-- The opening of a line tells the decision and the member. -/
theorem opening_inj {verdict verdict' : Bool} {m n : Member} :
    opening verdict m = opening verdict' n ↔ verdict = verdict' ∧ m.text = n.text := by
  rw [← String.toList_inj, ← String.toList_inj]
  cases verdict <;> cases verdict' <;> simp [opening]

end Record

namespace Requirement

section
variable {r s : Requirement}

/-- Of two texts with a quotation mark, a blank and a requirement at their ends, neither
has the other one's requirement further behind. -/
theorem Plain.eq_nil_of_quoted (hr : r.Plain) (hs : s.Plain) {x : List Char}
    (h : '\'' :: ' ' :: r.render = x ++ '\'' :: ' ' :: s.render) : x = [] := by
  cases x with
  | nil => rfl
  | cons c x =>
    cases x with
    | nil => exact absurd (List.cons.inj (List.cons.inj h).2).1 (by decide)
    | cons d x =>
      exact absurd (List.cons.inj (List.cons.inj h).2).2 (hr.render_ne_append_quote hs x)

/-- What is before the quotation mark is seen, and so is the text of the requirement. -/
theorem Plain.quoted_inj (hr : r.Plain) (hs : s.Plain) {x y : List Char}
    (h : x ++ '\'' :: ' ' :: r.render = y ++ '\'' :: ' ' :: s.render) :
    x = y ∧ r.render = s.render := by
  rcases List.append_eq_append_iff.1 h with ⟨z, rfl, hz⟩ | ⟨z, rfl, hz⟩
  · obtain rfl := hr.eq_nil_of_quoted hs hz
    exact ⟨(List.append_nil x).symm, (List.cons.inj (List.cons.inj hz).2).2⟩
  · obtain rfl := hs.eq_nil_of_quoted hr hz
    exact ⟨List.append_nil y, (List.cons.inj (List.cons.inj hz).2).2.symm⟩

/-- Plain requirements with equal texts are equal. -/
theorem Plain.eq_of_render_eq (hr : r.Plain) (hs : s.Plain) (h : r.render = s.render) : r = s :=
  (hr.readable s hs [] [] stops_nil stops_nil (congrArg (· ++ []) h)).1

/-- Two requirements of any nesting, whose actions are not empty and whose actions and scopes
have no blanks, commas or brackets in them, have equal texts only if they are equal.  So a
line of the journal about a decision tells which requirement was decided, and also how and
for which member, whatever the login of the member is. -/
theorem text_eq_iff_of_plain (hr : r.Plain) (hs : s.Plain) :
    (r.text = s.text ↔ r = s) ∧
    ∀ (verdict verdict' : Bool) (m n : Member),
      (Record.decided verdict m r).text = (Record.decided verdict' n s).text ↔
        verdict = verdict' ∧ m.text = n.text ∧ r = s := by
  constructor
  · constructor
    · intro h
      exact hr.eq_of_render_eq hs (String.ofList_injective h)
    · rintro rfl
      rfl
  · intro verdict verdict' m n
    constructor
    · intro h
      rw [← String.toList_inj, Record.toList_decided_text, Record.toList_decided_text,
        List.append_cancel_right_eq] at h
      obtain ⟨hopening, hrender⟩ := hr.quoted_inj hs h
      obtain ⟨hverdict, hmember⟩ := Record.opening_inj.1 (String.toList_inj.1 hopening)
      exact ⟨hverdict, hmember, hr.eq_of_render_eq hs hrender⟩
    · rintro ⟨rfl, hmember, rfl⟩
      rw [Record.decided_text, Record.decided_text, Record.opening_inj.2 ⟨rfl, hmember⟩]

/-- An action named `any` is told from any of no requirements, and a login that takes over
most of a requirement does not make two lines alike. -/
theorem text_eq_iff_of_plain_alike :
    let empty : Requirement := .all [.on "all" "", .any []]
    let named : Requirement := .all [.on "all" "", .anywhere "any"]
    let quoted : Requirement := .on "read'" ""
    let short : Requirement := .anywhere "on"
    let ann : Member := { org := 1, user := 10, login := "ann", role := .viewer }
    let other : Member := { ann with login := "ann' read" }
    (empty.Plain ∧ named.Plain ∧ empty.text ≠ named.text) ∧
      quoted.Plain ∧ short.Plain ∧
      (Record.decided true ann quoted).text ≠ (Record.decided true other short).text := by
  intro empty named quoted short ann other
  have hall : (Requirement.on "all" "").Plain :=
    .leaf (by decide) (by decide) (by decide)
  have hany : (Requirement.anywhere "any").Plain :=
    .leaf (by decide) (by decide) (by decide)
  have hempty : empty.Plain := .all (by simp [hall, Plain.any])
  have hnamed : named.Plain :=
    .all (by simpa [hall] using hany)
  have hquoted : quoted.Plain := .leaf (by decide) (by decide) (by decide)
  have hshort : short.Plain := .leaf (by decide) (by decide) (by decide)
  refine ⟨⟨hempty, hnamed, fun h => ?_⟩, hquoted, hshort, fun h => ?_⟩
  · have heq := (text_eq_iff_of_plain hempty hnamed).1.1 h
    simp [empty, named, anywhere] at heq
  · have heq := (((text_eq_iff_of_plain hquoted hshort).2 true true ann other).1 h).2.2
    simp [quoted, short, on, anywhere] at heq

end

end Requirement

end DashboardAccess
