/-
# Lower case of lower case

What is in lower case stays as it is when it is lower-cased again: no row of the table leads
to a character that another row leads on from.  The lower case of a text in two parts with an
underscore between them is that of its parts, since a sigma never looks past an underscore.

* `CaseRange.avoids` : one range does not lead into another one;
* `lowerChar_of_mem_lower` : characters of a lower-cased text;
* `lower_lower` : lower case is there after one time;
* `lowerAfter_of_ascii` : lower case in ASCII goes letter by letter;
* `lower_append_underscore` : lower case on both sides of an underscore.
-/
import DashboardAccess.Text.LetterCase

namespace DashboardAccess

namespace Text

/-! ## The table does not lead on -/

/-- None of the code points that a range leads to is one of another range: they are before it,
behind it, or the ones that it leaves out. -/
def CaseRange.avoids (r r' : CaseRange) : Bool :=
  Nat.blt (r.target r.last) r'.first || Nat.blt r'.last (r.target r.first) ||
    ((r.step == 2 || r.first == r.last) && r'.step == 2 &&
      r.target r.first % 2 != r'.first % 2)

/-- The code point that a covered one leads to is not covered by a range that is avoided. -/
theorem CaseRange.covers_target {r r' : CaseRange} (h : r.avoids r' = true)
    (hpos : 0 < r.first + r.shift) {n : Nat} (hn : r.covers n = true) :
    r'.covers (r.target n) = false := by
  simp only [avoids, target, Nat.blt_eq, Bool.or_eq_true, Bool.and_eq_true, beq_iff_eq,
    bne_iff_ne] at h
  obtain ⟨hfirst, hlast, hstep⟩ := of_decide_eq_true hn
  refine decide_eq_false ?_
  rw [target]
  rintro ⟨hfirst', hlast', hstep'⟩
  rcases h with (hbefore | hbehind) | ⟨⟨hsame, htwo⟩, hodd⟩
  · omega
  · omega
  · -- all that the range leads to lies between the code points of the other one
    rw [htwo] at hstep'
    rcases hsame with htwo' | hsingle
    · rw [htwo'] at hstep
      omega
    · omega

/-- No row of the table leads to another one, nor to the dotted capital i. -/
theorem lowerRanges_avoid :
    lowerRanges.all (fun r => lowerRanges.all r.avoids && r.avoids ⟨0x130, 0x130, 1, 0⟩) =
      true := by
  decide +kernel

/-- Every row of the table leads to numbers of characters. -/
theorem lowerRanges_valid :
    lowerRanges.all (fun r => decide (r.target r.last < 0xD800 ∨
      (0xDFFF < r.target r.first ∧ r.target r.last < 0x110000))) = true := by
  decide +kernel

/-- A character that a row of the table leads to has the number that the row gives. -/
theorem toNat_target {r : CaseRange} (hr : r ∈ lowerRanges) {n : Nat} (hn : r.covers n = true) :
    (Char.ofNat (r.target n)).toNat = r.target n := by
  have hvalid := of_decide_eq_true (List.all_eq_true.1 lowerRanges_valid r hr)
  obtain ⟨hfirst, hlast, -⟩ := of_decide_eq_true hn
  simp only [CaseRange.target] at hvalid ⊢
  have hchar : (n + r.shift).toNat.isValidChar := by
    rw [Nat.isValidChar]
    omega
  rw [Char.ofNat, dif_pos hchar]
  rfl

/-- The small letter that the table leads to is its own lower case. -/
theorem lowerChar_mapCase {c : Char} (hc : ¬ c.toNat < 0x80) (hi : c.toNat ≠ 0x130) :
    lowerChar (mapCase lowerRanges c) = [mapCase lowerRanges c] := by
  cases hfind : lowerRanges.find? (·.covers c.toNat) with
  | none =>
    have hself : mapCase lowerRanges c = c := by
      rw [mapCase, hfind]
    rw [hself, lowerChar, if_neg hc, if_neg hi, hself]
  | some r =>
    have hr := List.mem_of_find?_eq_some hfind
    have hcov : r.covers c.toNat = true := by simpa using List.find?_some hfind
    have hpos : 0 < r.first + r.shift :=
      Int.lt_trans (by decide : (0 : Int) < 0x5A)
        (of_decide_eq_true (List.all_eq_true.1 lowerRanges_target r hr))
    have havoid := List.all_eq_true.1 lowerRanges_avoid r hr
    rw [Bool.and_eq_true] at havoid
    have hmap : mapCase lowerRanges c = Char.ofNat (r.target c.toNat) := by
      rw [mapCase, hfind]
    have hupper := not_isUpper_mapCase hc
    rw [hmap] at hupper ⊢
    have hnum := toNat_target hr hcov
    rw [lowerChar]
    split
    · rw [toLower_eq_self hupper]
    · have hdotted := CaseRange.covers_target havoid.2 hpos hcov
      rw [if_neg, mapCase, List.find?_eq_none.2]
      · intro r' hr'
        rw [hnum, CaseRange.covers_target (List.all_eq_true.1 havoid.1 r' hr') hpos hcov]
        exact Bool.false_ne_true
      · intro heq
        rw [hnum] at heq
        rw [heq] at hdotted
        exact absurd hdotted (by decide)

/-! ## Texts in lower case -/

/-- The small letter of an ASCII character is one. -/
theorem toLower_lt {c : Char} (hc : c.toNat < 0x80) : c.toLower.toNat < 0x80 := by
  cases hu : c.isUpper with
  | true =>
    have hcapital := (isUpper_iff.1 hu).2
    rw [toNat_toLower hu]
    omega
  | false => rwa [toLower_eq_self hu]

/-- A character of a lower-cased text is its own lower case. -/
theorem lowerChar_of_mem_lowerAfter {c : Char} {before cs : List Char}
    (h : c ∈ lowerAfter before cs) : lowerChar c = [c] := by
  induction cs generalizing before with
  | nil => cases h
  | cons d rest ih =>
    rw [lowerAfter, List.mem_append] at h
    rcases h with h | h
    · split at h
      · rw [List.mem_singleton.1 h]
        decide +kernel
      · unfold lowerChar at h
        split at h
        · rename_i hd
          rw [List.mem_singleton.1 h]
          exact lowerChar_eq_self (toLower_lt hd) (not_isUpper_toLower d)
        · split at h
          · rcases List.mem_cons.1 h with rfl | h
            · decide +kernel
            · rw [List.mem_singleton.1 h]
              decide +kernel
          · rename_i hd hi
            rw [List.mem_singleton.1 h]
            exact lowerChar_mapCase hd hi
    · exact ih h

/-- A character of a lower-cased text is its own lower case. -/
theorem lowerChar_of_mem_lower {c : Char} {s : String} (h : c ∈ (lower s).toList) :
    lowerChar c = [c] := by
  rw [lower, String.toList_ofList] at h
  exact lowerChar_of_mem_lowerAfter h

/-- A text of characters that are their own lower case is its own lower case. -/
theorem lower_eq_self_of_lowerChar {s : String} (h : ∀ c ∈ s.toList, lowerChar c = [c]) :
    lower s = s := by
  have hlist : ∀ before cs : List Char, (∀ c ∈ cs, lowerChar c = [c]) →
      lowerAfter before cs = cs := by
    intro before cs hcs
    induction cs generalizing before with
    | nil => rfl
    | cons c rest ih =>
      have hc := hcs c List.mem_cons_self
      have hsigma : c ≠ 'Σ' := by
        rintro rfl
        exact absurd hc (by decide +kernel)
      rw [lowerAfter, if_neg fun hs => hsigma hs.1, hc, List.singleton_append,
        ih _ fun d hd => hcs d (List.mem_cons_of_mem c hd)]
  rw [lower, hlist [] s.toList h, String.ofList_toList]

/-- The lower case of a text is its own lower case. -/
theorem lower_lower (s : String) : lower (lower s) = lower s :=
  lower_eq_self_of_lowerChar fun _ hc => lowerChar_of_mem_lower hc

/-! ## ASCII and underscores -/

/-- In ASCII lower case goes letter by letter. -/
theorem lowerAfter_of_ascii {cs : List Char} (h : ∀ c ∈ cs, c.toNat < 0x80)
    (before : List Char) : lowerAfter before cs = cs.map Char.toLower := by
  induction cs generalizing before with
  | nil => rfl
  | cons c rest ih =>
    have hc := h c List.mem_cons_self
    have hsigma : c ≠ 'Σ' := by
      rintro rfl
      exact absurd hc (by decide)
    rw [lowerAfter, if_neg fun hs => hsigma hs.1, lowerChar, if_pos hc, List.singleton_append,
      ih fun d hd => h d (List.mem_cons_of_mem c hd), List.map_cons]

/-- The first character that is not to be ignored decides whether a letter is touched. -/
theorem touchesLetter_cons (c : Char) (cs : List Char) :
    touchesLetter (c :: cs) =
      if inRanges caseIgnorableRanges c.toNat then touchesLetter cs
      else inRanges casedRanges c.toNat := by
  rw [touchesLetter, List.dropWhile_cons]
  cases inRanges caseIgnorableRanges c.toNat with
  | true => rfl
  | false => rfl

/-- Nothing behind an underscore touches a letter before it. -/
theorem touchesLetter_append_underscore (cs rest : List Char) :
    touchesLetter (cs ++ '_' :: rest) = touchesLetter (cs ++ ['_']) := by
  induction cs with
  | nil =>
    have hscore : inRanges caseIgnorableRanges '_'.toNat = false := by decide +kernel
    rw [List.nil_append, List.nil_append, touchesLetter_cons, touchesLetter_cons, hscore]
    rfl
  | cons c cs ih =>
    rw [List.cons_append, List.cons_append, touchesLetter_cons, touchesLetter_cons, ih]

/-- What stands before an underscore is lower-cased without what stands behind it. -/
theorem lowerAfter_append_underscore (before cs rest : List Char) :
    lowerAfter before (cs ++ '_' :: rest) =
      lowerAfter before (cs ++ ['_']) ++ lowerAfter ('_' :: (cs.reverse ++ before)) rest := by
  induction cs generalizing before with
  | nil =>
    have hscore : ∀ after, lowerAfter before ('_' :: after) =
        '_' :: lowerAfter ('_' :: before) after := by
      intro after
      rw [lowerAfter, if_neg fun h => absurd h.1 (by decide), lowerChar_eq_self (by decide) rfl,
        List.singleton_append]
    rw [List.nil_append, List.nil_append, hscore, hscore]
    rfl
  | cons c cs ih =>
    rw [List.cons_append, List.cons_append, lowerAfter, lowerAfter, endsWord, endsWord,
      touchesLetter_append_underscore, ih, List.append_assoc, List.reverse_cons, List.append_assoc,
      List.singleton_append]

/-- An ASCII text behind an underscore is lower-cased by itself. -/
theorem lower_append_underscore (s : String) {t : String} (ht : ∀ c ∈ t.toList, c.toNat < 0x80) :
    lower (s ++ "_" ++ t) = lower (s ++ "_") ++ lower t := by
  have hlist : (s ++ "_" ++ t).toList = s.toList ++ '_' :: t.toList := by simp
  rw [lower, lower, lower, hlist, lowerAfter_append_underscore, lowerAfter_of_ascii ht,
    lowerAfter_of_ascii ht, String.toList_append, String.ofList_append]
  rfl

end Text

end DashboardAccess
