/-
# Letter case

The lower and upper case of a text, letter by letter after the tables, with the
one rule that looks at neighbours: a capital sigma at the end of a word becomes
the final small sigma.

* `isAlphanum_iff` : the ASCII letters and digits by their numbers;
* `not_isUpper_of_mem_lower` : no ASCII capital is left in lower case;
* `lower_eq_self` : small ASCII letters, digits and all other ASCII characters
  that are no capitals stay as they are.
-/
import DashboardAccess.Text.CaseTable

namespace DashboardAccess

namespace Text

/-! ## Single characters -/

/-- The character that a table of ranges leads to; one without a row stays. -/
def mapCase (ranges : List CaseRange) (c : Char) : Char :=
  match ranges.find? (·.covers c.toNat) with
  | some r => Char.ofNat (r.target c.toNat)
  | none => c

/-- The lower case of a character on its own: one character, but for the dotted
capital i. -/
def lowerChar (c : Char) : List Char :=
  if c.toNat < 0x80 then [c.toLower]
  else if c.toNat = 0x130 then ['i', '\u0307']
  else [mapCase lowerRanges c]

/-- The upper case of a character. -/
def upperChar (c : Char) : List Char :=
  if c.toNat < 0x80 then [c.toUpper]
  else match upperSequences.lookup c.toNat with
    | some cs => cs.map Char.ofNat
    | none => [mapCase upperRanges c]

/-! ## Texts -/

/-- Whether the nearest character that counts has a case. -/
def touchesLetter (neighbours : List Char) : Bool :=
  match neighbours.dropWhile fun c => inRanges caseIgnorableRanges c.toNat with
  | [] => false
  | c :: _ => inRanges casedRanges c.toNat

/-- Whether a sigma between two texts ends a word: a letter stands before it and
none after it.  The text before it is given backwards. -/
def endsWord (before rest : List Char) : Bool :=
  touchesLetter before && !touchesLetter rest

/-- The lower case of a text that follows `before`, given backwards. -/
def lowerAfter (before : List Char) : List Char → List Char
  | [] => []
  | c :: rest =>
    (if c = 'Σ' ∧ endsWord before rest = true then ['ς'] else lowerChar c) ++
      lowerAfter (c :: before) rest

/-- The lower case of a text. -/
def lower (s : String) : String :=
  String.ofList (lowerAfter [] s.toList)

/-- The upper case of a text. -/
def upper (s : String) : String :=
  String.ofList (s.toList.flatMap upperChar)

/-! ## ASCII letters and digits -/

/-- The ASCII capitals are the characters from A to Z. -/
theorem isUpper_iff {c : Char} : c.isUpper = true ↔ 0x41 ≤ c.toNat ∧ c.toNat ≤ 0x5A :=
  decide_eq_true_iff

/-- The small ASCII letters are the characters from a to z. -/
theorem isLower_iff {c : Char} : c.isLower = true ↔ 0x61 ≤ c.toNat ∧ c.toNat ≤ 0x7A :=
  Bool.and_eq_true_iff.trans (and_congr decide_eq_true_iff decide_eq_true_iff)

/-- The digits are the characters from 0 to 9. -/
theorem isDigit_iff {c : Char} : c.isDigit = true ↔ 0x30 ≤ c.toNat ∧ c.toNat ≤ 0x39 :=
  Bool.and_eq_true_iff.trans (and_congr decide_eq_true_iff decide_eq_true_iff)

/-- The ASCII letters and digits by their numbers. -/
theorem isAlphanum_iff {c : Char} :
    c.isAlphanum = true ↔ ((0x41 ≤ c.toNat ∧ c.toNat ≤ 0x5A) ∨
      (0x61 ≤ c.toNat ∧ c.toNat ≤ 0x7A)) ∨ (0x30 ≤ c.toNat ∧ c.toNat ≤ 0x39) := by
  have halpha : c.isAlpha = (c.isUpper || c.isLower) := rfl
  rw [Char.isAlphanum, halpha, Bool.or_eq_true, Bool.or_eq_true, isUpper_iff, isLower_iff,
    isDigit_iff]

/-! ## What lower case leaves -/

/-- No row of the table leads to an ASCII capital. -/
theorem lowerRanges_target :
    lowerRanges.all (fun r => decide (0x5A < r.first + r.shift)) = true := by
  decide

/-- A character after the ASCII capitals is none of them. -/
theorem not_isUpper_of_lt {c : Char} (h : 0x5A < c.toNat) : c.isUpper = false := by
  refine Bool.eq_false_iff.2 fun hu => ?_
  have hz := (isUpper_iff.1 hu).2
  omega

/-- A number after the ASCII capitals is the number of none of them. -/
theorem not_isUpper_ofNat {n : Nat} (h : 0x5A < n) : (Char.ofNat n).isUpper = false := by
  by_cases hv : n.isValidChar
  · apply not_isUpper_of_lt
    rw [Char.ofNat, dif_pos hv]
    exact h
  · rw [Char.ofNat, dif_neg hv]
    rfl

/-- Lower case of a character outside ASCII is no ASCII capital. -/
theorem not_isUpper_mapCase {c : Char} (hc : ¬ c.toNat < 0x80) :
    (mapCase lowerRanges c).isUpper = false := by
  unfold mapCase
  split
  · rename_i r hr
    apply not_isUpper_ofNat
    have hmem := List.mem_of_find?_eq_some hr
    have hcov : r.covers c.toNat = true := by simpa using List.find?_some hr
    have htar := List.all_eq_true.1 lowerRanges_target r hmem
    simp only [CaseRange.covers, decide_eq_true_eq] at hcov htar
    simp only [CaseRange.target]
    omega
  · apply not_isUpper_of_lt
    omega

/-- A character that is no ASCII capital has no other small letter. -/
theorem toLower_eq_self {c : Char} (hu : c.isUpper = false) : c.toLower = c :=
  dif_neg (of_decide_eq_false hu)

/-- The small letter of an ASCII capital is 32 characters after it. -/
theorem toNat_toLower {c : Char} (hu : c.isUpper = true) : c.toLower.toNat = c.toNat + 32 := by
  have hz := (isUpper_iff.1 hu).2
  have hval : c.toLower.val = c.val + 32 := congrArg Char.val (dif_pos (of_decide_eq_true hu))
  have hle : c.val.toNat ≤ 90 := hz
  have hstep : UInt32.toNat 32 = 32 := rfl
  show c.toLower.val.toNat = c.val.toNat + 32
  rw [hval, UInt32.toNat_add, hstep]
  exact Nat.mod_eq_of_lt (by omega)

/-- The small letter of an ASCII capital, and any other character, is no ASCII
capital. -/
theorem not_isUpper_toLower (c : Char) : c.toLower.isUpper = false := by
  cases hu : c.isUpper with
  | true =>
    have ha := (isUpper_iff.1 hu).1
    have hn := toNat_toLower hu
    exact not_isUpper_of_lt (by omega)
  | false => rw [toLower_eq_self hu, hu]

/-- No ASCII capital is left in lower case. -/
theorem not_isUpper_of_mem_lowerAfter {c : Char} {before rest : List Char}
    (h : c ∈ lowerAfter before rest) : c.isUpper = false := by
  induction rest generalizing before with
  | nil => cases h
  | cons d rest ih =>
    rw [lowerAfter, List.mem_append] at h
    rcases h with h | h
    · split at h
      · rw [List.mem_singleton.1 h]
        decide
      · unfold lowerChar at h
        split at h
        · rw [List.mem_singleton.1 h]
          exact not_isUpper_toLower d
        · split at h
          · rcases List.mem_cons.1 h with rfl | h
            · decide
            · rw [List.mem_singleton.1 h]
              decide
          · rename_i hd _
            rw [List.mem_singleton.1 h]
            exact not_isUpper_mapCase hd
    · exact ih h

/-- No ASCII capital is left in lower case. -/
theorem not_isUpper_of_mem_lower {c : Char} {s : String} (h : c ∈ (lower s).toList) :
    c.isUpper = false := by
  rw [lower, String.toList_ofList] at h
  exact not_isUpper_of_mem_lowerAfter h

/-- An ASCII character that is no capital is its own lower case. -/
theorem lowerChar_eq_self {c : Char} (hc : c.toNat < 0x80) (hu : c.isUpper = false) :
    lowerChar c = [c] := by
  rw [lowerChar, if_pos hc, toLower_eq_self hu]

/-- ASCII text without capitals is its own lower case. -/
theorem lowerAfter_eq_self {before cs : List Char}
    (h : ∀ c ∈ cs, c.toNat < 0x80 ∧ c.isUpper = false) : lowerAfter before cs = cs := by
  induction cs generalizing before with
  | nil => rfl
  | cons c rest ih =>
    obtain ⟨hc, hu⟩ := h c List.mem_cons_self
    have hs : c ≠ 'Σ' := by
      rintro rfl
      exact absurd hc (by decide)
    rw [lowerAfter, if_neg (fun hh => hs hh.1), lowerChar_eq_self hc hu,
      ih fun d hd => h d (List.mem_cons_of_mem _ hd), List.singleton_append]

/-- ASCII text without capitals is its own lower case. -/
theorem lower_eq_self {s : String} (h : ∀ c ∈ s.toList, c.toNat < 0x80 ∧ c.isUpper = false) :
    lower s = s := by
  rw [lower, lowerAfter_eq_self h, String.ofList_toList]

end Text

end DashboardAccess
