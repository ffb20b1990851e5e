/-
# Where the keys of sources lead

Setting a key, whether it is a path or not, replaces one member of the tree of settings and
leaves all others alone.  Which one depends on the key only: the first name of a path, or the
whole key, in lower case.

* `exists_member_of_path?` : a path starts with a name that the key starts with;
* `path?_of_name`, `path?_dot` : paths of one and of two names;
* `outermost` : the member that setting a key replaces;
* `outermost_outermost` : once a path is set, its member leads where the path led;
* `exists_mergeKey_eq`, `member?_mergeKey_of_ne` : what setting a key changes.
-/
import DashboardAccess.Proofs.LowerCase
import DashboardAccess.Settings

namespace DashboardAccess

namespace Settings

/-! ## Names -/

/-- A text is a name if it has characters and all of them may stand in the names of paths. -/
def IsName (s : String) : Prop :=
  s ≠ "" ∧ ∀ c ∈ s.toList, isNameChar c = true

/-- The characters of names are ASCII characters. -/
theorem lt_of_isNameChar {c : Char} (h : isNameChar c = true) : c.toNat < 0x80 := by
  simp only [isNameChar, Bool.or_eq_true, decide_eq_true_eq] at h
  rcases h with ((halnum | rfl) | rfl) | rfl
  · have hranges := Text.isAlphanum_iff.1 halnum
    omega
  · decide
  · decide
  · decide

/-- The small letters of characters of names may stand in names too. -/
theorem isNameChar_toLower {c : Char} (h : isNameChar c = true) :
    isNameChar c.toLower = true := by
  cases hu : c.isUpper with
  | true =>
    have hcapital := Text.isUpper_iff.1 hu
    have hnum := Text.toNat_toLower hu
    have halnum : c.toLower.isAlphanum = true := Text.isAlphanum_iff.2 (by omega)
    rw [isNameChar, halnum]
    rfl
  | false => rwa [Text.toLower_eq_self hu]

/-- A name in lower case is a name. -/
theorem IsName.lower {s : String} (h : IsName s) : IsName (Text.lower s) := by
  have hascii : ∀ c ∈ s.toList, c.toNat < 0x80 := fun c hc => lt_of_isNameChar (h.2 c hc)
  have hlower : (Text.lower s).toList = s.toList.map Char.toLower := by
    rw [Text.lower, String.toList_ofList, Text.lowerAfter_of_ascii hascii]
  refine ⟨fun hnil => h.1 ?_, fun c hc => ?_⟩
  · rw [hnil] at hlower
    simpa using hlower.symm
  · rw [hlower] at hc
    obtain ⟨d, hd, rfl⟩ := List.mem_map.1 hc
    exact isNameChar_toLower (h.2 d hd)

/-- There is no point in a name. -/
theorem IsName.point_not_mem {s : String} (h : IsName s) : '.' ∉ s.toList :=
  fun hmem => absurd (h.2 _ hmem) (by decide)

/-! ## Paths -/

/-- What is split off first stands at the start of a text. -/
theorem prefix_of_splitOn_eq_cons {x : Char} {cs w : List Char} {ws : List (List Char)}
    (h : cs.splitOn x = w :: ws) : w <+: cs := by
  have hcs : [x].intercalate (cs.splitOn x) = cs := List.intercalate_splitOn x
  rw [h] at hcs
  rw [← hcs]
  cases ws with
  | nil => simp only [List.intercalate_singleton, List.prefix_rfl]
  | cons v vs =>
    rw [List.intercalate_cons_cons, List.append_assoc]
    exact List.prefix_append w _

/-- A piece of a path is a name, at the start of the piece, with items after it. -/
theorem exists_member_of_piece? {cs : List Char} {steps : List PathStep}
    (h : piece? cs = some steps) :
    ∃ name rest, steps = .member name :: rest ∧ IsName name ∧ name.toList <+: cs := by
  rw [piece?] at h
  cases hsplit : cs.splitOn '[' with
  | nil => exact absurd hsplit (List.splitOn_ne_nil _ _)
  | cons name indices =>
    simp only [hsplit] at h
    split at h
    · cases h
    · rename_i hname
      obtain ⟨items, -, hsteps⟩ := Option.bind_eq_some_iff.1 h
      rw [Bool.or_eq_true, not_or] at hname
      refine ⟨String.ofList name, items.map .item, (Option.some.inj hsteps).symm, ⟨?_, ?_⟩, ?_⟩
      · intro hnil
        exact hname.1 (List.isEmpty_iff.2 (String.ofList_eq_empty_iff.1 hnil))
      · rw [String.toList_ofList]
        simpa using hname.2
      · rw [String.toList_ofList]
        exact prefix_of_splitOn_eq_cons hsplit

/-- A path starts with a name that its key starts with. -/
theorem exists_member_of_path? {key : String} {path : List PathStep} (h : path? key = some path) :
    ∃ name rest, path = .member name :: rest ∧ IsName name ∧ name.toList <+: key.toList := by
  obtain ⟨pieces, hpieces, hpath⟩ := Option.bind_eq_some_iff.1 h
  cases hsplit : key.toList.splitOn '.' with
  | nil => exact absurd hsplit (List.splitOn_ne_nil _ _)
  | cons first others =>
    rw [hsplit, List.mapM_cons] at hpieces
    obtain ⟨steps, hsteps, hpieces⟩ := Option.bind_eq_some_iff.1 hpieces
    obtain ⟨rests, -, hpieces⟩ := Option.bind_eq_some_iff.1 hpieces
    obtain ⟨name, items, rfl, hname, hprefix⟩ := exists_member_of_piece? hsteps
    refine ⟨name, items ++ rests.flatten, ?_, hname,
      hprefix.trans (prefix_of_splitOn_eq_cons hsplit)⟩
    rw [← Option.some.inj hpath, ← Option.some.inj hpieces, List.flatten_cons, List.cons_append]

/-- A name is a piece of a path without items. -/
theorem piece?_of_name {s : String} (h : IsName s) : piece? s.toList = some [.member s] := by
  have hopen : '[' ∉ s.toList := fun hmem => absurd (h.2 _ hmem) (by decide)
  have hname : (s.toList.isEmpty || !s.toList.all isNameChar) = false := by
    rw [List.all_eq_true.2 h.2, Bool.not_true, Bool.or_false, List.isEmpty_eq_false_iff]
    exact fun hnil => h.1 (String.toList_eq_nil_iff.1 hnil)
  rw [piece?, List.splitOn_eq_singleton hopen]
  simp [hname]

/-- A name is a path of one step. -/
theorem path?_of_name {s : String} (h : IsName s) : path? s = some [.member s] := by
  rw [path?, List.splitOn_eq_singleton h.point_not_mem, List.mapM_cons, piece?_of_name h]
  rfl

/-- Two names with a point between them are a path of two steps. -/
theorem path?_dot {s t : String} (hs : IsName s) (ht : IsName t) :
    path? (s ++ "." ++ t) = some [.member s, .member t] := by
  have hsplit : (s ++ "." ++ t).toList.splitOn '.' = [s.toList, t.toList] := by
    have hlist : (s ++ "." ++ t).toList = ['.'].intercalate [s.toList, t.toList] := by simp
    rw [hlist, List.splitOn_intercalate]
    · exact List.forall_mem_cons.2
        ⟨hs.point_not_mem, List.forall_mem_singleton.2 ht.point_not_mem⟩
    · exact List.cons_ne_nil _ _
  rw [path?, hsplit, List.mapM_cons, List.mapM_cons, piece?_of_name hs, piece?_of_name ht]
  rfl

/-! ## The member that a key leads to -/

/-- The member of the tree that is replaced when a key is set: the first name of a path, or
else the whole key, in lower case. -/
def outermost (key : String) : String :=
  match path? key with
  | some (.member name :: _) => Text.lower name
  | _ => Text.lower key

/-- A path leads to its first name. -/
theorem outermost_of_path? {key name : String} {rest : List PathStep}
    (h : path? key = some (.member name :: rest)) : outermost key = Text.lower name := by
  rw [outermost, h]

/-- A key that is no path leads to itself. -/
theorem outermost_of_none {key : String} (h : path? key = none) :
    outermost key = Text.lower key := by
  rw [outermost, h]

/-- Members are in lower case. -/
theorem lower_outermost (key : String) : Text.lower (outermost key) = outermost key := by
  rw [outermost]
  split
  · exact Text.lower_lower _
  · exact Text.lower_lower _

/-- A name leads to itself. -/
theorem IsName.outermost {s : String} (h : IsName s) : outermost s = Text.lower s :=
  outermost_of_path? (path?_of_name h)

/-- What a path leads to, or a key in lower case, leads no further. -/
theorem outermost_outermost {key : String} (h : path? key ≠ none ∨ Text.lower key = key) :
    outermost (outermost key) = outermost key := by
  cases hpath : path? key with
  | some path =>
    obtain ⟨name, rest, rfl, hname, -⟩ := exists_member_of_path? hpath
    rw [outermost_of_path? hpath, hname.lower.outermost, Text.lower_lower]
  | none =>
    have hlower : Text.lower key = key := h.resolve_left fun hne => hne hpath
    rw [outermost_of_none hpath, hlower, outermost_of_none hpath, hlower]

/-- A key in lower case starts with the member that it leads to. -/
theorem outermost_prefix {key : String} (h : Text.lower key = key) :
    (outermost key).toList <+: key.toList := by
  cases hpath : path? key with
  | none => simp only [outermost_of_none hpath, h, List.prefix_rfl]
  | some path =>
    obtain ⟨name, rest, rfl, -, hprefix⟩ := exists_member_of_path? hpath
    have hlower : Text.lower name = name := by
      refine Text.lower_eq_self_of_lowerChar fun c hc => Text.lowerChar_of_mem_lower (s := key) ?_
      rw [h]
      exact hprefix.subset hc
    rw [outermost_of_path? hpath, hlower]
    exact hprefix

/-! ## Trees with their keys in order -/

/-- The members of a tree have different keys, all of them in lower case. -/
structure Tidy (tree : Json) : Prop where
  nodup : (tree.members.map (·.1)).Nodup
  lower : ∀ k ∈ tree.members.map (·.1), Text.lower k = k

/-- A tree without members is tidy. -/
theorem tidy_of_members_eq_nil {tree : Json} (h : tree.members = []) : Tidy tree := by
  refine ⟨?_, fun k hk => ?_⟩
  · rw [h]
    exact List.nodup_nil
  · rw [h] at hk
    cases hk

/-- What is no object is tidy. -/
theorem tidy_of_ne_object {tree : Json} (h : ∀ members, tree ≠ .object members) : Tidy tree := by
  refine tidy_of_members_eq_nil ?_
  rw [Json.members]
  intro members hobject
  exact h members hobject

/-- What stands for a missing tree is tidy if it has no members. -/
theorem tidy_getD {old : Option Json} (h : ∀ tree, old = some tree → Tidy tree) {other : Json}
    (hother : other.members = []) : Tidy (old.getD other) := by
  cases old with
  | none => exact tidy_of_members_eq_nil hother
  | some tree => exact h tree rfl

variable {tree : Json}

/-- A member of a tidy tree is in one row, and in none behind it. -/
theorem Tidy.exists_split (h : Tidy tree) {k : String} {v : Json}
    (hk : tree.member? k = some v) :
    ∃ before behind, tree.members = before ++ (k, v) :: behind ∧ k ∉ behind.map (·.1) := by
  obtain ⟨before, behind, hsplit, -⟩ := List.lookup_eq_some_iff.1 hk
  have hnodup := h.nodup
  rw [hsplit, List.map_append, List.map_cons] at hnodup
  exact ⟨before, behind, hsplit, (List.nodup_cons.1 (List.nodup_append.1 hnodup).2.1).1⟩

/-- Replacing a member keeps a tree tidy. -/
theorem Tidy.replace (h : Tidy tree) (key : String) (value : Json) :
    Tidy (replace tree key value) := by
  refine ⟨Rows.nodup_map_fst_put h.nodup _ _, fun k hk => ?_⟩
  rcases Rows.eq_or_mem_of_mem_map_fst_put hk with rfl | hk
  · exact Text.lower_lower key
  · exact h.lower k hk

/-- Setting a plain key to anything but an object is replacing what is there. -/
theorem merge_of_ne_object {value : Json} (h : ∀ members, value ≠ .object members)
    (tree : Json) (key : String) : merge tree key value = Settings.replace tree key value := by
  rw [Settings.merge]
  intro members hobject
  exact h members hobject

/-- Setting a plain key keeps a tree tidy. -/
theorem Tidy.merge (h : Tidy tree) (key : String) (value : Json) :
    Tidy (merge tree key value) := by
  by_cases hobject : ∃ members, value = .object members
  · obtain ⟨members, rfl⟩ := hobject
    rw [merge_object]
    exact h.replace key _
  · rw [merge_of_ne_object (not_exists.1 hobject)]
    exact h.replace key value

/-- Setting plain keys keeps a tree tidy. -/
theorem Tidy.mergeMembers (h : Tidy tree) (members : List (String × Json)) :
    Tidy (mergeMembers tree members) := by
  induction members generalizing tree with
  | nil => rwa [Settings.mergeMembers]
  | cons m rest ih =>
    rw [Settings.mergeMembers]
    exact ih (h.merge m.1 m.2)

/-- Setting a value at the end of a path keeps a tree tidy. -/
theorem Tidy.mergePath (h : Tidy tree) {path : List PathStep} (hpath : path ≠ [])
    (value : Json) : Tidy (mergePath tree path value) := by
  match path with
  | [] => exact absurd rfl hpath
  | [.member key] =>
    rw [Settings.mergePath]
    exact h.merge key value
  | .member key :: step :: rest =>
    rw [Settings.mergePath]
    · exact h.replace key _
    · simp
  | .item index :: rest =>
    rw [Settings.mergePath]
    exact tidy_of_members_eq_nil rfl

/-! ## What setting a key changes -/

/-- Members are replaced in lower case. -/
theorem replace_lower (tree : Json) (key : String) (value : Json) :
    replace tree (Text.lower key) value = replace tree key value := by
  rw [replace, replace, Text.lower_lower]

/-- Setting a plain key is replacing a member, by a tidy tree if it was a tidy one before. -/
theorem exists_merge_eq (tree : Json) (key : String) (value : Json) :
    ∃ v, merge tree key value = replace tree key v ∧
      ((∀ old, child? tree key = some old → Tidy old) → Tidy v) := by
  by_cases hobject : ∃ members, value = .object members
  · obtain ⟨members, rfl⟩ := hobject
    exact ⟨_, merge_object tree key members, fun h => (tidy_getD h rfl).mergeMembers members⟩
  · rw [not_exists] at hobject
    exact ⟨value, merge_of_ne_object hobject tree key, fun _ => tidy_of_ne_object hobject⟩

/-- Setting a path is setting a value at its end. -/
theorem mergeKey_of_path? {key : String} {path : List PathStep} (h : path? key = some path)
    (tree value : Json) : mergeKey tree key value = mergePath tree path value := by
  rw [mergeKey, h]

/-- Setting a key is replacing the member that the key leads to, by a tidy tree if it was a
tidy one before. -/
theorem exists_mergeKey_eq (tree : Json) (key : String) (value : Json) :
    ∃ v, mergeKey tree key value = replace tree (outermost key) v ∧
      ((∀ old, tree.member? (outermost key) = some old → Tidy old) → Tidy v) := by
  cases hpath : path? key with
  | none =>
    rw [mergeKey, hpath, outermost_of_none hpath, ← child?]
    simp only [replace_lower]
    exact exists_merge_eq tree key value
  | some path =>
    obtain ⟨name, rest, rfl, -⟩ := exists_member_of_path? hpath
    rw [mergeKey_of_path? hpath, outermost_of_path? hpath, ← child?]
    simp only [replace_lower]
    cases rest with
    | nil =>
      rw [mergePath]
      exact exists_merge_eq tree name value
    | cons step rest =>
      refine ⟨mergePath ((child? tree name).getD .null) (step :: rest) value, ?_, fun h => ?_⟩
      · simp [mergePath]
      · exact (tidy_getD h rfl).mergePath (List.cons_ne_nil _ _) value

/-- Setting a key leaves all members alone but the one that the key leads to. -/
theorem member?_mergeKey_of_ne {key k : String} (h : outermost key ≠ k) (tree value : Json) :
    (mergeKey tree key value).member? k = tree.member? k := by
  obtain ⟨v, hv, -⟩ := exists_mergeKey_eq tree key value
  rw [hv, member?_replace, lower_outermost, if_neg h.symm]

end Settings

end DashboardAccess
