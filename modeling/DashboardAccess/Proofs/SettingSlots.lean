/-
# Slots of settings

A setting has a slot in the tree of settings, a group and a key in it.  Keys are set one after
the other, and then the members of the tree that comes of that are set on the defaults.  What
was put into a slot last stays there through both passes, whatever was there before.

* `Collected` : trees that are made by setting keys;
* `Slot` : where a setting is in a tree;
* `Slot.value?_mergeKey_object`, `Slot.value?_mergeKey_path` : what fills a slot;
* `Slot.value?_mergeKeys_of_ne` : what leaves a slot alone;
* `AtOnce` : keys that do not lead to a group only in the second pass;
* `Slot.value?_complete` : what is in a slot is there after the second pass.
-/
import DashboardAccess.Proofs.SettingKeys
import Mathlib.Data.List.Nodup

namespace DashboardAccess

namespace Settings

variable {tree : Json}

/-! ## Setting several keys -/

/-- Setting no key changes nothing. -/
theorem mergeKeys_nil (tree : Json) : mergeKeys tree [] = tree :=
  rfl

/-- Keys are set one after the other. -/
theorem mergeKeys_cons (tree : Json) (row : String × Json) (rest : List (String × Json)) :
    mergeKeys tree (row :: rest) = mergeKeys (mergeKey tree row.1 row.2) rest :=
  rfl

/-- Setting keys leaves all members alone but those that the keys lead to. -/
theorem member?_mergeKeys_of_ne {rows : List (String × Json)} {k : String}
    (h : ∀ row ∈ rows, outermost row.1 ≠ k) (tree : Json) :
    (mergeKeys tree rows).member? k = tree.member? k := by
  induction rows generalizing tree with
  | nil => rfl
  | cons row rest ih =>
    obtain ⟨hrow, hrest⟩ := List.forall_mem_cons.1 h
    rw [mergeKeys_cons, ih hrest, member?_mergeKey_of_ne hrow]

/-- Setting keys in two lots. -/
theorem mergeKeys_append (tree : Json) (rows rows' : List (String × Json)) :
    mergeKeys tree (rows ++ rows') = mergeKeys (mergeKeys tree rows) rows' :=
  List.foldl_append

/-- The members of a tree are old ones and those that the set keys lead to. -/
theorem mem_keys_mergeKeys {rows : List (String × Json)} {k : String}
    (h : k ∈ (mergeKeys tree rows).members.map (·.1)) :
    k ∈ tree.members.map (·.1) ∨ ∃ row ∈ rows, outermost row.1 = k := by
  induction rows generalizing tree with
  | nil => exact .inl h
  | cons row rest ih =>
    rw [mergeKeys_cons] at h
    rcases ih h with hk | ⟨other, hother, hk⟩
    · obtain ⟨v, hv, -⟩ := exists_mergeKey_eq tree row.1 row.2
      rw [hv] at hk
      rcases Rows.eq_or_mem_of_mem_map_fst_put hk with rfl | hk
      · exact .inr ⟨row, List.mem_cons_self, (lower_outermost row.1).symm⟩
      · exact .inl hk
    · exact .inr ⟨other, List.mem_cons_of_mem row hother, hk⟩

/-- A tree that has been made by setting keys: it is tidy, and so are its members. -/
structure Collected (tree : Json) : Prop extends Tidy tree where
  inner : ∀ row ∈ tree.members, Tidy row.2

/-- Nothing has been collected in an empty object. -/
theorem Collected.empty : Collected (.object []) :=
  ⟨tidy_of_members_eq_nil rfl, fun _ h => absurd h List.not_mem_nil⟩

/-- The members of a collected tree are tidy. -/
theorem Collected.tidy_member (h : Collected tree) {k : String} {v : Json}
    (hk : tree.member? k = some v) : Tidy v := by
  obtain ⟨before, behind, hmembers, -⟩ := h.toTidy.exists_split hk
  refine h.inner (k, v) ?_
  rw [hmembers]
  exact List.mem_append_right before List.mem_cons_self

/-- Setting a key keeps a tree collected. -/
theorem Collected.mergeKey (h : Collected tree) (key : String) (value : Json) :
    Collected (mergeKey tree key value) := by
  obtain ⟨v, hv, htidy⟩ := exists_mergeKey_eq tree key value
  rw [hv]
  refine ⟨h.toTidy.replace _ v, fun row hrow => ?_⟩
  rcases Rows.eq_or_mem_of_mem_put hrow with rfl | hrow
  · exact htidy fun old hold => h.tidy_member hold
  · exact h.inner row hrow

/-- Setting keys keeps a tree collected. -/
theorem Collected.mergeKeys (h : Collected tree) (rows : List (String × Json)) :
    Collected (mergeKeys tree rows) := by
  induction rows generalizing tree with
  | nil => exact h
  | cons row rest ih => exact ih (h.mergeKey row.1 row.2)

/-! ## Plain members -/

/-- Setting plain keys in two lots. -/
theorem mergeMembers_append (tree : Json) (members members' : List (String × Json)) :
    mergeMembers tree (members ++ members') =
      mergeMembers (mergeMembers tree members) members' := by
  induction members generalizing tree with
  | nil => rw [List.nil_append, mergeMembers]
  | cons m rest ih => rw [List.cons_append, mergeMembers, mergeMembers, ih]

/-- Setting plain keys leaves the members of all other keys alone. -/
theorem member?_mergeMembers_of_ne {members : List (String × Json)} {k : String}
    (h : ∀ m ∈ members, Text.lower m.1 ≠ k) (tree : Json) :
    (mergeMembers tree members).member? k = tree.member? k := by
  induction members generalizing tree with
  | nil => rw [mergeMembers]
  | cons m rest ih =>
    obtain ⟨hm, hrest⟩ := List.forall_mem_cons.1 h
    obtain ⟨v, hv, -⟩ := exists_merge_eq tree m.1 m.2
    rw [mergeMembers, ih hrest, hv, member?_replace, if_neg hm.symm]

/-- A text in a tidy object is still there once the object is merged into a tree. -/
theorem member?_mergeMembers {members : List (String × Json)} (h : Tidy (.object members))
    {k s : String} (hlookup : members.lookup k = some (.string s)) (tree : Json) :
    (mergeMembers tree members).member? k = some (.string s) := by
  obtain ⟨before, behind, hsplit, hnot⟩ := h.exists_split hlookup
  have hkeys : ∀ m ∈ members, Text.lower m.1 = m.1 :=
    fun m hm => h.lower m.1 (List.mem_map_of_mem hm)
  obtain rfl : members = before ++ (k, .string s) :: behind := hsplit
  have hk : Text.lower k = k := hkeys _ (List.mem_append_right _ List.mem_cons_self)
  have hbehind : ∀ m ∈ behind, Text.lower m.1 ≠ k := by
    intro m hm hmk
    rw [hkeys m (List.mem_append_right _ (List.mem_cons_of_mem _ hm))] at hmk
    exact hnot (hmk ▸ List.mem_map_of_mem hm)
  rw [mergeMembers_append, mergeMembers, member?_mergeMembers_of_ne hbehind, merge_string,
    member?_replace, if_pos hk.symm]

/-! ## Slots -/

/-- A text of small ASCII letters, at least one. -/
def IsWord (s : String) : Prop :=
  s ≠ "" ∧ ∀ c ∈ s.toList, c.isLower = true

/-- Words are names. -/
theorem IsWord.isName {s : String} (h : IsWord s) : IsName s := by
  refine ⟨h.1, fun c hc => ?_⟩
  have hsmall := Text.isLower_iff.1 (h.2 c hc)
  have halnum : c.isAlphanum = true := Text.isAlphanum_iff.2 (by omega)
  rw [isNameChar, halnum]
  rfl

/-- Words are in lower case. -/
theorem IsWord.lower {s : String} (h : IsWord s) : Text.lower s = s := by
  refine Text.lower_eq_self fun c hc => ⟨lt_of_isNameChar (h.isName.2 c hc), ?_⟩
  have hsmall := Text.isLower_iff.1 (h.2 c hc)
  exact Text.not_isUpper_of_lt (by omega)

/-- The place of a setting in a tree: a key in a group. -/
structure Slot where
  group : String
  key : String
  group_isWord : IsWord group
  key_isWord : IsWord key

namespace Slot

/-- The place of the root path. -/
def rootPath : Slot where
  group := "web"
  key := "rootpath"
  group_isWord := ⟨by decide, List.all_eq_true.1 (by decide +kernel)⟩
  key_isWord := ⟨by decide, List.all_eq_true.1 (by decide +kernel)⟩

/-- The place of the kind of storage. -/
def storage : Slot where
  group := "backend"
  key := "implementation"
  group_isWord := ⟨by decide, List.all_eq_true.1 (by decide +kernel)⟩
  key_isWord := ⟨by decide, List.all_eq_true.1 (by decide +kernel)⟩

/-- The path of a slot as a key. -/
def path (slot : Slot) : String :=
  slot.group ++ "." ++ slot.key

/-- What is in a slot of a tree. -/
def value? (slot : Slot) (tree : Json) : Option Json :=
  (tree.member? slot.group).bind (Json.member? slot.key)

variable {slot : Slot}

/-- What is in a slot is in an object at the group. -/
theorem exists_members_of_value? {v : Json} (h : slot.value? tree = some v) :
    ∃ members, tree.member? slot.group = some (.object members) ∧
      members.lookup slot.key = some v := by
  obtain ⟨inner, hinner, hv⟩ := Option.bind_eq_some_iff.1 h
  cases inner with
  | object members => exact ⟨members, hinner, hv⟩
  | null => cases hv
  | bool b => cases hv
  | number n => cases hv
  | string s => cases hv
  | array items => cases hv

/-- What is in a slot is the value of the setting. -/
theorem setting?_eq {v : Json} (h : slot.value? tree = some v) :
    setting? tree slot.group slot.key = some v := by
  obtain ⟨members, hmembers, hv⟩ := exists_members_of_value? h
  rw [setting?, hmembers]
  exact hv

/-- The group of a slot leads to itself. -/
theorem outermost_group (slot : Slot) : outermost slot.group = slot.group :=
  slot.group_isWord.isName.outermost.trans slot.group_isWord.lower

/-- Setting the group to a tidy object that has a text fills the slot with that text. -/
theorem value?_mergeKey_object {members : List (String × Json)} (h : Tidy (.object members))
    {s : String} (hlookup : members.lookup slot.key = some (.string s)) (tree : Json) :
    slot.value? (mergeKey tree slot.group (.object members)) = some (.string s) := by
  rw [value?, mergeKey_of_path? (path?_of_name slot.group_isWord.isName), mergePath, merge_object,
    member?_replace, if_pos slot.group_isWord.lower.symm]
  exact member?_mergeMembers h hlookup _

/-- Setting the group to an object with one text fills the slot. -/
theorem value?_mergeKey_single (slot : Slot) (tree : Json) (s : String) :
    slot.value? (mergeKey tree slot.group (.object [(slot.key, .string s)])) =
      some (.string s) := by
  have htidy : Tidy (.object [(slot.key, .string s)]) :=
    ⟨List.nodup_singleton slot.key, List.forall_mem_singleton.2 slot.key_isWord.lower⟩
  exact value?_mergeKey_object htidy List.lookup_cons_self tree

/-- Setting the path of a slot to a text fills the slot with that text. -/
theorem value?_mergeKey_path (slot : Slot) (tree : Json) (s : String) :
    slot.value? (mergeKey tree slot.path (.string s)) = some (.string s) := by
  rw [value?, path, mergeKey_of_path? (path?_dot slot.group_isWord.isName slot.key_isWord.isName)]
  simp only [mergePath]
  rw [member?_replace, if_pos slot.group_isWord.lower.symm, Option.bind_some, merge_string,
    member?_replace, if_pos slot.key_isWord.lower.symm]

/-- A key that leads elsewhere leaves a slot alone. -/
theorem value?_mergeKey_of_ne {key : String} (h : outermost key ≠ slot.group)
    (tree value : Json) : slot.value? (mergeKey tree key value) = slot.value? tree := by
  rw [value?, member?_mergeKey_of_ne h, value?]

/-- Keys that lead elsewhere leave a slot alone. -/
theorem value?_mergeKeys_of_ne {rows : List (String × Json)}
    (h : ∀ row ∈ rows, outermost row.1 ≠ slot.group) (tree : Json) :
    slot.value? (mergeKeys tree rows) = slot.value? tree := by
  rw [value?, member?_mergeKeys_of_ne h, value?]

/-- If the path of a slot is the only key that leads to its group, and only to one text, then
that text fills the slot. -/
theorem value?_mergeKeys_of_path {rows : List (String × Json)} {s : String}
    (hmem : (slot.path, .string s) ∈ rows)
    (h : ∀ row ∈ rows, outermost row.1 = slot.group → row = (slot.path, .string s))
    (tree : Json) : slot.value? (mergeKeys tree rows) = some (.string s) := by
  induction rows generalizing tree with
  | nil => cases hmem
  | cons row rest ih =>
    obtain ⟨hrow, hrest⟩ := List.forall_mem_cons.1 h
    rw [mergeKeys_cons]
    by_cases hlater : (slot.path, .string s) ∈ rest
    · exact ih hlater hrest _
    · -- the last one: nothing behind it leads to the group
      obtain rfl := (List.mem_cons.1 hmem).resolve_right hlater
      rw [value?_mergeKeys_of_ne, value?_mergeKey_path]
      intro other hother hlead
      exact hlater (hrest other hother hlead ▸ hother)

end Slot

/-! ## The second pass -/

/-- A key does not lead to a group only when the member that it leads to is set on the
defaults. -/
def AtOnce (group key : String) : Prop :=
  outermost (outermost key) = group → outermost key = group

/-- Only keys that are no paths can lead to a group in the second pass alone: their lower case is
not the group, but a path into it. -/
theorem atOnce_iff {group key : String} :
    AtOnce group key ↔
      (path? key = none → outermost (Text.lower key) = group → Text.lower key = group) := by
  cases hpath : path? key with
  | none => simp only [AtOnce, outermost_of_none hpath, true_imp_iff]
  | some path =>
    have hpaths : path? key ≠ none := hpath ▸ Option.some_ne_none path
    rw [AtOnce, outermost_outermost (.inl hpaths)]
    exact ⟨fun _ hnone => absurd hnone (Option.some_ne_none path), fun _ hgroup => hgroup⟩

/-- A path leads to a group at once, and so does a key in lower case. -/
theorem atOnce_of {key : String} (h : path? key ≠ none ∨ Text.lower key = key)
    (group : String) : AtOnce group key := by
  refine atOnce_iff.2 fun hnone hgroup => ?_
  have hlower : Text.lower key = key := h.resolve_left fun hne => hne hnone
  rwa [hlower, outermost_of_none hnone] at hgroup

namespace Slot

variable {slot : Slot} {rows : List (String × Json)}

/-- What has been collected in a slot is there once all of it is set on the defaults. -/
theorem value?_complete (hrows : ∀ row ∈ rows, AtOnce slot.group row.1) {s : String}
    (h : slot.value? (mergeKeys (.object []) rows) = some (.string s)) :
    slot.value? (complete (mergeKeys (.object []) rows)) = some (.string s) := by
  have hcollected := Collected.empty.mergeKeys rows
  obtain ⟨members, hgroup, hvalue⟩ := exists_members_of_value? h
  obtain ⟨before, behind, hsplit, hnot⟩ := hcollected.toTidy.exists_split hgroup
  have hbehind : ∀ row ∈ behind, outermost row.1 ≠ slot.group := by
    -- the member is one that a key leads to at once, and there is one member of the group only
    intro row hrow hlate
    have hkey : row.1 ∈ behind.map (·.1) := List.mem_map_of_mem hrow
    have hall : row.1 ∈ (mergeKeys (.object []) rows).members.map (·.1) := by
      rw [hsplit]
      exact List.mem_map_of_mem (List.mem_append_right _ (List.mem_cons_of_mem _ hrow))
    obtain ⟨source, hsource, hlead⟩ := (mem_keys_mergeKeys hall).resolve_left List.not_mem_nil
    rw [← hlead] at hlate
    rw [← hlead, hrows source hsource hlate] at hkey
    exact hnot hkey
  rw [complete, hsplit, mergeKeys_append, mergeKeys_cons, value?_mergeKeys_of_ne hbehind]
  exact value?_mergeKey_object (hcollected.tidy_member hgroup) hvalue _

/-- If nothing leads to a slot, the default stays in it. -/
theorem value?_complete_of_ne (hrows : ∀ row ∈ rows, outermost (outermost row.1) ≠ slot.group) :
    slot.value? (complete (mergeKeys (.object []) rows)) = slot.value? defaults := by
  rw [complete, value?_mergeKeys_of_ne]
  intro row hrow
  obtain ⟨source, hsource, hlead⟩ :=
    (mem_keys_mergeKeys (List.mem_map_of_mem hrow)).resolve_left List.not_mem_nil
  rw [← hlead]
  exact hrows source hsource

end Slot

/-- With a text in either slot the settings are read. -/
theorem ofTree?_eq (app : String) {i r : String}
    (hstorage : Slot.storage.value? tree = some (.string i))
    (hroot : Slot.rootPath.value? tree = some (.string r)) :
    ofTree? app tree = some { app, storage := i, rootPath := r } := by
  have hi : setting? tree "backend" "implementation" = some (.string i) := Slot.setting?_eq hstorage
  have hr : setting? tree "web" "rootpath" = some (.string r) := Slot.setting?_eq hroot
  rw [ofTree?, hi, hr]
  rfl

end Settings

end DashboardAccess
