/-
# Variables of settings

The variables of an environment are set like the keys of a source.  The key of a variable is
what its name has behind the name of the application, in lower case and with points for
underscores.

* `mergeEnvironment_eq` : variables as rows of a source;
* `variableKey?_eq_some_iff` : the key of a variable;
* `prefix_of_variableKey?` : the names of the variables of a group;
* `OneVariable`, `Slot.value?_of_oneVariable` : a variable that is alone in its group.
-/
import DashboardAccess.Proofs.SettingSlots

namespace DashboardAccess

namespace Settings

/-! ## Variables -/

/-- The keys that the variables of an application set, with their values. -/
def variableRows (app : String) (environment : List (String × String)) : List (String × Json) :=
  environment.filterMap fun e => (variableKey? app e.1).map fun key => (key, .string e.2)

/-- A variable with a key gives a row. -/
theorem mem_variableRows {app key : String} {environment : List (String × String)}
    {e : String × String} (he : e ∈ environment) (h : variableKey? app e.1 = some key) :
    (key, .string e.2) ∈ variableRows app environment :=
  List.mem_filterMap.2 ⟨e, he, by rw [h, Option.map_some]⟩

/-- Every row is given by a variable with a key. -/
theorem exists_of_mem_variableRows {app : String} {environment : List (String × String)}
    {row : String × Json} (h : row ∈ variableRows app environment) :
    ∃ e ∈ environment, ∃ key, variableKey? app e.1 = some key ∧ row = (key, .string e.2) := by
  obtain ⟨e, he, hrow⟩ := List.mem_filterMap.1 h
  obtain ⟨key, hkey, hrow⟩ := Option.map_eq_some_iff.1 hrow
  exact ⟨e, he, key, hkey, hrow.symm⟩

/-- Variables are merged by setting their keys. -/
theorem mergeEnvironment_eq (app : String) (tree : Json) (environment : List (String × String)) :
    mergeEnvironment app tree environment = mergeKeys tree (variableRows app environment) := by
  induction environment generalizing tree with
  | nil => rfl
  | cons e rest ih =>
    rw [mergeEnvironment, List.foldl_cons, ← mergeEnvironment, variableRows, List.filterMap_cons]
    cases hkey : variableKey? app e.1 with
    | none => exact ih tree
    | some key => exact ih _

/-! ## Names of variables -/

section

variable {app name key : String}

/-- A character of the key of a variable. -/
def point (c : Char) : Char :=
  if c = '_' then '.' else c

/-- The key of a variable is what stands in its name behind the application, with points. -/
theorem variableKey?_eq_some_iff :
    variableKey? app name = some key ↔
      ∃ t, Text.lower name = variableStart app ++ t ∧ key = String.ofList (t.toList.map point) := by
  rw [variableKey?]
  constructor
  · intro h
    split at h
    · rename_i hprefix
      obtain ⟨rest, hrest⟩ := List.isPrefixOf_iff_prefix.1 hprefix
      refine ⟨String.ofList rest, ?_, ?_⟩
      · rw [← String.toList_inj, String.toList_append, String.toList_ofList, hrest]
      · rw [← Option.some.inj h, ← hrest, List.drop_left, String.toList_ofList]
        rfl
    · cases h
  · rintro ⟨t, ht, rfl⟩
    rw [ht, String.toList_append, if_pos (List.isPrefixOf_iff_prefix.2 (List.prefix_append _ _)),
      List.drop_left]
    rfl

/-- The keys of variables are in lower case. -/
theorem lower_of_variableKey? (h : variableKey? app name = some key) :
    Text.lower key = key := by
  obtain ⟨t, ht, rfl⟩ := variableKey?_eq_some_iff.1 h
  refine Text.lower_eq_self_of_lowerChar fun c hc => ?_
  rw [String.toList_ofList] at hc
  obtain ⟨d, hd, rfl⟩ := List.mem_map.1 hc
  rw [point]
  split
  · exact Text.lowerChar_eq_self (by decide) rfl
  · refine Text.lowerChar_of_mem_lower (s := name) ?_
    rw [ht, String.toList_append]
    exact List.mem_append_right _ hd

/-- What has no point with points for underscores had no underscore at that place. -/
theorem prefix_of_prefix_map_point {w cs : List Char} (hw : '.' ∉ w) (h : w <+: cs.map point) :
    w <+: cs := by
  induction w generalizing cs with
  | nil => exact List.nil_prefix
  | cons c rest ih =>
    cases cs with
    | nil => exact absurd h.length_le (by simp)
    | cons d cs =>
      obtain ⟨hc, hrest⟩ := List.cons_prefix_cons.1 h
      have hd : d = c := by
        rw [point] at hc
        split at hc
        · exact absurd (hc ▸ List.mem_cons_self) hw
        · exact hc.symm
      rw [hd]
      exact List.cons_prefix_cons.2 ⟨rfl, ih (fun hr => hw (List.mem_cons_of_mem c hr)) hrest⟩

/-- A variable whose key leads to a group has the name of the group behind that of the
application. -/
theorem prefix_of_variableKey? {slot : Slot} (h : variableKey? app name = some key)
    (hlead : outermost key = slot.group) :
    (variableStart app ++ slot.group).toList <+: (Text.lower name).toList := by
  have hprefix := outermost_prefix (lower_of_variableKey? h)
  obtain ⟨t, ht, rfl⟩ := variableKey?_eq_some_iff.1 h
  rw [hlead, String.toList_ofList] at hprefix
  have hgroup := prefix_of_prefix_map_point slot.group_isWord.isName.point_not_mem hprefix
  rw [ht, String.toList_append, String.toList_append]
  exact (List.prefix_append_right_inj _).2 hgroup

/-- No character of a word changes in a key. -/
theorem IsWord.map_point {s : String} (h : IsWord s) : s.toList.map point = s.toList := by
  refine (List.map_congr_left fun c hc => ?_).trans (List.map_id _)
  rw [point, if_neg]
  · rfl
  · rintro rfl
    exact absurd (h.2 _ hc) (by decide)

/-- The key of a variable with two words behind the name of the application is the path of
the words. -/
theorem variableKey?_eq {slot : Slot}
    (h : Text.lower name = variableStart app ++ (slot.group ++ "_" ++ slot.key)) :
    variableKey? app name = some slot.path := by
  refine variableKey?_eq_some_iff.2 ⟨_, h, ?_⟩
  rw [String.toList_append, String.toList_append, List.map_append, List.map_append,
    slot.group_isWord.map_point, slot.key_isWord.map_point, String.ofList_append,
    String.ofList_append, String.ofList_toList, String.ofList_toList]
  rfl

end

/-- The lower case of the name of a variable, behind that of the application. -/
theorem lower_variable (app : String) {t w : String}
    (ht : t.toList.all (fun c => decide (c.toNat < 0x80)) = true) (hw : Text.lower t = w) :
    Text.lower (Text.upper app ++ ("_" ++ t)) = variableStart app ++ w := by
  rw [← String.append_assoc, Text.lower_append_underscore, variableStart, hw]
  exact fun c hc => of_decide_eq_true (List.all_eq_true.1 ht c hc)

/-- Of all variables with names that start with `start`, in any letter case, there is one, and
it is called `name`, in any letter case, and has the value `s`. -/
def OneVariable (environment : List (String × String)) (start name s : String) : Prop :=
  ∃ e ∈ environment, Text.lower e.1 = Text.lower name ∧ e.2 = s ∧
    ∀ e' ∈ environment, (Text.lower start).toList <+: (Text.lower e'.1).toList → e' = e

/-- A single variable fills its slot. -/
theorem Slot.value?_of_oneVariable {slot : Slot} {app start name s : String}
    {environment : List (String × String)} (h : OneVariable environment start name s)
    (hstart : Text.lower start = variableStart app ++ slot.group)
    (hname : Text.lower name = variableStart app ++ (slot.group ++ "_" ++ slot.key))
    (tree : Json) :
    slot.value? (mergeKeys tree (variableRows app environment)) = some (.string s) := by
  obtain ⟨e, he, hlower, rfl, hone⟩ := h
  have hkey : variableKey? app e.1 = some slot.path := variableKey?_eq (hlower.trans hname)
  refine value?_mergeKeys_of_path (mem_variableRows he hkey) (fun row hr hlead => ?_) tree
  obtain ⟨other, hother, key, hok, rfl⟩ := exists_of_mem_variableRows hr
  have hprefix := prefix_of_variableKey? hok hlead
  rw [← hstart] at hprefix
  rw [hone other hother hprefix, hkey] at hok
  rw [hone other hother hprefix, Option.some.inj hok]

/-- Without a variable of its group nothing leads to a slot. -/
theorem Slot.outermost_ne_of_no_variable {slot : Slot} {app start : String}
    {environment : List (String × String)}
    (h : ∀ e ∈ environment, ¬ (Text.lower start).toList <+: (Text.lower e.1).toList)
    (hstart : Text.lower start = variableStart app ++ slot.group) :
    ∀ row ∈ variableRows app environment, outermost (outermost row.1) ≠ slot.group := by
  intro row hrow hlead
  obtain ⟨e, he, key, hkey, rfl⟩ := exists_of_mem_variableRows hrow
  rw [outermost_outermost (.inr (lower_of_variableKey? hkey))] at hlead
  have hprefix := prefix_of_variableKey? hkey hlead
  rw [← hstart] at hprefix
  exact h e he hprefix

/-- The names of the variables of the root path, in lower case. -/
theorem lower_rootPath (app : String) :
    Text.lower (Text.upper app ++ "_WEB") = variableStart app ++ Slot.rootPath.group ∧
      Text.lower (Text.upper app ++ "_WEB_ROOTPATH") =
        variableStart app ++ (Slot.rootPath.group ++ "_" ++ Slot.rootPath.key) :=
  ⟨lower_variable app (t := "WEB") (by decide +kernel) (by decide +kernel),
    lower_variable app (t := "WEB_ROOTPATH") (by decide +kernel) (by decide +kernel)⟩

/-- The names of the variables of the kind of storage, in lower case. -/
theorem lower_storage (app : String) :
    Text.lower (Text.upper app ++ "_BACKEND") = variableStart app ++ Slot.storage.group ∧
      Text.lower (Text.upper app ++ "_BACKEND_IMPLEMENTATION") =
        variableStart app ++ (Slot.storage.group ++ "_" ++ Slot.storage.key) :=
  ⟨lower_variable app (t := "BACKEND") (by decide +kernel) (by decide +kernel),
    lower_variable app (t := "BACKEND_IMPLEMENTATION") (by decide +kernel) (by decide +kernel)⟩

end Settings

end DashboardAccess
