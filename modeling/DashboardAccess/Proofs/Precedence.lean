/-
# Which source decides

A complete source decides if it comes last, and so do variables of both settings, whatever
earlier sources or a file have put in their way.

* `IsSource` : texts that are objects, with a property of their keys;
* `load?_eq`, `loadEnvironment?_eq` : all that is set, in one list;
* `Direct`, `Elsewhere` : keys that lead to the settings at once or never;
* `last_source_decides` : a complete last source or two variables decide alone.
-/
import DashboardAccess.Proofs.SettingVariables

namespace DashboardAccess

namespace Settings

/-! ## Sources -/

/-- A text that is an object, with a property of all its outermost keys. -/
def IsSource (P : String → Prop) (text : String) : Prop :=
  ∃ members, Json.parse? text = some (.object members) ∧ ∀ m ∈ members, P m.1

/-- Objects are merged by setting all their members. -/
theorem mergeAll?_objects (sources : List (List (String × Json))) :
    mergeAll? (sources.map .object) = some (mergeKeys (.object []) sources.flatten) := by
  have hfrom : ∀ tree, (sources.map Json.object).foldlM mergeSource? tree =
      some (mergeKeys tree sources.flatten) := by
    induction sources with
    | nil => exact fun tree => rfl
    | cons first rest ih =>
      intro tree
      rw [List.map_cons, List.foldlM_cons, List.flatten_cons, mergeKeys_append, ← ih]
      rfl
  exact hfrom (.object [])

/-- Texts that are objects are read into the members of all of them. -/
theorem exists_sources {P : String → Prop} {texts : List String}
    (h : ∀ text ∈ texts, IsSource P text) :
    ∃ sources : List (List (String × Json)),
      texts.mapM Json.parse? = some (sources.map .object) ∧ ∀ row ∈ sources.flatten, P row.1 := by
  induction texts with
  | nil => exact ⟨[], rfl, fun row hrow => absurd hrow List.not_mem_nil⟩
  | cons text rest ih =>
    obtain ⟨⟨members, hparse, hmembers⟩, hrest⟩ := List.forall_mem_cons.1 h
    obtain ⟨sources, hsources, hrows⟩ := ih hrest
    refine ⟨members :: sources, ?_, fun row hrow => ?_⟩
    · rw [List.mapM_cons, hparse, hsources]
      rfl
    · rw [List.flatten_cons, List.mem_append] at hrow
      exact hrow.elim (hmembers row) (hrows row)

/-- The settings of texts come from setting the members of all of them. -/
theorem load?_eq (app : String) {texts : List String} {sources : List (List (String × Json))}
    (h : texts.mapM Json.parse? = some (sources.map .object)) :
    load? app texts = ofTree? app (complete (mergeKeys (.object []) sources.flatten)) := by
  rw [load?, h, Option.bind_eq_bind, Option.bind_some, ofSources?, mergeAll?_objects]
  rfl

/-- The settings of a file and an environment come from setting the members of the file and
then the variables. -/
theorem loadEnvironment?_eq (default : String) {files : List (String × String)}
    (environment : List (String × String)) {P : String → Prop}
    (h : ∀ text, fileText? (appName default environment) files = some text → IsSource P text) :
    ∃ rows : List (String × Json), (∀ row ∈ rows, P row.1) ∧
      loadEnvironment? default files environment =
        ofTree? (appName default environment) (complete (mergeKeys (.object [])
          (rows ++ variableRows (appName default environment) environment))) := by
  cases hfile : fileText? (appName default environment) files with
  | none =>
    refine ⟨[], fun row hrow => absurd hrow List.not_mem_nil, ?_⟩
    rw [loadEnvironment?, hfile, List.nil_append, ← mergeEnvironment_eq]
    rfl
  | some text =>
    obtain ⟨members, hparse, hmembers⟩ := h text hfile
    refine ⟨members, hmembers, ?_⟩
    rw [loadEnvironment?, hfile, mergeKeys_append, ← mergeEnvironment_eq]
    simp only [hparse]
    rfl

/-! ## What decides -/

/-- A key does not lead to the groups of the settings only in the second pass. -/
def Direct (key : String) : Prop :=
  AtOnce "web" key ∧ AtOnce "backend" key

/-- A key does not lead to the groups of the settings in either pass. -/
def Elsewhere (key : String) : Prop :=
  outermost (outermost key) ≠ "web" ∧ outermost (outermost key) ≠ "backend"

/-- Paths and keys in lower case are direct. -/
theorem direct_of {key : String} (h : path? key ≠ none ∨ Text.lower key = key) : Direct key :=
  ⟨atOnce_of h "web", atOnce_of h "backend"⟩

/-- What has been collected in both slots decides. -/
theorem ofTree?_complete (app : String) {rows : List (String × Json)}
    (h : ∀ row ∈ rows, Direct row.1) {i r : String}
    (hstorage : Slot.storage.value? (mergeKeys (.object []) rows) = some (.string i))
    (hroot : Slot.rootPath.value? (mergeKeys (.object []) rows) = some (.string r)) :
    ofTree? app (complete (mergeKeys (.object []) rows)) =
      some { app, storage := i, rootPath := r } :=
  ofTree?_eq app (Slot.value?_complete (fun row hrow => (h row hrow).2) hstorage)
    (Slot.value?_complete (fun row hrow => (h row hrow).1) hroot)

/-- If nothing leads to the slots, the settings are the standard ones. -/
theorem ofTree?_complete_of_elsewhere (app : String) {rows : List (String × Json)}
    (h : ∀ row ∈ rows, Elsewhere row.1) :
    ofTree? app (complete (mergeKeys (.object []) rows)) = some (standard app) := by
  have hstorage : Slot.storage.value? (complete (mergeKeys (.object []) rows)) =
      some (.string "mem") := Slot.value?_complete_of_ne fun row hrow => (h row hrow).2
  have hroot : Slot.rootPath.value? (complete (mergeKeys (.object []) rows)) =
      some (.string "") := Slot.value?_complete_of_ne fun row hrow => (h row hrow).1
  exact ofTree?_eq app hstorage hroot

/-- The members of a source that is complete. -/
def completeMembers (r i : String) : List (String × Json) :=
  [("web", .object [("rootpath", .string r)]), ("backend", .object [("implementation", .string i)])]

/-- The members of a complete source fill both slots, whatever was there. -/
theorem value?_mergeKeys_completeMembers (tree : Json) (r i : String) :
    Slot.storage.value? (mergeKeys tree (completeMembers r i)) = some (.string i) ∧
      Slot.rootPath.value? (mergeKeys tree (completeMembers r i)) = some (.string r) := by
  have hne : outermost Slot.storage.group ≠ Slot.rootPath.group := by
    rw [Slot.outermost_group]
    decide
  have hmembers : completeMembers r i =
      [(Slot.rootPath.group, .object [(Slot.rootPath.key, .string r)]),
       (Slot.storage.group, .object [(Slot.storage.key, .string i)])] := rfl
  simp only [hmembers, mergeKeys_cons, mergeKeys_nil]
  refine ⟨Slot.storage.value?_mergeKey_single _ i, ?_⟩
  rw [Slot.value?_mergeKey_of_ne hne]
  exact Slot.rootPath.value?_mergeKey_single tree r

/-- A complete last source decides. -/
theorem load?_append_complete (app : String) {earlier : List String} {last r i : String}
    (h : ∀ text ∈ earlier, IsSource Direct text)
    (hlast : Json.parse? last = some (.object (completeMembers r i))) :
    load? app (earlier ++ [last]) = some { app, storage := i, rootPath := r } := by
  obtain ⟨sources, hsources, hrows⟩ := exists_sources h
  have hall : (earlier ++ [last]).mapM Json.parse? =
      some ((sources ++ [completeMembers r i]).map .object) := by
    rw [List.mapM_append, hsources, List.mapM_cons, hlast, List.map_append]
    rfl
  have hdirect : ∀ row ∈ sources.flatten ++ completeMembers r i, Direct row.1 := by
    intro row hrow
    rcases List.mem_append.1 hrow with hrow | hrow
    · exact hrows row hrow
    · rcases List.mem_pair.1 hrow with rfl | rfl
      · exact direct_of (.inr Slot.rootPath.group_isWord.lower)
      · exact direct_of (.inr Slot.storage.group_isWord.lower)
  obtain ⟨hstorage, hroot⟩ :=
    value?_mergeKeys_completeMembers (mergeKeys (.object []) sources.flatten) r i
  rw [← mergeKeys_append] at hstorage hroot
  rw [load?_eq app hall, List.flatten_append, List.flatten_singleton]
  exact ofTree?_complete app hdirect hstorage hroot

/-- Sources that lead elsewhere leave the standard settings. -/
theorem load?_of_elsewhere (app : String) {texts : List String}
    (h : ∀ text ∈ texts, IsSource Elsewhere text) : load? app texts = some (standard app) := by
  obtain ⟨sources, hsources, hrows⟩ := exists_sources h
  rw [load?_eq app hsources]
  exact ofTree?_complete_of_elsewhere app hrows

section

variable {default app : String} {files environment : List (String × String)}

/-- Two variables decide. -/
theorem loadEnvironment?_of_variables {r i : String} (happ : appName default environment = app)
    (hfile : ∀ text, fileText? app files = some text → IsSource Direct text)
    (hroot : OneVariable environment (Text.upper app ++ "_WEB")
      (Text.upper app ++ "_WEB_ROOTPATH") r)
    (hstorage : OneVariable environment (Text.upper app ++ "_BACKEND")
      (Text.upper app ++ "_BACKEND_IMPLEMENTATION") i) :
    loadEnvironment? default files environment = some { app, storage := i, rootPath := r } := by
  subst happ
  obtain ⟨rows, hrows, hload⟩ := loadEnvironment?_eq default environment hfile
  have hdirect : ∀ row ∈ variableRows (appName default environment) environment, Direct row.1 := by
    intro row hrow
    obtain ⟨e, -, key, hkey, rfl⟩ := exists_of_mem_variableRows hrow
    exact direct_of (.inr (lower_of_variableKey? hkey))
  rw [hload]
  refine ofTree?_complete _ (List.forall_mem_append.2 ⟨hrows, hdirect⟩) ?_ ?_
  · rw [mergeKeys_append]
    exact Slot.value?_of_oneVariable hstorage (lower_storage _).1 (lower_storage _).2 _
  · rw [mergeKeys_append]
    exact Slot.value?_of_oneVariable hroot (lower_rootPath _).1 (lower_rootPath _).2 _

/-- A file that leads elsewhere and no variables of the settings leave the standard settings. -/
theorem loadEnvironment?_of_elsewhere (happ : appName default environment = app)
    (hfile : ∀ text, fileText? app files = some text → IsSource Elsewhere text)
    (hvariables : ∀ e ∈ environment,
      ¬ (Text.lower (Text.upper app ++ "_WEB")).toList <+: (Text.lower e.1).toList ∧
        ¬ (Text.lower (Text.upper app ++ "_BACKEND")).toList <+: (Text.lower e.1).toList) :
    loadEnvironment? default files environment = some (standard app) := by
  subst happ
  obtain ⟨rows, hrows, hload⟩ := loadEnvironment?_eq default environment hfile
  rw [hload]
  refine ofTree?_complete_of_elsewhere _
    (List.forall_mem_append.2 ⟨hrows, fun row hrow => ⟨?_, ?_⟩⟩)
  · exact Slot.outermost_ne_of_no_variable (fun e he => (hvariables e he).1) (lower_rootPath _).1
      row hrow
  · exact Slot.outermost_ne_of_no_variable (fun e he => (hvariables e he).2) (lower_storage _).1
      row hrow

end

/-! ## The last word -/

/-- The last source, if it is complete, and the variables of both settings decide alone,
whatever earlier sources or a file have put in their way; without any of them the settings
are the standard ones. -/
theorem last_source_decides :
    (∀ (app : String) (earlier : List String) (last r i : String),
      (∀ text ∈ earlier, IsSource Direct text) →
      Json.parse? last = some (.object
        [("web", .object [("rootpath", .string r)]),
         ("backend", .object [("implementation", .string i)])]) →
      load? app (earlier ++ [last]) = some { app, storage := i, rootPath := r }) ∧
    (∀ (default app : String) (files environment : List (String × String)) (r i : String),
      appName default environment = app →
      (∀ text, fileText? app files = some text → IsSource Direct text) →
      OneVariable environment (Text.upper app ++ "_WEB") (Text.upper app ++ "_WEB_ROOTPATH") r →
      OneVariable environment (Text.upper app ++ "_BACKEND")
        (Text.upper app ++ "_BACKEND_IMPLEMENTATION") i →
      loadEnvironment? default files environment =
        some { app, storage := i, rootPath := r }) ∧
    (∀ (app : String) (texts : List String), (∀ text ∈ texts, IsSource Elsewhere text) →
      load? app texts = some { app, storage := "mem", rootPath := "" }) ∧
    (∀ (default app : String) (files environment : List (String × String)),
      appName default environment = app →
      (∀ text, fileText? app files = some text → IsSource Elsewhere text) →
      (∀ e ∈ environment,
        ¬ (Text.lower (Text.upper app ++ "_WEB")).toList <+: (Text.lower e.1).toList ∧
        ¬ (Text.lower (Text.upper app ++ "_BACKEND")).toList <+: (Text.lower e.1).toList) →
      loadEnvironment? default files environment =
        some { app, storage := "mem", rootPath := "" }) := by
  refine ⟨?_, ?_, ?_, ?_⟩
  · intro app earlier last r i h hlast
    exact load?_append_complete app h hlast
  · intro default app files environment r i happ hfile hroot hstorage
    exact loadEnvironment?_of_variables happ hfile hroot hstorage
  · intro app texts h
    exact load?_of_elsewhere app h
  · intro default app files environment happ hfile hvariables
    exact loadEnvironment?_of_elsewhere happ hfile hvariables

/-- Other values and paths in the way of the settings, and keys and variables that only look
like theirs. -/
theorem last_source_decides_over_junk :
    load? "guardian"
      ["\x7b\"WEB\":[\x7b\"rootpath\":null\x7d],\"backend.implementation[2]\":true\x7d",
       "\x7b\"web\":\x7b\"rootpath\":\"/r\"\x7d,\"backend\":\x7b\"implementation\":\"i\"\x7d\x7d"] =
        some { app := "guardian", storage := "i", rootPath := "/r" } ∧
    loadEnvironment? "guardian" [("guardian.json", "\x7b\"web.rootpath\":[]\x7d")]
      [("Guardian_Web_RootPath", "/r"), ("GUARDIAN_BACKEND_IMPLEMENTATION", "i")] =
        some { app := "guardian", storage := "i", rootPath := "/r" } ∧
    load? "guardian" ["\x7b\"website\":null\x7d"] =
      some { app := "guardian", storage := "mem", rootPath := "" } ∧
    loadEnvironment? "guardian" [] [("WEB_ROOTPATH", "/r")] =
      some { app := "guardian", storage := "mem", rootPath := "" } := by
  have hearlier : IsSource Direct
      "\x7b\"WEB\":[\x7b\"rootpath\":null\x7d],\"backend.implementation[2]\":true\x7d" := by
    refine ⟨[("WEB", .array [.object [("rootpath", .null)]]),
      ("backend.implementation[2]", .bool true)], by rfl, ?_⟩
    exact List.forall_mem_cons.2 ⟨direct_of (.inl (by decide +kernel)),
      List.forall_mem_singleton.2 (direct_of (.inl (by decide +kernel)))⟩
  have hfile : ∀ text,
      fileText? "guardian" [("guardian.json", "\x7b\"web.rootpath\":[]\x7d")] = some text →
        IsSource Direct text := by
    have hfound : fileText? "guardian" [("guardian.json", "\x7b\"web.rootpath\":[]\x7d")] =
        some "\x7b\"web.rootpath\":[]\x7d" := by decide +kernel
    intro text htext
    rw [hfound] at htext
    cases htext
    exact ⟨[("web.rootpath", .array [])], rfl,
      List.forall_mem_singleton.2 (direct_of (.inl (by decide +kernel)))⟩
  have helsewhere : IsSource Elsewhere "\x7b\"website\":null\x7d" :=
    ⟨[("website", .null)], rfl,
      List.forall_mem_singleton.2 ⟨by decide +kernel, by decide +kernel⟩⟩
  obtain ⟨hsources, hvariables, hothers, hnone⟩ := last_source_decides
  refine ⟨hsources "guardian" [_] _ "/r" "i" (List.forall_mem_singleton.2 hearlier) rfl, ?_,
    hothers "guardian" [_] (List.forall_mem_singleton.2 helsewhere), ?_⟩
  · exact hvariables "guardian" "guardian" _ _ "/r" "i" rfl hfile
      ⟨_, List.mem_cons_self, by decide +kernel, rfl, by decide +kernel⟩
      ⟨_, List.mem_cons_of_mem _ List.mem_cons_self, by decide +kernel, rfl, by decide +kernel⟩
  · have habsent : fileText? "guardian" [] = none := rfl
    refine hnone "guardian" "guardian" [] _ rfl (fun text htext => ?_) (by decide +kernel)
    rw [habsent] at htext
    cases htext

/-- The name of an application is taken in upper case: `ß` has no variables of its own, those
of `SS` are read.  A key with the Kelvin sign is no path in its source, but its lower case is
one when it is set on the defaults, after the last source. -/
theorem letter_case_overrules :
    (fileText? "ß" [] = none ∧
      OneVariable
        [("APP_NAME", "ß"), ("ß_WEB_ROOTPATH", "/r"), ("ß_BACKEND_IMPLEMENTATION", "i")]
        "ß_WEB" "ß_WEB_ROOTPATH" "/r" ∧
      OneVariable
        [("APP_NAME", "ß"), ("ß_WEB_ROOTPATH", "/r"), ("ß_BACKEND_IMPLEMENTATION", "i")]
        "ß_BACKEND" "ß_BACKEND_IMPLEMENTATION" "i" ∧
      loadEnvironment? "guardian" []
        [("APP_NAME", "ß"), ("ß_WEB_ROOTPATH", "/r"), ("ß_BACKEND_IMPLEMENTATION", "i")] =
          some { app := "ß", storage := "mem", rootPath := "" }) ∧
    (IsSource (fun _ => True)
        "\x7b\"backend\":\x7b\x7d,\"bac\u212Aend.implementation.x\":null\x7d" ∧
      Json.parse?
        "\x7b\"web\":\x7b\"rootpath\":\"/r\"\x7d,\"backend\":\x7b\"implementation\":\"i\"\x7d\x7d" =
          some (.object
            [("web", .object [("rootpath", .string "/r")]),
             ("backend", .object [("implementation", .string "i")])]) ∧
      load? "guardian"
      ["\x7b\"backend\":\x7b\x7d,\"bac\u212Aend.implementation.x\":null\x7d",
       "\x7b\"web\":\x7b\"rootpath\":\"/r\"\x7d,\"backend\":\x7b\"implementation\":\"i\"\x7d\x7d"] =
        none) := by
  refine ⟨⟨rfl, ?_, ?_, by decide +kernel⟩, ?_, rfl, by decide +kernel⟩
  · exact ⟨_, List.mem_cons_of_mem _ List.mem_cons_self, by decide +kernel, rfl, by decide +kernel⟩
  · exact ⟨_, List.mem_cons_of_mem _ (List.mem_cons_of_mem _ List.mem_cons_self),
      by decide +kernel, rfl, by decide +kernel⟩
  · exact ⟨[("backend", .object []), ("bac\u212Aend.implementation.x", .null)], rfl,
      fun _ _ => trivial⟩

end Settings

end DashboardAccess
