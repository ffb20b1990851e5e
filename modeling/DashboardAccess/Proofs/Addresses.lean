/-
# What addresses tell

An address shows the kind, the uid and the slug of its resource, whatever slashes there are in
the uid: the slug has none, so the last slash of the address stands before it.  Of the root
path an address shows all but the slashes at its end, so gates answer alike whether they are
given the configured root path, the trimmed one, or either of them with more slashes.

* `append_slash_inj` : the last slash of a text;
* `Resource.path_inj` : what stands behind the root path;
* `exists_eq_trimSlashes_append` : a root path is the trimmed one and slashes;
* `run_ask_withRoot` : gates whose root paths are the same when trimmed;
* `url_identifies` : what addresses have in common.
-/
import DashboardAccess.Gate
import DashboardAccess.Settings
import Mathlib.Data.List.TakeWhile

namespace DashboardAccess

/-! ## Behind the root path -/

/-- Texts with a slash before their last part, which has none, are equal if the parts before
and after that slash are. -/
theorem append_slash_inj {u v a b : List Char} (ha : '/' ∉ a) (hb : '/' ∉ b) :
    u ++ '/' :: a = v ++ '/' :: b ↔ u = v ∧ a = b := by
  constructor
  · intro h
    rcases List.append_eq_append_iff.1 h with ⟨w, rfl, hw⟩ | ⟨w, rfl, hw⟩
    · cases w with
      | nil => simpa using hw
      | cons c cs =>
        -- the slash before the last part of one text would stand in that of the other
        rw [List.cons_append, List.cons.injEq] at hw
        exact absurd (hw.2 ▸ List.mem_append_right cs List.mem_cons_self) ha
    · cases w with
      | nil => simpa [eq_comm] using hw
      | cons c cs =>
        rw [List.cons_append, List.cons.injEq] at hw
        exact absurd (hw.2 ▸ List.mem_append_right cs List.mem_cons_self) hb
  · rintro ⟨rfl, rfl⟩
    rfl

namespace Resource

/-- The address of a resource behind the root path. -/
def path (r : Resource) : String :=
  pathStep r.kind ++ r.uid ++ "/" ++ r.slug

/-- An address is the trimmed root path and the path of the resource. -/
theorem url_eq (r : Resource) (root : String) : r.url root = Text.trimSlashes root ++ r.path := by
  simp only [url, path, String.append_assoc]

section
variable {r r' : Resource}

/-- The path of a resource tells its kind: of a folder it starts with `/da`, of a dashboard
with `/d/`. -/
theorem kind_eq_of_path_eq (h : r.path = r'.path) : r.kind = r'.kind := by
  rw [path, path, ← String.toList_inj] at h
  cases hk : r.kind <;> cases hk' : r'.kind <;> simp [hk, hk', pathStep] at h ⊢

/-- The path of a resource tells its kind, its uid and its slug. -/
theorem path_inj : r.path = r'.path ↔ r.kind = r'.kind ∧ r.uid = r'.uid ∧ r.slug = r'.slug := by
  constructor
  · intro h
    have hkind := kind_eq_of_path_eq h
    have hrest : r.uid.toList ++ '/' :: r.slug.toList = r'.uid.toList ++ '/' :: r'.slug.toList := by
      simpa [path, hkind, ← String.toList_inj] using h
    obtain ⟨huid, hslug⟩ := (append_slash_inj (Text.slash_not_mem_slug r.title)
      (Text.slash_not_mem_slug r'.title)).1 hrest
    exact ⟨hkind, String.toList_inj.1 huid, String.toList_inj.1 hslug⟩
  · rintro ⟨hkind, huid, hslug⟩
    rw [path, path, hkind, huid, hslug]

/-- The address of a resource under a root path tells the resource's path. -/
theorem url_eq_url_iff {root : String} : r.url root = r'.url root ↔ r.path = r'.path := by
  rw [url_eq, url_eq, String.append_right_inj]

end

end Resource

/-! ## Root paths -/

namespace Text

/-- Some slashes. -/
def slashes (n : Nat) : String :=
  String.ofList (List.replicate n '/')

/-- Two root paths that differ in the slashes at their ends only. -/
def SameButSlashes (root root' : String) : Prop :=
  ∃ start m n, root = start ++ slashes m ∧ root' = start ++ slashes n

/-- A root path is the trimmed one and slashes. -/
theorem exists_eq_trimSlashes_append (root : String) :
    ∃ n, root = trimSlashes root ++ slashes n := by
  refine ⟨(root.toList.reverse.takeWhile (· = '/')).length, ?_⟩
  have hslashes : root.toList.reverse.takeWhile (· = '/') =
      List.replicate (root.toList.reverse.takeWhile (· = '/')).length '/' := by
    refine List.eq_replicate_iff.2 ⟨rfl, fun c hc => ?_⟩
    simpa using List.mem_takeWhile_imp hc
  rw [← String.toList_inj, String.toList_append, trimSlashes, slashes, String.toList_ofList,
    String.toList_ofList, ← List.reverse_replicate, ← hslashes, ← List.reverse_append,
    List.takeWhile_append_dropWhile, List.reverse_reverse]

/-- Trimming a trimmed root path changes nothing. -/
theorem trimSlashes_trimSlashes (root : String) :
    trimSlashes (trimSlashes root) = trimSlashes root := by
  obtain ⟨n, hn⟩ := exists_eq_trimSlashes_append root
  have htrim := congrArg trimSlashes hn
  rw [slashes, trimSlashes_append] at htrim
  exact htrim.symm

/-- Root paths are the same when trimmed if they differ in the slashes at their ends only. -/
theorem trimSlashes_eq_iff {root root' : String} :
    trimSlashes root = trimSlashes root' ↔ SameButSlashes root root' := by
  constructor
  · intro h
    obtain ⟨m, hm⟩ := exists_eq_trimSlashes_append root
    obtain ⟨n, hn⟩ := exists_eq_trimSlashes_append root'
    exact ⟨trimSlashes root, m, n, hm, h ▸ hn⟩
  · rintro ⟨start, m, n, rfl, rfl⟩
    rw [slashes, slashes, trimSlashes_append, trimSlashes_append]

end Text

/-- The address of a resource shows all of the root path but the slashes at its end. -/
theorem Resource.url_congr_iff (r : Resource) {root root' : String} :
    r.url root = r.url root' ↔ Text.SameButSlashes root root' := by
  rw [url_eq, url_eq, String.append_left_inj, Text.trimSlashes_eq_iff]

/-- The root paths that settings can be read as: the configured one or the trimmed one, each
with any number of slashes behind it. -/
def Settings.IsRoot (s : Settings) (root : String) : Prop :=
  ∃ n, root = s.rootPath ++ Text.slashes n ∨ root = s.root ++ Text.slashes n

/-- However the root path is read, it is the one of the settings when trimmed. -/
theorem Settings.IsRoot.trimSlashes_eq {s : Settings} {root : String} (h : s.IsRoot root) :
    Text.trimSlashes root = s.root := by
  rcases h with ⟨n, rfl | rfl⟩
  · rw [Text.slashes, Text.trimSlashes_append, Settings.root]
  · rw [Text.slashes, Text.trimSlashes_append, Settings.root, Text.trimSlashes_trimSlashes]

/-! ## Gates under root paths -/

namespace Gate

/-- The gate under a root path. -/
def withRoot (g : Gate) (root : String) : Gate :=
  { g with root }

section
variable {σ : Type} {root root' : String}

/-- The line of a grant is the same under root paths that are the same when trimmed. -/
theorem ofGrant_congr_root (h : Text.trimSlashes root = Text.trimSlashes root') (r : Resource)
    (table : PermissionTable) (levels : LevelMap) :
    AccessEntry.ofGrant r root table levels = AccessEntry.ofGrant r root' table levels := by
  funext grant
  rw [AccessEntry.ofGrant, AccessEntry.ofGrant, Resource.url_eq, Resource.url_eq, h]

/-- An answer about a resource is the same under root paths that are the same when trimmed. -/
theorem answerOn_withRoot (h : Text.trimSlashes root = Text.trimSlashes root') (b : Backend σ)
    (g : Gate) (r : Resource) (q : Question) :
    (g.withRoot root).answerOn b r q = (g.withRoot root').answerOn b r q := by
  have hlisting : (g.withRoot root).listing b r = (g.withRoot root').listing b r := by
    simp only [listing, withRoot, ofGrant_congr_root h]
  cases q with
  | may right => rfl
  | _ => exact hlisting

/-- A gate answers any question alike under root paths that are the same when trimmed, and
asks the same of its surroundings. -/
theorem run_ask_withRoot (h : Text.trimSlashes root = Text.trimSlashes root') (b : Backend σ)
    (g : Gate) (q : Question) (st : σ) :
    (((g.withRoot root).ask b q).run st).1.1 = (((g.withRoot root').ask b q).run st).1.1 ∧
      (((g.withRoot root).ask b q).run st).2 = (((g.withRoot root').ask b q).run st).2 := by
  cases hq : q.needsResource g.target with
  | false =>
    rw [run_ask_free (g := g.withRoot root) hq, run_ask_free (g := g.withRoot root') hq]
    exact ⟨rfl, rfl⟩
  | true =>
    cases hkept : g.kept with
    | some r =>
      rw [run_ask_kept (g := g.withRoot root) hq hkept,
        run_ask_kept (g := g.withRoot root') hq hkept, answerOn_withRoot h]
      exact ⟨rfl, rfl⟩
    | none =>
      obtain ⟨found, st', hload⟩ :
          ∃ found st', (b.load g.target g.member.org).run st = (found, st') := ⟨_, _, rfl⟩
      cases found with
      | ok r =>
        -- both gates keep the resource and go on as gates under their root paths
        have hanswer := answerOn_withRoot h b { g with kept := some r } r q
        rw [run_ask_load (g := g.withRoot root) hq hkept hload,
          run_ask_load (g := g.withRoot root') hq hkept hload]
        exact ⟨congrArg (fun answer => (answer.run st').1) hanswer,
          congrArg (fun answer => (answer.run st').2) hanswer⟩
      | error e =>
        rw [run_ask_failed (g := g.withRoot root) hq hkept hload,
          run_ask_failed (g := g.withRoot root') hq hkept hload]
        exact ⟨rfl, rfl⟩

end

end Gate

/-! ## Addresses -/

/-- Under any root path equal addresses are those of resources of the same kind with the same
uid and slug.  Two root paths give a resource the same address if and only if they differ in
the slashes at their ends only; so however the root path of settings is read, configured or
trimmed, with more slashes or without, every resource has the address that it has under the
trimmed one, and a gate gives every answer that it gives under that one. -/
theorem url_identifies :
    (∀ (r r' : Resource) (root : String),
      r.url root = r'.url root ↔ r.kind = r'.kind ∧ r.uid = r'.uid ∧ r.slug = r'.slug) ∧
    (∀ (r : Resource) (root root' : String),
      r.url root = r.url root' ↔ Text.SameButSlashes root root') ∧
    ∀ (s : Settings) (root : String), s.IsRoot root →
      (∀ r : Resource, r.url root = r.url s.root) ∧
      ∀ {σ : Type} (b : Backend σ) (g : Gate) (q : Question) (st : σ),
        (((g.withRoot root).ask b q).run st).1.1 = (((g.withRoot s.root).ask b q).run st).1.1 ∧
        (((g.withRoot root).ask b q).run st).2 = (((g.withRoot s.root).ask b q).run st).2 := by
  refine ⟨fun r r' root => ?_, fun r root root' => r.url_congr_iff, fun s root hroot => ?_⟩
  · rw [Resource.url_eq_url_iff, Resource.path_inj]
  · have htrim : Text.trimSlashes root = Text.trimSlashes s.root := by
      rw [hroot.trimSlashes_eq, Settings.root, Text.trimSlashes_trimSlashes]
    refine ⟨fun r => ?_, fun b g q st => Gate.run_ask_withRoot htrim b g q st⟩
    rw [Resource.url_congr_iff, ← Text.trimSlashes_eq_iff, htrim]

/-- A dashboard whose uid has a slash in it, under a configured root path with more slashes
behind it. -/
theorem url_identifies_slashes :
    Settings.IsRoot ⟨"guardian", "mem", "/grafana/"⟩ "/grafana///" ∧
      Resource.url ⟨1, 42, "a/b", "CPU / Memory", .dashboardIn 7⟩ "/grafana///" =
        Resource.url ⟨1, 42, "a/b", "CPU / Memory", .dashboardIn 7⟩
          (Settings.root ⟨"guardian", "mem", "/grafana/"⟩) ∧
      Resource.url ⟨1, 42, "a/b", "CPU / Memory", .dashboardIn 7⟩ "/grafana///" =
        "/grafana/d/a/b/cpu-memory" := by
  have hroot : Settings.IsRoot ⟨"guardian", "mem", "/grafana/"⟩ "/grafana///" :=
    ⟨2, .inl (by decide +kernel)⟩
  exact ⟨hroot, (url_identifies.2.2 _ "/grafana///" hroot).1 _, by decide +kernel⟩

end DashboardAccess
