/-
# Settings

The storage that is used and the root path of addresses, read from JSON sources
of which later ones win, or from a file and environment variables.  The sources
are merged among themselves, and what comes of that is merged into the defaults.

* `Settings.load?` : from the texts of sources;
* `Settings.loadEnvironment?` : from a file and the environment.
-/
import DashboardAccess.Json.Tree
import DashboardAccess.Settings.File
import DashboardAccess.Settings.Merge
import DashboardAccess.Text.Slug

namespace DashboardAccess

/-- How an application is set up. -/
structure Settings where
  app : String
  storage : String
  rootPath : String
deriving DecidableEq, Repr

namespace Settings

/-- The root path without slashes at its end. -/
def root (s : Settings) : String :=
  Text.trimSlashes s.rootPath

/-! ## The tree of settings -/

/-- The settings without any source. -/
def defaults : Json :=
  .object
    [("web", .object [("rootpath", .string "")]),
     ("backend", .object [("implementation", .string "mem")])]

/-- What several sources say together, without the defaults. -/
def mergeAll? (sources : List Json) : Option Json :=
  sources.foldlM mergeSource? (.object [])

/-- The defaults with what sources say merged into them. -/
def complete (said : Json) : Json :=
  mergeKeys defaults said.members

/-- The value of a setting: a member of the group, or the first item of a group
that is given as an array. -/
def setting? (tree : Json) (group key : String) : Option Json :=
  match tree.member? group with
  | some (.object members) => members.lookup key
  | some (.array (first :: _)) => some first
  | _ => none

/-- The text of a value without parts; nothing has no text. -/
def textOf? : Json → Option String
  | .string s => some s
  | .bool true => some "true"
  | .bool false => some "false"
  | .number n => some n.text
  | _ => none

/-- Read the settings off their tree. -/
def ofTree? (app : String) (tree : Json) : Option Settings := do
  let storage ← textOf? (← setting? tree "backend" "implementation")
  let rootPath ← textOf? (← setting? tree "web" "rootpath")
  some { app, storage, rootPath }

/-- The settings of several sources, of which later ones win. -/
def ofSources? (app : String) (sources : List Json) : Option Settings := do
  ofTree? app (complete (← mergeAll? sources))

/-- The settings without any source. -/
def standard (app : String) : Settings :=
  { app, storage := "mem", rootPath := "" }

/-- The settings of several sources given as text.  Every text has to be a JSON
object. -/
def load? (app : String) (texts : List String) : Option Settings := do
  ofSources? app (← texts.mapM Json.parse?)

/-! ## File and environment -/

/-- The name of an application: that of the environment in lower case, or else
the given one. -/
def appName (default : String) (environment : List (String × String)) : String :=
  match environment.lookup "APP_NAME" with
  | some name => Text.lower name
  | none => default

/-- What the names of an application's variables start with, in lower case. -/
def variableStart (app : String) : String :=
  Text.lower (Text.upper app ++ "_")

/-- The key that a variable sets: its name in lower case after the application's
name, with points for underscores. -/
def variableKey? (app : String) (name : String) : Option String :=
  let name := (Text.lower name).toList
  let start := (variableStart app).toList
  if start.isPrefixOf name then
    some (String.ofList ((name.drop start.length).map fun c => if c = '_' then '.' else c))
  else none

/-- Merge the variables of an application. -/
def mergeEnvironment (app : String) (tree : Json) (environment : List (String × String)) :
    Json :=
  environment.foldl
    (fun tree entry =>
      match variableKey? app entry.1 with
      | some key => mergeKey tree key (.string entry.2)
      | none => tree)
    tree

/-- The settings of an application: its file, if there is one, and then its
variables. -/
def loadEnvironment? (default : String) (files environment : List (String × String)) :
    Option Settings := do
  let app := appName default environment
  let said ← match fileText? app files with
    | some text => do mergeSource? (.object []) (← Json.parse? text)
    | none => some (.object [])
  ofTree? app (complete (mergeEnvironment app said environment))

end Settings

end DashboardAccess
