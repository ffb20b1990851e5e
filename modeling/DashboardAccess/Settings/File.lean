/-
# Settings files

The file that belongs to an application, among the files of a directory: the one
with the application's name and the ending for JSON, or else the one with that
ending twice.

* `find?` : the file that a name leads to;
* `hasEnding` : which names have an ending;
* `fileText?` : the text of the file of an application.
-/
import DashboardAccess.Text.LetterCase

namespace DashboardAccess

namespace Settings

/-! ## Names of files -/

/-- What is between the slashes of a name, without the steps that stay where they
are. -/
def segments (name : String) : List (List Char) :=
  (name.toList.splitOn '/').filter fun s => s ≠ [] ∧ s ≠ ['.']

/-- The text of the file that a name leads to from the directory of the files; a
name that starts with a slash leads elsewhere. -/
def find? (files : List (String × String)) (name : String) : Option String :=
  if name.toList.head? = some '/' then none
  else (files.find? fun f => segments f.1 = segments name).map (·.2)

/-- What the names of JSON files end in. -/
def ending : String := ".json"

/-- Whether there is more to the last segment of a name than the ending. -/
def hasEnding (name : String) : Bool :=
  decide ((segments name).getLast? ≠ some ending.toList)

/-! ## The file of an application -/

/-- The text of the file of an application.  A file that is called like the ending
alone is there, but is no JSON file. -/
def fileText? (app : String) (files : List (String × String)) : Option String :=
  let name := app ++ ending
  match find? files name with
  | some text => if hasEnding name then some text else none
  | none => find? files (name ++ ending)

end Settings

end DashboardAccess
