/-
# JSON values

* `Json` : a value; the members of an object have different keys, in the order in
  which they first came;
* `members`, `member?`, `items` : what is in an object or an array;
* `Number.text` : the text of a number.
-/
import DashboardAccess.Binary64
import DashboardAccess.Rows

namespace DashboardAccess

namespace Json

/-- A number: an integer of 64 bits, or a binary floating-point number with its
sign. -/
inductive Number where
  | integer (n : Int)
  | real (negative : Bool) (magnitude : Binary64)
deriving DecidableEq, Repr

/-- The shortest text of a number. -/
def Number.text : Number → String
  | .integer n => toString n
  | .real false x => x.text
  | .real true x => "-" ++ x.text

end Json

/-- A JSON value. -/
inductive Json where
  | null
  | bool (b : Bool)
  | number (n : Json.Number)
  | string (s : String)
  | array (items : List Json)
  | object (members : List (String × Json))
deriving Repr, Inhabited

namespace Json

/-- An integer. -/
def int (n : Int) : Json :=
  .number (.integer n)

/-- The members of an object; no other value has any. -/
def members : Json → List (String × Json)
  | .object members => members
  | _ => []

/-- The items of an array; no other value has any. -/
def items : Json → List Json
  | .array items => items
  | _ => []

/-- The member of a key. -/
def member? (key : String) (value : Json) : Option Json :=
  value.members.lookup key

end Json

end DashboardAccess
