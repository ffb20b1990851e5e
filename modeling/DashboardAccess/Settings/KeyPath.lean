/-
# Key paths

An outermost key of a source may be a path into the tree of settings: names with
points between them, each followed by any number of indices in brackets, such as
`web.rootpath` or `web[0]`.  An index below zero counts from the end.

* `index?` : the number in a pair of brackets;
* `piece?` : a name with its indices;
* `path?` : the steps of a key that is a path.
-/
import DashboardAccess.Json.Number

namespace DashboardAccess

namespace Settings

/-! ## Steps -/

/-- A step into a tree: to the member of a key, or to the item at an index. -/
inductive PathStep where
  | member (key : String)
  | item (index : Int)
deriving DecidableEq, Repr

/-! ## Names and indices -/

/-- The characters of the names in a path. -/
def isNameChar (c : Char) : Bool :=
  c.isAlphanum || c = ' ' || c = '_' || c = '-'

/-- The blanks that may stand around an index. -/
def isIndexBlank (c : Char) : Bool :=
  c = ' ' || c = '\t'

/-- A text without the blanks at both ends. -/
def trimIndexBlanks (cs : List Char) : List Char :=
  ((cs.dropWhile isIndexBlank).reverse.dropWhile isIndexBlank).reverse

/-- The number in a pair of brackets: digits, perhaps after a sign, with perhaps
blanks around them.  It has 64 bits with its sign. -/
def index? (cs : List Char) : Option Int :=
  let (negative, digits) := match trimIndexBlanks cs with
    | '-' :: rest => (true, rest)
    | rest => (false, rest)
  if digits.isEmpty || !digits.all Char.isDigit then none
  else
    let n : Int := if negative then -Json.Number.value digits else Json.Number.value digits
    if isInt64 n then some n else none

/-- The number before the bracket that ends a text. -/
def closedIndex? (cs : List Char) : Option Int :=
  if cs.getLast? = some ']' then index? cs.dropLast else none

/-! ## Paths -/

/-- The steps of a name with the indices after it. -/
def piece? (cs : List Char) : Option (List PathStep) :=
  match cs.splitOn '[' with
  | [] => none
  | name :: indices =>
    if name.isEmpty || !name.all isNameChar then none
    else do
      let items ← indices.mapM closedIndex?
      some (.member (String.ofList name) :: items.map .item)

/-- The steps of a key; nothing if it is no path. -/
def path? (key : String) : Option (List PathStep) := do
  let pieces ← (key.toList.splitOn '.').mapM piece?
  some pieces.flatten

end Settings

end DashboardAccess
