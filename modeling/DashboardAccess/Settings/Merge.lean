/-
# Merging sources of settings

Settings are collected in one JSON tree, into which sources are merged one after
the other.  Keys are merged in lower case.  An object is merged member by member,
any other value replaces what was there.

Keys are set in the order in which a source has them.  A loader that keeps the members
of an object in a map without an order may set them in any other one.  This can be seen
only where several keys of one object lead to the same place, as `web` and `WEB` or
`web` and `web.rootpath` do; a statement about every source covers all orders, since the
source with its members in another order is a source as well.

* `merge` : setting a plain key;
* `mergePath` : setting a value at the end of a path;
* `mergeKeys`, `mergeSource?` : merging a whole source, whose outermost keys may be
  paths;
* `member?_replace` : what replacing a member changes.
-/
import DashboardAccess.Settings.KeyPath
import DashboardAccess.Text.LetterCase

namespace DashboardAccess

namespace Settings

/-! ## Plain keys -/

/-- Replace the member of a key in a tree, which becomes an object if it is
none. -/
def replace (tree : Json) (key : String) (value : Json) : Json :=
  .object (Rows.put (Text.lower key) value tree.members)

/-- The member of a key in a tree, where keys are in lower case. -/
def child? (tree : Json) (key : String) : Option Json :=
  tree.member? (Text.lower key)

/-- Replacing a member changes that member and no other. -/
theorem member?_replace (tree : Json) (key k : String) (value : Json) :
    (replace tree key value).member? k =
      if k = Text.lower key then some value else tree.member? k :=
  Rows.lookup_put (Text.lower key) k value tree.members

mutual

/-- Set the member of a key in a tree.  An object is merged into what is there,
any other value takes its place. -/
def merge (tree : Json) (key : String) (value : Json) : Json :=
  match value with
  | .object members =>
    replace tree key (mergeMembers ((child? tree key).getD (.object [])) members)
  | value => replace tree key value
termination_by structural value

/-- Set several members one after the other. -/
def mergeMembers (tree : Json) : List (String × Json) → Json
  | [] => tree
  | (key, value) :: rest => mergeMembers (merge tree key value) rest
termination_by structural members => members

end

/-- Setting an object is merging its members into what is there. -/
theorem merge_object (tree : Json) (key : String) (members : List (String × Json)) :
    merge tree key (.object members) =
      replace tree key (mergeMembers ((child? tree key).getD (.object [])) members) := by
  rw [merge]

/-- Setting a text is replacing what is there. -/
theorem merge_string (tree : Json) (key s : String) :
    merge tree key (.string s) = replace tree key (.string s) := by
  rw [merge]
  simp

/-! ## Items -/

/-- Items with nulls added until an index points to one of them, and the place it
points to.  Nulls for an index below zero come first, others come last. -/
def withRoom (items : List Json) : Int → List Json × Nat
  | .ofNat n => (items ++ List.replicate (n + 1 - items.length) .null, n)
  | .negSucc n => (List.replicate (n + 1 - items.length) .null ++ items, items.length - (n + 1))

/-- Change the item at an index of a tree, which becomes an array with room for it
if it is none. -/
def modifyItem (tree : Json) (index : Int) (f : Json → Json) : Json :=
  let (items, place) := withRoom tree.items index
  .array (items.modify place f)

/-! ## Paths -/

/-- Set a value at the end of a path.  Whatever is in the way of a step becomes an
object or an array.  At the end a member is merged, and an item is replaced. -/
def mergePath (tree : Json) : List PathStep → Json → Json
  | [], value => value
  | [.member key], value => merge tree key value
  | .member key :: rest, value =>
    replace tree key (mergePath ((child? tree key).getD .null) rest value)
  | .item index :: rest, value =>
    modifyItem tree index fun item => mergePath item rest value

/-- Set the value of a key that may be a path. -/
def mergeKey (tree : Json) (key : String) (value : Json) : Json :=
  match path? key with
  | some path => mergePath tree path value
  | none => merge tree key value

/-! ## Sources -/

/-- Set the values of several keys that may be paths, one after the other. -/
def mergeKeys (tree : Json) (members : List (String × Json)) : Json :=
  members.foldl (fun tree m => mergeKey tree m.1 m.2) tree

/-- Merge a source, which has to be an object. -/
def mergeSource? (tree : Json) : Json → Option Json
  | .object members => some (mergeKeys tree members)
  | _ => none

end Settings

end DashboardAccess
