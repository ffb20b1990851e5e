/-
# Values from tokens

Tokens are read one by one.  A `Progress` holds the arrays and objects that are
still open and what may come next; `Progress.step?` takes one more token.

* `Json.ofTokens?` : the value of a list of tokens;
* `Json.parse?` : the value of a text.  Of members with the same key the last one
  counts, and at most 127 arrays and objects may be open at once.
-/
import DashboardAccess.Json.Token

namespace DashboardAccess

namespace Json

/-- An array or object that is still open: its items, or its members and the key
of the next one. -/
inductive Frame where
  | array (items : List Json)
  | object (members : List (String × Json)) (key : String)

/-- What may come next, inside the open arrays and objects. -/
inductive Progress where
  /-- A value or, in an array that has just been opened, its end. -/
  | value (stack : List Frame) (orEnd : Bool)
  /-- A key or, in an object that has just been opened, its end. -/
  | key (stack : List Frame) (members : List (String × Json)) (orEnd : Bool)
  /-- The colon after a key. -/
  | colon (stack : List Frame) (members : List (String × Json)) (key : String)
  /-- A comma or the end of what is open, after a value. -/
  | after (stack : List Frame) (value : Json)

/-- How many arrays and objects may be open at once. -/
def maxDepth : Nat := 127

namespace Progress

/-- Take one more token. -/
def step? : Progress → Token → Option Progress
  | .value stack _, .scalar v => some (.after stack v)
  | .value stack _, .string s => some (.after stack (.string s))
  | .value stack _, .openArray =>
    if stack.length < maxDepth then some (.value (.array [] :: stack) true) else none
  | .value stack _, .openObject =>
    if stack.length < maxDepth then some (.key stack [] true) else none
  | .value (.array _ :: stack) true, .closeArray => some (.after stack (.array []))
  | .key stack members _, .string k => some (.colon stack members k)
  | .key stack members true, .closeObject => some (.after stack (.object members))
  | .colon stack members k, .colon => some (.value (.object members k :: stack) false)
  | .after (.array items :: stack) v, .comma =>
    some (.value (.array (items ++ [v]) :: stack) false)
  | .after (.array items :: stack) v, .closeArray =>
    some (.after stack (.array (items ++ [v])))
  | .after (.object members k :: stack) v, .comma =>
    some (.key stack (Rows.put k v members) false)
  | .after (.object members k :: stack) v, .closeObject =>
    some (.after stack (.object (Rows.put k v members)))
  | _, _ => none

/-- The value, once nothing is open any more. -/
def result? : Progress → Option Json
  | .after [] v => some v
  | _ => none

end Progress

/-- The value of a list of tokens. -/
def ofTokens? (tokens : List Token) : Option Json := do
  let progress ← tokens.foldlM Progress.step? (.value [] false)
  progress.result?

/-- The value of a text. -/
def parse? (text : String) : Option Json := do
  ofTokens? (← Token.ofText? text)

end Json

end DashboardAccess
