/-
# Tokens of JSON text

Text is read character by character: a `Mode` says what the characters so far are
part of, and `Mode.step` gives the tokens that one more character completes.

* `Token.ofText?` : the tokens of a text; nothing if it has a part that is none;
* `joinUnits` : the characters of a string with escaped code units.
-/
import DashboardAccess.Json.Number

namespace DashboardAccess

namespace Json

/-- A token: a bracket or mark, a string, or any other value without parts. -/
inductive Token where
  | openArray
  | closeArray
  | openObject
  | closeObject
  | comma
  | colon
  | string (s : String)
  | scalar (value : Json)

/-! ## Strings -/

/-- A piece of a string: a character, or a code unit given by number. -/
inductive Piece where
  | char (c : Char)
  | unit (n : Nat)
deriving DecidableEq, Repr

/-- Whether a code unit is the first half of a character. -/
def isHighSurrogate (n : Nat) : Bool :=
  decide (0xD800 ≤ n ∧ n < 0xDC00)

/-- Whether a code unit is the second half of a character. -/
def isLowSurrogate (n : Nat) : Bool :=
  decide (0xDC00 ≤ n ∧ n < 0xE000)

/-- The characters of a string; nothing if half a character stands alone. -/
def joinUnits : List Piece → Option (List Char)
  | [] => some []
  | .char c :: rest => (joinUnits rest).map (c :: ·)
  | .unit n :: rest =>
    if isHighSurrogate n then
      match rest with
      | .unit m :: rest =>
        if isLowSurrogate m then
          (joinUnits rest).map
            (Char.ofNat (0x10000 + (n - 0xD800) * 0x400 + (m - 0xDC00)) :: ·)
        else none
      | _ => none
    else if isLowSurrogate n then none
    else (joinUnits rest).map (Char.ofNat n :: ·)

/-- The character that a backslash and a letter stand for. -/
def escaped? (c : Char) : Option Char :=
  if c = '"' ∨ c = '\\' ∨ c = '/' then some c
  else if c = 'b' then some '\x08'
  else if c = 'f' then some '\x0c'
  else if c = 'n' then some '\n'
  else if c = 'r' then some '\r'
  else if c = 't' then some '\t'
  else none

/-- The value of a hexadecimal digit. -/
def hexValue? (c : Char) : Option Nat :=
  if c.isDigit then some (c.toNat - '0'.toNat)
  else if 'a' ≤ c ∧ c ≤ 'f' then some (c.toNat - 'a'.toNat + 10)
  else if 'A' ≤ c ∧ c ≤ 'F' then some (c.toNat - 'A'.toNat + 10)
  else none

/-! ## Reading -/

/-- What the characters read last are part of; they are kept backwards. -/
inductive Mode where
  /-- Nothing: the last token is complete. -/
  | between
  /-- A word. -/
  | word (letters : List Char)
  /-- A number. -/
  | number (signs : List Char)
  /-- A string. -/
  | string (pieces : List Piece)
  /-- A string after a backslash. -/
  | escape (pieces : List Piece)
  /-- A string after some of the four digits of a code unit. -/
  | unit (pieces : List Piece) (value count : Nat)

/-- The blanks that may stand between tokens. -/
def isBlank (c : Char) : Bool :=
  c = ' ' || c = '\t' || c = '\n' || c = '\r'

/-- The characters that numbers are made of. -/
def isNumeric (c : Char) : Bool :=
  c.isDigit || c = '-' || c = '+' || c = '.' || c = 'e' || c = 'E'

/-- The value that a word names. -/
def wordValue? (letters : List Char) : Option Json :=
  if letters = "true".toList then some (.bool true)
  else if letters = "false".toList then some (.bool false)
  else if letters = "null".toList then some .null
  else none

namespace Mode

/-- The token completed and the mode entered by a character after a token. -/
def start? (c : Char) : Option (List Token × Mode) :=
  if isBlank c then some ([], .between)
  else if c = '[' then some ([.openArray], .between)
  else if c = ']' then some ([.closeArray], .between)
  else if c = '\x7b' then some ([.openObject], .between)
  else if c = '\x7d' then some ([.closeObject], .between)
  else if c = ',' then some ([.comma], .between)
  else if c = ':' then some ([.colon], .between)
  else if c = '"' then some ([], .string [])
  else if c = '-' ∨ c.isDigit then some ([], .number [c])
  else if c.isAlpha then some ([], .word [c])
  else none

/-- The token that ends where the text ends or another token starts. -/
def finish? : Mode → Option (List Token)
  | .between => some []
  | .word letters => (wordValue? letters.reverse).map fun v => [.scalar v]
  | .number signs => (Number.parse? signs.reverse).map fun n => [.scalar (.number n)]
  | _ => none

/-- The tokens completed and the mode entered by a character. -/
def step? (mode : Mode) (c : Char) : Option (List Token × Mode) :=
  match mode with
  | .between => start? c
  | .word letters => if c.isAlpha then some ([], .word (c :: letters)) else restart mode c
  | .number signs => if isNumeric c then some ([], .number (c :: signs)) else restart mode c
  | .string pieces =>
    if c = '"' then do
      some ([.string (String.ofList (← joinUnits pieces.reverse))], .between)
    else if c = '\\' then some ([], .escape pieces)
    else if c.toNat < 0x20 then none
    else some ([], .string (.char c :: pieces))
  | .escape pieces =>
    if c = 'u' then some ([], .unit pieces 0 0)
    else do some ([], .string (.char (← escaped? c) :: pieces))
  | .unit pieces value count => do
    let n := 16 * value + (← hexValue? c)
    if count = 3 then some ([], .string (.unit n :: pieces))
    else some ([], .unit pieces n (count + 1))
where
  /-- A character that ends the token before it. -/
  restart (mode : Mode) (c : Char) : Option (List Token × Mode) := do
    let done ← mode.finish?
    let (tokens, next) ← start? c
    some (done ++ tokens, next)

/-- The tokens of a text that is read in a mode. -/
def tokens? (mode : Mode) : List Char → Option (List Token)
  | [] => mode.finish?
  | c :: rest => do
    let (done, next) ← mode.step? c
    let more ← tokens? next rest
    some (done ++ more)

end Mode

/-- The tokens of a text; nothing if it has a part that is none. -/
def Token.ofText? (text : String) : Option (List Token) :=
  Mode.between.tokens? text.toList

end Json

end DashboardAccess
