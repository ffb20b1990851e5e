/-
# Reading numbers

The grammar of JSON numbers, and their values: an integer if it is written as one
and has at most 64 bits with its sign, else a binary number.  A binary number is
made from at most 64 bits of leading digits; it is their nearest number times or
divided by a power of ten, rounded at each step.

* `Number.parse?` : the value of a text that is a number as a whole.
-/
import DashboardAccess.Json
import DashboardAccess.WordSize

namespace DashboardAccess

namespace Json

namespace Number

/-! ## Digits -/

/-- The value of a decimal digit. -/
def digitValue (c : Char) : Nat :=
  c.toNat - '0'.toNat

/-- The number that a text of digits spells. -/
def value (digits : List Char) : Nat :=
  digits.foldl (fun n c => 10 * n + digitValue c) 0

/-- Append digits to a number as long as it stays below `2 ^ 64`; the number, and
how many digits were appended. -/
def appendDigits (n : Nat) : List Char → Nat × Nat
  | [] => (n, 0)
  | c :: rest =>
    let m := 10 * n + digitValue c
    if m < UInt64.size then
      let (m, count) := appendDigits m rest
      (m, count + 1)
    else (n, 0)

/-! ## Powers of ten -/

/-- The nearest number to a power of ten with an exponent up to 308. -/
def power (e : Nat) : Option Binary64 :=
  Binary64.ofNat (Binary64.tenPow e)

/-- Divide by a power of ten, by at most `10 ^ 308` in each step. -/
def divide (x : Binary64) (e : Nat) : Option Binary64 :=
  if e ≤ 308 then do x.div (← power e)
  else if x.mantissa = 0 then some x
  else do
    let y ← x.div (← power 308)
    divide y (e - 308)
termination_by e

/-- A number times a power of ten; nothing if it gets too great. -/
def shifted (n : Nat) (e : Int) : Option Binary64 := do
  let x ← Binary64.ofNat n
  if e < 0 then divide x e.natAbs
  else if e ≤ 308 then x.mul (← power e.natAbs)
  else if x.mantissa = 0 then some x
  else none

/-! ## Numbers -/

/-- A number taken apart: its sign, the digits before and after the point, and the
sign and digits of the exponent. -/
structure Literal where
  negative : Bool
  whole : List Char
  fraction : Option (List Char)
  exponent : Option (Bool × List Char)
deriving DecidableEq, Repr

/-- Take a number apart.  It has digits before the point, without a leading zero,
and, if there is a point or an exponent, digits after it. -/
def literal? (cs : List Char) : Option Literal := do
  let (negative, cs) := match cs with
    | '-' :: rest => (true, rest)
    | _ => (false, cs)
  let whole := cs.takeWhile Char.isDigit
  let cs := cs.dropWhile Char.isDigit
  if whole.isEmpty || (whole.head? = some '0' && whole.length ≠ 1) then none else
  let (fraction, cs) := match cs with
    | '.' :: rest => (some (rest.takeWhile Char.isDigit), rest.dropWhile Char.isDigit)
    | _ => (none, cs)
  if fraction = some [] then none else
  let (exponent, cs) := match cs with
    | 'e' :: rest => exponentOf rest
    | 'E' :: rest => exponentOf rest
    | _ => (none, cs)
  if exponent.map (·.2) = some [] then none else
  if cs.isEmpty then some ⟨negative, whole, fraction, exponent⟩ else none
where
  /-- The sign and digits of an exponent, and what follows them. -/
  exponentOf (cs : List Char) : Option (Bool × List Char) × List Char :=
    let (negative, cs) := match cs with
      | '-' :: rest => (true, rest)
      | '+' :: rest => (false, rest)
      | _ => (false, cs)
    (some (negative, cs.takeWhile Char.isDigit), cs.dropWhile Char.isDigit)

/-- The greatest exponent that is read; a greater one leads to zero or out of
range. -/
def maxExponent : Nat := 0x7FFFFFFF

/-- The value of a number that is taken apart; nothing if it is too great. -/
def Literal.number? (l : Literal) : Option Number := do
  let (n, count) := appendDigits 0 l.whole
  let dropped := l.whole.length - count
  let (m, places) := appendDigits n (l.fraction.getD [])
  let real (n : Nat) (e : Int) : Option Number := (shifted n e).map (Number.real l.negative)
  match l.fraction, l.exponent with
  | none, none =>
    let signed : Int := if l.negative then -n else n
    if dropped = 0 ∧ isInt64 signed = true ∧ (n = 0 → l.negative = false) then
      some (.integer signed)
    else real n dropped
  | _, none => real m (dropped - places)
  | _, some (down, digits) =>
    let e := value digits
    if maxExponent < e then
      if m ≠ 0 ∧ down = false then none else some (.real l.negative Binary64.zero)
    else real m (dropped - places + (if down then -(e : Int) else e))

/-- The value of a text that is a number as a whole. -/
def parse? (cs : List Char) : Option Number := do
  (← literal? cs).number?

end Number

end Json

end DashboardAccess
