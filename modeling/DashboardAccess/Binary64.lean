/-
# Binary floating-point numbers

Finite numbers `mantissa * 2 ^ exponent` with 53 binary digits and bounded
exponents, in exact integer arithmetic, without their sign.

* `Binary64.ofRatio` : the nearest number to a ratio, ties to the even mantissa;
* `Binary64.digits` : the fewest decimal digits that tell a number from its
  neighbours, and of those the nearest to it;
* `Binary64.text` : these digits without an exponent.
-/

namespace DashboardAccess

/-- A finite number `mantissa * 2 ^ exponent`.  In lowest form the mantissa has 53
binary digits, or fewer at the least exponent, -1074. -/
structure Binary64 where
  mantissa : Nat
  exponent : Int
deriving DecidableEq, Repr

namespace Binary64

/-! ## Rounding -/

/-- The integer nearest to a ratio; a half goes to the even neighbour. -/
def roundDiv (num den : Nat) : Nat :=
  let q := num / den
  let r := num % den
  if 2 * r < den ∨ (2 * r = den ∧ q % 2 = 0) then q else q + 1

/-- A ratio times a power of two, as a ratio. -/
def scale (num den : Nat) (power : Int) : Nat × Nat :=
  if 0 ≤ power then (num <<< power.toNat, den) else (num, den <<< (-power).toNat)

/-- The greatest power of two that is not greater than a positive ratio, as an
exponent. -/
def log2Ratio (num den : Nat) : Int :=
  let guess : Int := (num.log2 : Int) - den.log2
  let (n, d) := scale num den (-guess)
  if n < d then guess - 1 else guess

/-- Zero. -/
def zero : Binary64 := ⟨0, -1074⟩

/-- The number nearest to a ratio, or nothing if it is too great. -/
def ofRatio (num den : Nat) : Option Binary64 :=
  if num = 0 then some zero
  else
    let e := max (log2Ratio num den - 52) (-1074)
    let (n, d) := scale num den (-e)
    let m := roundDiv n d
    let x : Binary64 := if m = 1 <<< 53 then ⟨1 <<< 52, e + 1⟩ else ⟨m, e⟩
    if 971 < x.exponent then none else some x

/-- The number nearest to a natural number. -/
def ofNat (n : Nat) : Option Binary64 :=
  ofRatio n 1

/-- The number as a ratio. -/
def ratio (x : Binary64) : Nat × Nat :=
  scale x.mantissa 1 x.exponent

/-- The number nearest to a product. -/
def mul (x y : Binary64) : Option Binary64 :=
  let (n, d) := scale (x.mantissa * y.mantissa) 1 (x.exponent + y.exponent)
  ofRatio n d

/-- The number nearest to a quotient. -/
def div (x y : Binary64) : Option Binary64 :=
  let (n, d) := scale x.mantissa y.mantissa (x.exponent - y.exponent)
  ofRatio n d

/-! ## Shortest decimal digits -/

/-- A power of ten. -/
def tenPow (k : Nat) : Nat :=
  Nat.pow 10 k

/-- The ratios between which every real number is nearest to `x`, in quarters of
the unit in its last place: a half below and above, or a quarter below a mantissa
at the lower end of a binade. -/
def quarters (x : Binary64) : Nat × Nat :=
  if x.mantissa = 1 <<< 52 ∧ -1074 < x.exponent then
    (4 * x.mantissa - 1, 4 * x.mantissa + 2)
  else (4 * x.mantissa - 2, 4 * x.mantissa + 2)

/-- Whether `n * 10 ^ k` is nearest to `x`; the ends of the interval belong to an
even mantissa. -/
def owns (x : Binary64) (n : Nat) (k : Int) : Bool :=
  let (low, high) := x.quarters
  let value := if 0 ≤ k then (n * tenPow k.toNat, 1) else (n, tenPow (-k).toNat)
  let (vn, vd) := scale value.1 value.2 (2 - x.exponent)
  if x.mantissa % 2 = 0 then decide (low * vd ≤ vn ∧ vn ≤ high * vd)
  else decide (low * vd < vn ∧ vn < high * vd)

/-- The number divided by `10 ^ k`, as a ratio. -/
def overPower (x : Binary64) (k : Int) : Nat × Nat :=
  let (n, d) := x.ratio
  if 0 ≤ k then (n, d * tenPow k.toNat) else (n * tenPow (-k).toNat, d)

/-- The neighbour of `x` on the grid of multiples of `10 ^ k` that is nearest to
`x`, of those that tell it apart; a tie goes to the upper one. -/
def onGrid (x : Binary64) (k : Int) : Option Nat :=
  let (n, d) := x.overPower k
  let low := n / d
  match x.owns low k, x.owns (low + 1) k with
  | true, true => if 2 * (n % d) < d then some low else some (low + 1)
  | true, false => some low
  | false, true => some (low + 1)
  | false, false => none

/-- The first of several grids, each ten times finer than the one before, on which
a neighbour of `x` tells it apart. -/
def firstGrid (x : Binary64) (k : Int) : Nat → Nat × Int
  | 0 => ((x.overPower k).1 / (x.overPower k).2, k)
  | tries + 1 =>
    match x.onGrid k with
    | some n => (n, k)
    | none => firstGrid x (k - 1) tries

/-- The exponent of the first decimal digit of a positive number. -/
def decimalExponent (x : Binary64) : Int :=
  let (n, d) := x.ratio
  if d ≤ n then ((Nat.toDigits 10 (n / d)).length : Int) - 1
  else
    let k := (Nat.toDigits 10 (d / n)).length
    if d ≤ n * tenPow (k - 1) then -((k : Int) - 1) else -(k : Int)

/-- The fewest digits that tell a positive number apart, as `n * 10 ^ k`. -/
def digits (x : Binary64) : Nat × Int :=
  firstGrid x x.decimalExponent 17

/-! ## Text -/

/-- `n * 10 ^ k` without an exponent; zeros at the end of the fraction and a point
without a fraction are left out. -/
def positional (n : Nat) (k : Int) : String :=
  if 0 ≤ k then toString (n * tenPow k.toNat)
  else
    let places := (-k).toNat
    let ds := Nat.toDigits 10 n
    let ds := List.replicate (places + 1 - ds.length) '0' ++ ds
    let whole := ds.take (ds.length - places)
    let fraction := ((ds.drop (ds.length - places)).reverse.dropWhile (· = '0')).reverse
    if fraction.isEmpty then String.ofList whole
    else String.ofList (whole ++ '.' :: fraction)

/-- The shortest text of a number. -/
def text (x : Binary64) : String :=
  if x.mantissa = 0 then "0"
  else positional x.digits.1 x.digits.2

end Binary64

end DashboardAccess
