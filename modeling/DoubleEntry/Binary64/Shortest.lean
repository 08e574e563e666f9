import DoubleEntry.Binary64.Basic
import DoubleEntry.Power
import DoubleEntry.Text.Basic

/-!
# The shortest decimal text of a double

`shortest` finds the fewest decimal digits that still name the double: a decimal names it when it
lies between the midpoints to the neighbouring doubles (ends included for an even mantissa). For
each number of digits, only the two neighbours of the exact value on that decimal grid have to be
tried; of two that qualify the nearer one is taken, and a `Tie` says which at equal distance.

Two layouts follow. `jsonChars` is positional for decimal exponents from -5 to 15 and scientific
outside, with ties to the even digit; `plainChars` is always positional, drops the fraction of a
whole number, and rounds ties up.
-/

namespace DoubleEntry.Binary64

/-! ## Digits -/

/-- The numbers from `low / den` to `high / den`, around `value / den`; `closed` tells whether the
ends belong to it. -/
structure Interval where
  low : Nat
  value : Nat
  high : Nat
  den : Nat
  closed : Bool

/-- The interval of numbers that round to `x`. Below a power of two the lower neighbour is only
half as far away. -/
def interval (x : Binary64) : Interval :=
  let up := pow2 x.exponent.toNat
  let den := 4 * pow2 (-x.exponent).toNat
  let lowGap := if x.mantissa = pow2 52 ∧ x.exponent ≠ minExponent then 1 else 2
  { low := (4 * x.mantissa - lowGap) * up
    value := 4 * x.mantissa * up
    high := (4 * x.mantissa + 2) * up
    den := den
    closed := x.mantissa % 2 == 0 }

/-- `c * 10 ^ k` lies in the interval. -/
def Interval.contains (i : Interval) (c : Nat) (k : Int) : Bool :=
  let lhs := c * pow10 k.toNat * i.den
  let scale := pow10 (-k).toNat
  if i.closed then decide (i.low * scale ≤ lhs ∧ lhs ≤ i.high * scale)
  else decide (i.low * scale < lhs ∧ lhs < i.high * scale)

/-- Where a number half-way between two neighbours goes. -/
inductive Tie where
  | up
  | toEven
deriving DecidableEq

/-- The candidate on the grid of multiples of `10 ^ k`: the nearer neighbour of the value that
lies in the interval. -/
def Interval.onGrid (tie : Tie) (i : Interval) (k : Int) : Option Nat :=
  let n := i.value * pow10 (-k).toNat
  let d := i.den * pow10 k.toNat
  let below := n / d
  let above := below + 1
  let r := n % d
  let first := if 2 * r < d then below else if d < 2 * r then above
    else if tie = .toEven ∧ below % 2 = 0 then below else above
  let second := if first = below then above else below
  if i.contains first k then some first
  else if i.contains second k then some second
  else none

/-- The number of decimal digits before the point of `num / den`, less one: the decimal exponent
of its first digit. -/
def decimalExponent (num den : Nat) : Int :=
  if den ≤ num then ((Text.natChars (num / den)).length : Int) - 1
  else
    -- The first digit of a proper fraction stands where its inverse, rounded up, has its length.
    - ((Text.natChars ((den - 1) / num)).length : Int)

/-- Try one more digit at a time, from `digits` on. -/
def searchDigits (tie : Tie) (i : Interval) (top : Int) (digits : Nat) : Nat → Nat × Int
  | 0 => (i.value * pow10 (- (top - digits + 1)).toNat / (i.den * pow10 (top - digits + 1).toNat),
      top - digits + 1)
  | fuel + 1 =>
    let k := top - digits + 1
    match i.onGrid tie k with
    | some c => if c = 0 then searchDigits tie i top (digits + 1) fuel else (c, k)
    | none => searchDigits tie i top (digits + 1) fuel

/-- Strip trailing zeros from `c * 10 ^ k`. -/
def stripZeros (c : Nat) (k : Int) : Nat → Nat × Int
  | 0 => (c, k)
  | fuel + 1 => if c % 10 = 0 ∧ c ≠ 0 then stripZeros (c / 10) (k + 1) fuel else (c, k)

/-- Digits and exponent of the shortest decimal that names a double other than zero. -/
def shortest (tie : Tie) (x : Binary64) : Nat × Int :=
  let i := x.interval
  let (c, k) := searchDigits tie i (decimalExponent i.value i.den) 1 17
  stripZeros c k 20

/-! ## Layouts -/

/-- Place the point of `digits * 10 ^ k` without an exponent; `whole` closes a number without
fraction digits. -/
def positional (digits : List Char) (k : Int) (whole : List Char) : List Char :=
  if 0 ≤ k then digits ++ List.replicate k.toNat '0' ++ whole
  else
    let n := (-k).toNat
    if n < digits.length then
      digits.take (digits.length - n) ++ '.' :: digits.drop (digits.length - n)
    else '0' :: '.' :: (List.replicate (n - digits.length) '0' ++ digits)

/-- One digit, the point, the others, and the exponent with its sign. -/
def scientific (digits : List Char) (exponent : Int) : List Char :=
  let mantissa := match digits with
    | [] => []
    | [d] => [d]
    | d :: ds => d :: '.' :: ds
  mantissa ++ 'e' :: (if exponent < 0 then '-' else '+') :: Text.natChars exponent.natAbs

/-- The text of a double as a JSON number. -/
def jsonChars (x : Binary64) : List Char :=
  let body :=
    if x.isZero then ['0', '.', '0']
    else
      let (c, k) := x.shortest .toEven
      let digits := Text.natChars c
      let e := k + digits.length - 1
      if -5 ≤ e ∧ e ≤ 15 then positional digits k ['.', '0'] else scientific digits e
  if x.negative then '-' :: body else body

/-- The text of a double without an exponent. -/
def plainChars (x : Binary64) : List Char :=
  let body :=
    if x.isZero then ['0']
    else
      let (c, k) := x.shortest .up
      positional (Text.natChars c) k []
  if x.negative then '-' :: body else body

end DoubleEntry.Binary64
