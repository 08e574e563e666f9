import DoubleEntry.Primitive
import DoubleEntry.Power

/-!
# Numbers of a database

A column may hold a number of any length, while an amount is a decimal. The database sends a number
in groups of four digits, each with its weight, a power of ten thousand. `toDecimal` adds the
groups up from the first one, so digits that do not fit are rounded away, and then brings the sum
to as many fraction digits as the number has, or as there is room for. The zeros this appends may
go past the last place of a decimal (`Stored.zeros`).

What a decimal cannot hold is an error of the column, except that a group which is too large by
itself is an overflow.
-/

namespace DoubleEntry.Database

/-! ## Numbers -/

/-- The number `± magnitude / 10 ^ scale`, with any count of digits. -/
structure Numeric where
  negative : Bool
  magnitude : Nat
  scale : Nat
deriving DecidableEq

/-- A decimal with zeros after its last fraction digit. -/
structure Stored where
  amount : Decimal
  zeros : Nat
deriving DecidableEq

/-- The number has few enough fraction digits to be written. -/
def Stored.isWritable (s : Stored) : Bool := decide (s.amount.scale + s.zeros ≤ Units.maxWritten)

/-- Why a number is no decimal. -/
inductive NumericError where
  | notANumber
  | unrepresentable
deriving DecidableEq

/-- The wording of a number that is no decimal. -/
def NumericError.message : NumericError → String
  | .notANumber => "Decimal does not support NaN values"
  | .unrepresentable => "value not representable as rust_decimal::Decimal"

namespace Numeric

def chars (n : Numeric) : List Char := Decimal.charsOf n.negative n.magnitude n.scale

instance : ToString Numeric := ⟨fun n => String.ofList n.chars⟩

/-- The number written with an optional sign, digits and at most one point. -/
def read? (cs : List Char) : Option Numeric :=
  let (negative, body) := Decimal.takeSign cs
  let whole := body.takeWhile Char.isDigit
  let rest := body.drop whole.length
  let fraction := match rest with
    | '.' :: digits => if digits.all Char.isDigit then some digits else none
    | [] => some []
    | _ => none
  fraction.bind fun fraction =>
    let digits := whole ++ fraction
    if digits.isEmpty then none
    else some ⟨negative, Nat.ofDigitChars 10 digits 0, fraction.length⟩

/-- An amount; zero has no fraction digits. -/
def ofUnits (u : Units) : Numeric :=
  if u.isZero then ⟨false, 0, 0⟩
  else ⟨false, u.amount.coeff.natAbs * pow10 u.zeros, u.amount.scale + u.zeros⟩

/-! ## Groups of four digits -/

theorem div_lt {n : Nat} (h : n ≠ 0) : n / 10000 < n :=
  Nat.div_lt_self (Nat.pos_of_ne_zero h) (by decide)

/-- The groups of a whole number other than zero groups, the first one in front, each with its
weight; the last group weighs `weight`. -/
def groupsOf (n : Nat) (weight : Int) : List (Nat × Int) :=
  if _h : n = 0 then []
  else
    let front := groupsOf (n / 10000) (weight + 1)
    if n % 10000 = 0 then front else front ++ [(n % 10000, weight)]
termination_by n
decreasing_by exact div_lt _h

/-- The groups of a number, the point between two of them. -/
def groups (n : Numeric) : List (Nat × Int) :=
  let places := (n.scale + 3) / 4
  groupsOf (n.magnitude * pow10 (4 * places - n.scale)) (-places)

/-- The decimal `digits * 10000 ^ weight`. Weights have to be within seven of zero. -/
def groupValue (digits : Nat) (weight : Int) : Except (Failure NumericError) Decimal :=
  if weight < -7 ∨ 7 < weight then .error (.error .unrepresentable)
  else
    match Decimal.make? (digits * pow10 (4 * weight).toNat) (4 * -weight).toNat with
    | some d => .ok d
    | none => .error .overflow

/-- Add a group to the sum of the groups in front of it. -/
def addGroup (sum : Decimal) (group : Nat × Int) : Except (Failure NumericError) Decimal := do
  match sum.add (← groupValue group.1 group.2) with
  | some d => pure d
  | none => throw (.error .unrepresentable)

/-! ## Fraction digits -/

/-- The most zeros, up to the given number of them, that fit behind a magnitude. -/
def room (magnitude : Nat) : Nat → Nat
  | 0 => 0
  | k + 1 => if magnitude * pow10 (k + 1) < Decimal.bound then k + 1 else room magnitude k

/-- A decimal that is not negative, at `digits` fraction digits: rounded to fewer, five upwards,
or with as many zeros appended as there is room for. -/
def atScale? (d : Decimal) (digits : Nat) : Option Stored :=
  if digits ≤ d.scale then
    (Decimal.make? (d.magnitudeAt digits) digits).map fun e => ⟨e, 0⟩
  else
    let appended := room d.coeff.natAbs (Nat.min (digits - d.scale) Decimal.maxScale)
    let zeros := d.scale + appended - Decimal.maxScale
    (Decimal.make? (d.coeff * pow10 (appended - zeros)) (d.scale + appended - zeros)).map
      fun e => ⟨e, zeros⟩

/-- The decimal that stands for a number; a zero has no fraction digits. -/
def toDecimal (n : Numeric) : Except (Failure NumericError) Stored :=
  if n.magnitude = 0 then .ok ⟨.zero, 0⟩
  else do
    match atScale? (← n.groups.foldlM addGroup .zero) n.scale with
    | some s => pure (if n.negative then { s with amount := s.amount.neg } else s)
    | none => throw .overflow

end Numeric

/-! ## Totals -/

/-- Add a decimal other than zero to a total that goes past the last place of one. Two small
coefficients are added as they stand. Otherwise the sum counts its places from the start again
once it has more than 28 of them; one that does not fit gives up digits, first of all those past
the last place. -/
def addPastLastPlace (total : Stored) (d : Decimal) : Option Stored :=
  let places := total.amount.scale + total.zeros
  let a := total.amount.coeff.natAbs * pow10 total.zeros
  let b := d.coeff.natAbs * pow10 (places - d.scale)
  let cycle := Decimal.maxScale + 1
  let plain (e : Decimal) : Stored := ⟨e, 0⟩
  if a < pow2 32 ∧ b < pow2 32 then
    (Decimal.make? ((a + b) / pow10 total.zeros : Nat) total.amount.scale).map
      fun e => ⟨e, total.zeros⟩
  else if a + b < Decimal.bound then (Decimal.make? (a + b : Nat) (places % cycle)).map plain
  else if b < Decimal.bound then
    (Decimal.make? (Decimal.roundHalfEven (a + b) 1 : Nat) ((places - 1) % cycle)).map plain
  else
    (Decimal.fitFrom (a + b : Nat) (places - Decimal.maxScale) Decimal.maxScale).map plain

/-- Add an amount to a total out of a table. -/
def addToTotal (total units : Units) : Except ValueError Units :=
  if total.zeros = 0 then total.add units
  else if units.isZero then .ok total
  else
    match addPastLastPlace ⟨total.amount, total.zeros⟩ units.amount with
    | some s => Units.ofStored s.amount s.zeros
    | none => .error (.unitsOverflow total.amount units.amount)

end DoubleEntry.Database
