import DoubleEntry.Power

/-!
# Decimal numbers with a 96-bit coefficient

A `Decimal` is `coeff / 10 ^ scale` with a coefficient below `2 ^ 96` in magnitude and at most 28
fraction digits. The scale is part of the value (`1.50` keeps its zero) but not of its size:
comparison goes by the number denoted. A zero that is left of a negative number may keep a minus
sign in its written form (`signedZero`); no sum or comparison depends on it.

**Sums.** `add` is exact at the larger scale as long as the coefficient fits; otherwise it drops
the fewest fraction digits that make it fit, rounding half to even once on the exact sum
(`fit`), and has no result when even the whole part does not fit. Adding to a zero gives the other
operand as it stands.
-/

namespace DoubleEntry

/-- The magnitude of a coefficient stays below this. -/
def Decimal.bound : Nat := pow2 96

def Decimal.maxScale : Nat := 28

/-- The number `coeff / 10 ^ scale`. -/
structure Decimal where
  coeff : Int
  scale : Nat
  /-- A zero that is written with a minus sign. -/
  signedZero : Bool
  coeff_lt : coeff.natAbs < Decimal.bound
  scale_le : scale ≤ Decimal.maxScale
  coeff_eq_zero : signedZero = true → coeff = 0
deriving DecidableEq

namespace Decimal

/-! ## Making decimals -/

theorem coeff_eq_zero_of_unsigned {coeff : Int} (h : false = true) : coeff = 0 :=
  absurd h Bool.false_ne_true

/-- The decimal with a coefficient and a scale within bounds; a zero has no sign. -/
def ofCoeff (coeff : Int) (scale : Nat) (coeff_lt : coeff.natAbs < bound)
    (scale_le : scale ≤ maxScale) : Decimal :=
  ⟨coeff, scale, false, coeff_lt, scale_le, coeff_eq_zero_of_unsigned⟩

/-- The decimal with this coefficient and scale, if both are within bounds. -/
def make? (coeff : Int) (scale : Nat) : Option Decimal :=
  if hc : coeff.natAbs < bound then
    if hs : scale ≤ maxScale then some (ofCoeff coeff scale hc hs) else none
  else none

/-- The zero with a minus sign and this scale, if that is within bounds. -/
def minusZero? (scale : Nat) : Option Decimal :=
  if hs : scale ≤ maxScale then some ⟨0, scale, true, by decide, hs, fun _ => rfl⟩ else none

/-- Zero without fraction digits. -/
def zero : Decimal := ofCoeff 0 0 (by decide) (by decide)

def max : Decimal := ofCoeff (pow2 96 - 1) 0 (by decide) (by decide)

/-- A whole number, if it is within bounds. -/
def ofInt? (i : Int) : Option Decimal := make? i 0

/-! ## Order -/

/-- The coefficient on a grid of `digits` fraction digits. -/
def scaled (d : Decimal) (digits : Nat) : Int := d.coeff * pow10 (digits - d.scale)

/-- Compare the numbers denoted, whatever the scales. -/
def compare (a b : Decimal) : Ordering :=
  let s := Nat.max a.scale b.scale
  Ord.compare (a.scaled s) (b.scaled s)

def same (a b : Decimal) : Bool := a.compare b == .eq

/-- The number denoted is zero. -/
def isZero (d : Decimal) : Bool := d.coeff == 0

/-- The number denoted is below zero. -/
def isNegative (d : Decimal) : Bool := decide (d.coeff < 0)

/-! ## Rounding and sums -/

/-- `n / 10 ^ k` rounded to the nearest whole number, a half going to the even neighbour. -/
def roundHalfEven (n : Nat) (k : Nat) : Nat :=
  let q := n / pow10 k
  let r := n % pow10 k
  if 2 * r < pow10 k then q
  else if pow10 k < 2 * r then q + 1
  else if q % 2 == 0 then q else q + 1

/-- `roundHalfEven` on the magnitude. -/
def roundInt (i : Int) (k : Nat) : Int :=
  if i < 0 then - (roundHalfEven i.natAbs k : Int) else (roundHalfEven i.natAbs k : Int)

/-- With `dropped` digits already given up, the first decimal at or below `scale` whose rounded
coefficient fits. -/
def fitFrom (coeff : Int) (dropped : Nat) : Nat → Option Decimal
  | 0 => make? (roundInt coeff dropped) 0
  | scale + 1 =>
    match make? (roundInt coeff dropped) (scale + 1) with
    | some d => some d
    | none => fitFrom coeff (dropped + 1) scale

/-- `coeff / 10 ^ scale` with the fewest fraction digits dropped that make it fit. -/
def fit (coeff : Int) (scale : Nat) : Option Decimal := fitFrom coeff 0 scale

theorem natAbs_neg_coeff_lt (d : Decimal) : (-d.coeff).natAbs < bound :=
  Int.natAbs_neg d.coeff ▸ d.coeff_lt

theorem neg_coeff_eq_zero (d : Decimal) (h : d.signedZero = true) : -d.coeff = 0 :=
  Int.neg_eq_zero.mpr (d.coeff_eq_zero h)

/-- The negated number at the same scale; a zero stays as it is written. -/
def neg (d : Decimal) : Decimal :=
  ⟨-d.coeff, d.scale, d.signedZero, d.natAbs_neg_coeff_lt, d.scale_le, d.neg_coeff_eq_zero⟩

/-- The sum, if it fits. -/
def add (a b : Decimal) : Option Decimal :=
  if a.isZero then some b
  else if b.isZero then some a
  else
    let s := Nat.max a.scale b.scale
    fit (a.scaled s + b.scaled s) s

/-- The difference, if it fits. -/
def sub (a b : Decimal) : Option Decimal := a.add b.neg

/-! ## Signs of sums -/

theorem make?_eq_some {c : Int} {s : Nat} {d : Decimal} (h : make? c s = some d) :
    d.coeff = c ∧ d.scale = s := by
  unfold make? at h
  split at h
  · split at h
    · cases h; exact ⟨rfl, rfl⟩
    · cases h
  · cases h

theorem roundInt_nonneg {i : Int} (h : 0 ≤ i) (k : Nat) : 0 ≤ roundInt i k := by
  unfold roundInt
  rw [if_neg (by omega)]
  omega

theorem fitFrom_nonneg {c : Int} (h : 0 ≤ c) {s : Nat} :
    ∀ {k : Nat} {d : Decimal}, fitFrom c k s = some d → 0 ≤ d.coeff := by
  induction s with
  | zero =>
    intro k d hd
    rw [(make?_eq_some hd).1]
    exact roundInt_nonneg h k
  | succ s ih =>
    intro k d hd
    unfold fitFrom at hd
    split at hd
    · next e he =>
      cases hd
      rw [(make?_eq_some he).1]
      exact roundInt_nonneg h k
    · exact ih hd

theorem scaled_nonneg {d : Decimal} (h : 0 ≤ d.coeff) (s : Nat) : 0 ≤ d.scaled s :=
  Int.mul_nonneg h (Int.natCast_nonneg _)

/-- The sum of two numbers that are not negative is not negative. -/
theorem add_nonneg {a b c : Decimal} (ha : 0 ≤ a.coeff) (hb : 0 ≤ b.coeff)
    (h : a.add b = some c) : 0 ≤ c.coeff := by
  unfold add at h
  split at h
  · cases h; exact hb
  · split at h
    · cases h; exact ha
    · exact fitFrom_nonneg (Int.add_nonneg (scaled_nonneg ha _) (scaled_nonneg hb _)) h

end Decimal

end DoubleEntry
