import DoubleEntry.Power

/-!
# Binary floating-point numbers

A `Binary64` is a finite IEEE 754 double given exactly: sign, whole mantissa below `2 ^ 53` and
binary exponent. It is canonical: either the mantissa has all its 53 bits or the exponent is the
least one. `0.0` and `-0.0` differ as data and compare equal (`same`).

`round` takes the quotient of two whole numbers to the nearest double, ties to the even mantissa.
All arithmetic here is exact arithmetic followed by one `round`. What is rounded lies between
`2 ^ 52` and `2 ^ 53` times the unit of its exponent (`le_scale_exponentFor`,
`scale_exponentFor_lt`), so the double that comes out is canonical.
-/

namespace DoubleEntry

namespace Binary64

def minExponent : Int := -1074

def maxExponent : Int := 971

/-- Canonical and within the range of finite doubles. -/
def IsCanonical (mantissa : Nat) (exponent : Int) : Prop :=
  mantissa < pow2 53 ∧ minExponent ≤ exponent ∧ exponent ≤ maxExponent ∧
    (pow2 52 ≤ mantissa ∨ exponent = minExponent)

end Binary64

/-- The double `± mantissa * 2 ^ exponent`. -/
structure Binary64 where
  negative : Bool
  mantissa : Nat
  exponent : Int
  canonical : Binary64.IsCanonical mantissa exponent
deriving DecidableEq, Repr

namespace Binary64

theorem isCanonical_zero : IsCanonical 0 minExponent :=
  ⟨pow2_pos 53, Int.le_refl _, by decide, Or.inr rfl⟩

def zero : Binary64 := ⟨false, 0, minExponent, isCanonical_zero⟩

def isZero (x : Binary64) : Bool := x.mantissa == 0

/-- Numeric equality: the two zeros are equal. -/
def same (x y : Binary64) : Bool := (x.isZero && y.isZero) || x == y

def neg (x : Binary64) : Binary64 := { x with negative := !x.negative }

/-! ## Scaling -/

/-- The number times `2 ^ e` for an exponent from zero on, else the number itself. -/
def scale (n : Nat) (e : Int) : Nat := n * pow2 e.toNat

theorem scale_of_nonpos (n : Nat) {e : Int} (h : e ≤ 0) : scale n e = n := by
  unfold scale
  rw [Int.toNat_of_nonpos h, pow2_zero, Nat.mul_one]

theorem scale_succ (n : Nat) {e : Int} (h : 0 ≤ e) : scale n (e + 1) = scale n e * 2 := by
  unfold scale
  rw [Int.toNat_add h (by decide), show (1 : Int).toNat = 1 from rfl, pow2_succ, Nat.mul_assoc]

theorem scale_mono (n : Nat) {e e' : Int} (h : e ≤ e') : scale n e ≤ scale n e' :=
  Nat.mul_le_mul_left n (pow2_le (Int.toNat_le_toNat h))

theorem scale_pos {n : Nat} (h : 0 < n) (e : Int) : 0 < scale n e := Nat.mul_pos h (pow2_pos _)

/-- Numerator of the magnitude. -/
def num (x : Binary64) : Nat := scale x.mantissa x.exponent

/-- Denominator of the magnitude. -/
def den (x : Binary64) : Nat := scale 1 (-x.exponent)

/-! ## The exponent of a quotient -/

/-- An exponent at which `num / den` has 52 or 53 bits. -/
def guess (num den : Nat) : Int := (num.log2 : Int) - (den.log2 : Int) - 52

section Guess

variable {num den : Nat}

theorem scale_guess_lt (hden : den ≠ 0) :
    scale num (-guess num den) < scale den (guess num den) * pow2 53 := by
  have hlow := pow2_log2_le hden
  rcases Int.le_total 0 (guess num den) with hg | hg
  · rw [scale_of_nonpos num (by omega)]
    calc num < pow2 (num.log2 + 1) := lt_pow2_log2 num
      _ = pow2 den.log2 * pow2 (guess num den).toNat * pow2 53 := by
        rw [← pow2_add, ← pow2_add]
        unfold guess at *
        exact congrArg pow2 (by omega)
      _ ≤ den * pow2 (guess num den).toNat * pow2 53 :=
        Nat.mul_le_mul_right _ (Nat.mul_le_mul_right _ hlow)
  · rw [scale_of_nonpos den hg]
    calc num * pow2 (-guess num den).toNat
        < pow2 (num.log2 + 1) * pow2 (-guess num den).toNat :=
          Nat.mul_lt_mul_of_pos_right (lt_pow2_log2 num) (pow2_pos _)
      _ = pow2 den.log2 * pow2 53 := by
        rw [← pow2_add, ← pow2_add]
        unfold guess at *
        exact congrArg pow2 (by omega)
      _ ≤ den * pow2 53 := Nat.mul_le_mul_right _ hlow

theorem le_scale_guess (hnum : num ≠ 0) :
    scale den (guess num den) * pow2 51 ≤ scale num (-guess num den) := by
  have hlow := pow2_log2_le hnum
  have hhigh := Nat.le_of_lt (lt_pow2_log2 den)
  rcases Int.le_total 0 (guess num den) with hg | hg
  · rw [scale_of_nonpos num (by omega)]
    calc den * pow2 (guess num den).toNat * pow2 51
        ≤ pow2 (den.log2 + 1) * pow2 (guess num den).toNat * pow2 51 :=
          Nat.mul_le_mul_right _ (Nat.mul_le_mul_right _ hhigh)
      _ = pow2 num.log2 := by
        rw [← pow2_add, ← pow2_add]
        unfold guess at *
        exact congrArg pow2 (by omega)
      _ ≤ num := hlow
  · rw [scale_of_nonpos den hg]
    calc den * pow2 51 ≤ pow2 (den.log2 + 1) * pow2 51 := Nat.mul_le_mul_right _ hhigh
      _ = pow2 num.log2 * pow2 (-guess num den).toNat := by
        rw [← pow2_add, ← pow2_add]
        unfold guess at *
        exact congrArg pow2 (by omega)
      _ ≤ num * pow2 (-guess num den).toNat := Nat.mul_le_mul_right _ hlow

/-- With the exponent one less, the quotient is twice as large. -/
theorem scale_pred (num den : Nat) (e : Int) :
    scale num (-(e - 1)) = scale num (-e) ∧ scale den e = scale den (e - 1) * 2 ∨
      scale num (-(e - 1)) = scale num (-e) * 2 ∧ scale den e = scale den (e - 1) := by
  rcases Int.lt_or_le 0 e with he | he
  · refine Or.inl ⟨?_, ?_⟩
    · rw [scale_of_nonpos num (by omega), scale_of_nonpos num (by omega)]
    · rw [← scale_succ den (by omega), Int.sub_add_cancel]
  · refine Or.inr ⟨?_, ?_⟩
    · rw [← scale_succ num (by omega), show -(e - 1) = -e + 1 by omega]
    · rw [scale_of_nonpos den he, scale_of_nonpos den (by omega)]

theorem scale_pred_lt {e : Int} {k : Nat} (h : scale num (-e) < scale den e * pow2 k) :
    scale num (-(e - 1)) < scale den (e - 1) * pow2 (k + 1) := by
  rw [pow2_succ, ← Nat.mul_assoc]
  rcases scale_pred num den e with ⟨hn, hd⟩ | ⟨hn, hd⟩
  · rwa [hn, ← Nat.mul_right_comm, ← hd]
  · rw [hd] at h
    omega

theorem le_scale_pred {e : Int} {k : Nat} (h : scale den e * pow2 k ≤ scale num (-e)) :
    scale den (e - 1) * pow2 (k + 1) ≤ scale num (-(e - 1)) := by
  rw [pow2_succ, ← Nat.mul_assoc]
  rcases scale_pred num den e with ⟨hn, hd⟩ | ⟨hn, hd⟩
  · rwa [hn, ← Nat.mul_right_comm, ← hd]
  · rw [hd] at h
    omega

end Guess

/-- The binary exponent at which `num / den` has 53 bits: the guess, unless the quotient of the
leading bits falls one short. -/
def fullExponent (num den : Nat) : Int :=
  let g := guess num den
  if scale num (-g) / scale den g < pow2 52 then g - 1 else g

/-- The exponent of the last bit kept of `num / den`: that of 53 bits, or the least exponent. -/
def exponentFor (num den : Nat) : Int :=
  if fullExponent num den < minExponent then minExponent else fullExponent num den

section Exponent

variable {num den : Nat}

theorem scale_fullExponent_lt (hden : den ≠ 0) :
    scale num (-fullExponent num den) < scale den (fullExponent num den) * pow2 53 := by
  have hpos := scale_pos (Nat.pos_of_ne_zero hden) (guess num den)
  unfold fullExponent
  dsimp only
  split
  · next hshort =>
    refine scale_pred_lt ?_
    rw [Nat.mul_comm]
    exact (Nat.div_lt_iff_lt_mul hpos).mp hshort
  · exact scale_guess_lt hden

theorem le_scale_fullExponent (hnum : num ≠ 0) (hden : den ≠ 0) :
    scale den (fullExponent num den) * pow2 52 ≤ scale num (-fullExponent num den) := by
  have hpos := scale_pos (Nat.pos_of_ne_zero hden) (guess num den)
  unfold fullExponent
  dsimp only
  split
  · exact le_scale_pred (le_scale_guess hnum)
  · next hfull =>
    rw [Nat.mul_comm]
    exact (Nat.le_div_iff_mul_le hpos).mp (Nat.le_of_not_lt hfull)

theorem minExponent_le_exponentFor (num den : Nat) : minExponent ≤ exponentFor num den := by
  unfold exponentFor
  split <;> omega

theorem scale_exponentFor_lt (hden : den ≠ 0) :
    scale num (-exponentFor num den) < scale den (exponentFor num den) * pow2 53 := by
  have hfull : scale num (-fullExponent num den) < scale den (fullExponent num den) * pow2 53 :=
    scale_fullExponent_lt hden
  unfold exponentFor
  split
  · next hleast =>
    have hmin : minExponent ≤ 0 := by decide
    rw [scale_of_nonpos den (by omega)] at hfull ⊢
    exact Nat.lt_of_le_of_lt (scale_mono num (by omega)) hfull
  · exact hfull

theorem le_scale_exponentFor (hnum : num ≠ 0) (hden : den ≠ 0) :
    scale den (exponentFor num den) * pow2 52 ≤ scale num (-exponentFor num den) ∨
      exponentFor num den = minExponent := by
  unfold exponentFor
  split
  · exact Or.inr rfl
  · exact Or.inl (le_scale_fullExponent hnum hden)

end Exponent

/-! ## Rounding -/

/-- The whole number nearest to `num / den`, a tie going to the even one. -/
def nearest (num den : Nat) : Nat :=
  let q := num / den
  let r := num % den
  if 2 * r < den then q
  else if den < 2 * r then q + 1
  else if q % 2 == 0 then q else q + 1

theorem nearest_le {num den k : Nat} (h : num < den * k) : nearest num den ≤ k := by
  have hquotient : num / den < k := Nat.div_lt_of_lt_mul h
  unfold nearest
  dsimp only
  repeat' split
  all_goals omega

theorem le_nearest {num den k : Nat} (hden : 0 < den) (h : den * k ≤ num) :
    k ≤ nearest num den := by
  have hquotient : k ≤ num / den := (Nat.le_div_iff_mul_le hden).mpr (Nat.mul_comm den k ▸ h)
  unfold nearest
  dsimp only
  repeat' split
  all_goals omega

section Mantissa

variable {num den : Nat}

/-- The bits kept of `num / den`. -/
def mantissaFor (num den : Nat) : Nat :=
  nearest (scale num (-exponentFor num den)) (scale den (exponentFor num den))

theorem mantissaFor_le (hden : den ≠ 0) : mantissaFor num den ≤ pow2 53 :=
  nearest_le (scale_exponentFor_lt hden)

theorem le_mantissaFor (hnum : num ≠ 0) (hden : den ≠ 0) :
    pow2 52 ≤ mantissaFor num den ∨ exponentFor num den = minExponent :=
  (le_scale_exponentFor hnum hden).imp_left
    (le_nearest (scale_pos (Nat.pos_of_ne_zero hden) _))

/-- Rounding up may carry into a 54th bit. -/
theorem isCanonical_carried (hcarried : exponentFor num den + 1 ≤ maxExponent) :
    IsCanonical (pow2 52) (exponentFor num den + 1) :=
  ⟨by decide, Int.le_trans (minExponent_le_exponentFor num den) (Int.le_add_one (Int.le_refl _)),
    hcarried, Or.inl (Nat.le_refl _)⟩

theorem isCanonical_kept (hnum : num ≠ 0) (hden : den ≠ 0) (hkept : mantissaFor num den ≠ pow2 53)
    (hrange : exponentFor num den ≤ maxExponent) :
    IsCanonical (mantissaFor num den) (exponentFor num den) :=
  ⟨Nat.lt_of_le_of_ne (mantissaFor_le hden) hkept, minExponent_le_exponentFor num den, hrange,
    le_mantissaFor hnum hden⟩

end Mantissa

/-- The double nearest to `num / den`, with the given sign; none beyond the greatest double. -/
def round (negative : Bool) (num den : Nat) : Option Binary64 :=
  if hnum : num = 0 then some { zero with negative := negative }
  else if hden : den = 0 then none
  else if hkept : mantissaFor num den = pow2 53 then
    if hrange : exponentFor num den + 1 ≤ maxExponent then
      some ⟨negative, pow2 52, exponentFor num den + 1, isCanonical_carried hrange⟩
    else none
  else
    if hrange : exponentFor num den ≤ maxExponent then
      some ⟨negative, mantissaFor num den, exponentFor num den,
        isCanonical_kept hnum hden hkept hrange⟩
    else none

def ofNat (n : Nat) : Option Binary64 := round false n 1

/-- The double nearest to `10 ^ k`. -/
def powerOfTen (k : Nat) : Option Binary64 := round false (pow10 k) 1

/-- Rounded product of magnitudes, with the sign of the first factor. -/
def mul (x y : Binary64) : Option Binary64 := round x.negative (x.num * y.num) (x.den * y.den)

/-- Rounded quotient of magnitudes, with the sign of the dividend. -/
def div (x y : Binary64) : Option Binary64 := round x.negative (x.num * y.den) (x.den * y.num)

end Binary64

end DoubleEntry
