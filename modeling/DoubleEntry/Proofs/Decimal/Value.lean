import DoubleEntry.Decimal.Basic
import Mathlib.Data.Rat.Cast.Order
import Mathlib.Tactic.FieldSimp
import Mathlib.Tactic.Linarith

/-!
# Decimals and the numbers they denote

A decimal denotes the rational number `value`, and comparing decimals compares these (`same_iff`).
Not every rational number `IsDecimal`, and not every sum of two decimals: `add` is exact where the
sum is one (`add_exact`). Where it is not, digits are lost.
-/

namespace DoubleEntry.Decimal

/-- The number denoted. -/
def value (d : Decimal) : ℚ := d.coeff / pow10 d.scale

/-- A number that a decimal denotes. -/
def IsDecimal (q : ℚ) : Prop := ∃ d : Decimal, d.value = q

theorem pow10_ne_zero (k : Nat) : (pow10 k : ℚ) ≠ 0 := Nat.cast_ne_zero.mpr (pow10_pos k).ne'

theorem value_zero : zero.value = 0 := by
  unfold value zero ofCoeff
  simp

/-! ## Grids -/

/-- On a grid that is fine enough, a decimal is its coefficient there. -/
theorem value_eq_scaled_div {d : Decimal} {s : Nat} (h : d.scale ≤ s) :
    d.value = d.scaled s / pow10 s := by
  obtain ⟨n, rfl⟩ := Nat.exists_eq_add_of_le h
  have hd := pow10_ne_zero d.scale
  have hn := pow10_ne_zero n
  unfold value scaled
  rw [Nat.add_sub_cancel_left, pow10_add]
  push_cast
  field_simp

theorem value_eq_zero_iff {d : Decimal} : d.value = 0 ↔ d.coeff = 0 := by
  unfold value
  rw [div_eq_zero_iff, or_iff_left (pow10_ne_zero d.scale), Int.cast_eq_zero]

theorem isZero_iff {d : Decimal} : d.isZero = true ↔ d.value = 0 := by
  unfold isZero
  rw [value_eq_zero_iff, beq_iff_eq]

theorem same_iff {a b : Decimal} : a.same b = true ↔ a.value = b.value := by
  have ha : a.value = a.scaled (Nat.max a.scale b.scale) / pow10 (Nat.max a.scale b.scale) :=
    value_eq_scaled_div (Nat.le_max_left _ _)
  have hb : b.value = b.scaled (Nat.max a.scale b.scale) / pow10 (Nat.max a.scale b.scale) :=
    value_eq_scaled_div (Nat.le_max_right _ _)
  have hs := pow10_ne_zero (Nat.max a.scale b.scale)
  rw [ha, hb, div_left_inj' hs, Int.cast_inj]
  unfold same compare
  rw [beq_iff_eq]
  exact Std.LawfulEqOrd.compare_eq_iff_eq

/-! ## Rounding what needs no rounding -/

theorem roundHalfEven_mul (n k : Nat) : roundHalfEven (n * pow10 k) k = n := by
  have hpos := pow10_pos k
  unfold roundHalfEven
  dsimp only
  rw [Nat.mul_mod_left, Nat.mul_div_cancel _ hpos, Nat.mul_zero, if_pos hpos]

theorem roundInt_mul (e : Int) (k : Nat) : roundInt (e * pow10 k) k = e := by
  have hpos : (0 : Int) < pow10 k := Int.natCast_pos.mpr (pow10_pos k)
  have habs : (e * pow10 k).natAbs = e.natAbs * pow10 k := by
    rw [Int.natAbs_mul, Int.natAbs_natCast]
  unfold roundInt
  rw [habs, roundHalfEven_mul]
  split
  · next hneg =>
    have he : e < 0 := by
      by_contra hnot
      have := Int.mul_nonneg (Int.not_lt.mp hnot) hpos.le
      omega
    omega
  · next hnonneg =>
    have he : 0 ≤ e := by
      by_contra hnot
      have := Int.mul_neg_of_neg_of_pos (Int.not_le.mp hnot) hpos
      omega
    omega

theorem make?_of_bounds {c : Int} {s : Nat} (hc : c.natAbs < bound) (hs : s ≤ maxScale) :
    make? c s = some (ofCoeff c s hc hs) := by
  unfold make?
  rw [dif_pos hc, dif_pos hs]

theorem value_of_make? {c : Int} {s : Nat} {d : Decimal} (h : make? c s = some d) :
    d.value = (c : ℤ) / pow10 s := by
  obtain ⟨hcoeff, hs⟩ := make?_eq_some h
  unfold value
  rw [hcoeff, hs]

/-- Digits that are zeros are dropped without loss: once none is left, the coefficient is `e`, which
fits. -/
theorem fitFrom_exact {e : Int} (he : e.natAbs < bound) {n scale dropped : Nat} (hn : n ≤ scale)
    (hscale : scale ≤ maxScale) :
    ∃ d, fitFrom (e * pow10 (n + dropped)) dropped scale = some d ∧
      d.value = (e * pow10 n : ℤ) / pow10 scale := by
  have hround : ∀ m k : Nat, roundInt (e * pow10 (m + k)) k = e * pow10 m := by
    intro m k
    have hmul := roundInt_mul (e * pow10 m) k
    rwa [Int.mul_assoc, ← Int.natCast_mul, ← pow10_add] at hmul
  induction scale generalizing n dropped with
  | zero =>
    obtain rfl : n = 0 := Nat.le_zero.mp hn
    unfold fitFrom
    rw [hround, pow10_zero, Nat.cast_one, Int.mul_one]
    exact ⟨_, make?_of_bounds he hscale, value_of_make? (make?_of_bounds he hscale)⟩
  | succ scale ih =>
    unfold fitFrom
    rw [hround]
    cases hmake : make? (e * pow10 n) (scale + 1) with
    | some d => exact ⟨d, rfl, value_of_make? hmake⟩
    | none =>
      obtain ⟨k, rfl⟩ : ∃ k, n = k + 1 := by
        refine Nat.exists_eq_succ_of_ne_zero ?_
        rintro rfl
        rw [pow10_zero, Nat.cast_one, Int.mul_one, make?_of_bounds he hscale] at hmake
        cases hmake
      obtain ⟨d, hd, hdvalue⟩ := @ih k (dropped + 1) (by omega) (by omega)
      refine ⟨d, ?_, ?_⟩
      · rw [show k + 1 + dropped = k + (dropped + 1) by omega]
        exact hd
      · have hk := pow10_ne_zero scale
        rw [hdvalue, pow10_succ, pow10_succ]
        push_cast
        field_simp

/-- A number on a grid that is a decimal at all is one after dropping zeros. -/
theorem exists_zeros {c : Int} {s : Nat} {d : Decimal} (h : d.value = (c : ℤ) / pow10 s) :
    ∃ e n, c = e * pow10 n ∧ n ≤ s ∧ e.natAbs < bound := by
  have hcross : d.coeff * pow10 s = c * pow10 d.scale := by
    unfold value at h
    rw [div_eq_div_iff (pow10_ne_zero _) (pow10_ne_zero _)] at h
    exact_mod_cast h
  have hpos : ∀ k, (pow10 k : Int) ≠ 0 := fun k => Int.natCast_ne_zero.mpr (pow10_pos k).ne'
  rcases Nat.le_total d.scale s with hle | hle
  · obtain ⟨n, rfl⟩ := Nat.exists_eq_add_of_le hle
    refine ⟨d.coeff, n, ?_, by omega, d.coeff_lt⟩
    rw [pow10_add, Int.natCast_mul, Int.mul_comm (pow10 d.scale : Int), ← Int.mul_assoc] at hcross
    exact (Int.eq_of_mul_eq_mul_right (hpos _) hcross).symm
  · obtain ⟨n, hn⟩ := Nat.exists_eq_add_of_le hle
    refine ⟨c, 0, by simp, by omega, ?_⟩
    rw [hn, pow10_add, Int.natCast_mul, Int.mul_comm (pow10 s : Int), ← Int.mul_assoc] at hcross
    have hcoeff : d.coeff = c * pow10 n := Int.eq_of_mul_eq_mul_right (hpos _) hcross
    refine Nat.lt_of_le_of_lt ?_ d.coeff_lt
    rw [hcoeff, Int.natAbs_mul, Int.natAbs_natCast]
    exact Nat.le_mul_of_pos_right _ (pow10_pos n)

/-! ## Exact sums -/

theorem value_add_eq_div (a b : Decimal) :
    a.value + b.value =
      ((a.scaled (Nat.max a.scale b.scale) + b.scaled (Nat.max a.scale b.scale) : ℤ) : ℚ) /
        pow10 (Nat.max a.scale b.scale) := by
  rw [value_eq_scaled_div (d := a) (Nat.le_max_left a.scale b.scale),
    value_eq_scaled_div (d := b) (Nat.le_max_right a.scale b.scale), ← add_div]
  push_cast
  rfl

/-- A sum that is a decimal is made without loss. -/
theorem add_exact {a b : Decimal} (h : IsDecimal (a.value + b.value)) :
    ∃ c, a.add b = some c ∧ c.value = a.value + b.value := by
  unfold add
  split
  · next hzero =>
    rw [isZero_iff.mp hzero, zero_add]
    exact ⟨b, rfl, rfl⟩
  · split
    · next hzero =>
      rw [isZero_iff.mp hzero, add_zero]
      exact ⟨a, rfl, rfl⟩
    · obtain ⟨d, hd⟩ := h
      rw [value_add_eq_div] at hd ⊢
      obtain ⟨e, n, hc, hn, he⟩ := exists_zeros hd
      obtain ⟨c, hfit, hvalue⟩ := @fitFrom_exact e he n _ 0 hn
        (Nat.max_le.mpr ⟨a.scale_le, b.scale_le⟩)
      dsimp only
      rw [hc]
      exact ⟨c, hfit, hvalue⟩

end DoubleEntry.Decimal
