import DoubleEntry.Decimal.Basic
import DoubleEntry.Power

/-!
# Differences that always fit

A sum may be too large for a decimal. The difference of two numbers that are not negative never is:
its magnitude is at most that of the larger one, so it fits at the latest without fraction digits
(`sub_isSome`). `minus` is that difference.
-/

namespace DoubleEntry.Decimal

/-- Rounding does not exceed a whole number that the fraction does not exceed. -/
theorem roundHalfEven_le {n k m : Nat} (h : n ≤ m * pow10 k) : roundHalfEven n k ≤ m := by
  have hp := pow10_pos k
  have hq : n / pow10 k ≤ m := Nat.div_le_of_le_mul (by rw [Nat.mul_comm]; exact h)
  have hd := Nat.div_add_mod n (pow10 k)
  have hr : n / pow10 k = m → n % pow10 k = 0 := by
    intro e
    rw [e, Nat.mul_comm] at hd
    omega
  unfold roundHalfEven
  dsimp only
  by_cases e : n / pow10 k = m
  · rw [hr e, if_pos (by omega)]
    omega
  · have hlt : n / pow10 k + 1 ≤ m := by omega
    split
    · omega
    · split
      · omega
      · split <;> omega

theorem natAbs_roundInt (c : Int) (k : Nat) : (roundInt c k).natAbs = roundHalfEven c.natAbs k := by
  unfold roundInt
  split <;> simp

/-- A number that fits without fraction digits fits. -/
theorem fitFrom_isSome {c : Int} {s : Nat} :
    ∀ {k : Nat}, (roundInt c (k + s)).natAbs < bound → (fitFrom c k s).isSome := by
  induction s with
  | zero =>
    intro k h
    rw [Nat.add_zero] at h
    unfold fitFrom make?
    rw [dif_pos h]
    simp
  | succ s ih =>
    intro k h
    unfold fitFrom
    split
    · rfl
    · exact ih (by rwa [Nat.add_assoc, Nat.add_comm 1 s])

theorem natAbs_scaled_le (d : Decimal) (s : Nat) :
    (d.scaled s).natAbs ≤ (bound - 1) * pow10 s := by
  have hc : d.coeff.natAbs ≤ bound - 1 := Nat.le_sub_one_of_lt d.coeff_lt
  have hp := pow10_le (Nat.sub_le s d.scale)
  have he : (d.scaled s).natAbs = d.coeff.natAbs * pow10 (s - d.scale) := by
    unfold scaled
    rw [Int.natAbs_mul, Int.natAbs_natCast]
  rw [he]
  exact Nat.mul_le_mul hc hp

/-- The difference of two numbers that are not negative fits. -/
theorem sub_isSome {a b : Decimal} (ha : 0 ≤ a.coeff) (hb : 0 ≤ b.coeff) :
    (a.sub b).isSome := by
  unfold sub add
  split
  · rfl
  · split
    · rfl
    · dsimp only
      apply fitFrom_isSome
      rw [natAbs_roundInt, Nat.zero_add]
      generalize Nat.max a.scale b.neg.scale = s
      have h1 := natAbs_scaled_le a s
      have h2 := natAbs_scaled_le b s
      have hneg : b.neg.scaled s = -(b.scaled s) := by
        unfold scaled neg
        exact Int.neg_mul _ _
      have h3 := scaled_nonneg ha s
      have h4 := scaled_nonneg hb s
      refine Nat.lt_of_le_of_lt (roundHalfEven_le (m := bound - 1) ?_) (by decide)
      rw [hneg]
      omega

/-- The difference of two numbers that are not negative. -/
def minus (a b : Decimal) (ha : 0 ≤ a.coeff) (hb : 0 ≤ b.coeff) : Decimal :=
  (a.sub b).get (sub_isSome ha hb)

end DoubleEntry.Decimal
