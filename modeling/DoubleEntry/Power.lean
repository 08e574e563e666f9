/-!
# Powers of ten and of two

`pow10` weighs the places of a decimal number, `pow2` those of a binary one and the bounds of a
word. Both are core's power of natural numbers, with the few laws that scaling needs: a power is
positive (`pow10_pos`), grows with its exponent (`pow10_le`), and a power of a sum is a product
(`pow10_add`). The bounds of the words in use are simplified to numerals.
-/

namespace DoubleEntry

/-- Ten to the power of `k`. -/
def pow10 (k : Nat) : Nat := Nat.pow 10 k

/-- Two to the power of `k`. -/
def pow2 (k : Nat) : Nat := Nat.pow 2 k

/-! ## Laws -/

@[simp] theorem pow10_zero : pow10 0 = 1 := rfl

theorem pow10_succ (k : Nat) : pow10 (k + 1) = pow10 k * 10 := rfl

theorem pow10_pos (k : Nat) : 0 < pow10 k := Nat.pow_pos (by decide)

theorem pow10_add (k n : Nat) : pow10 (k + n) = pow10 k * pow10 n := Nat.pow_add 10 k n

theorem pow10_le {k n : Nat} (h : k ≤ n) : pow10 k ≤ pow10 n :=
  Nat.pow_le_pow_right (by decide) h

@[simp] theorem pow2_zero : pow2 0 = 1 := rfl

theorem pow2_succ (k : Nat) : pow2 (k + 1) = pow2 k * 2 := rfl

theorem pow2_pos (k : Nat) : 0 < pow2 k := Nat.pow_pos (by decide)

theorem pow2_add (k n : Nat) : pow2 (k + n) = pow2 k * pow2 n := Nat.pow_add 2 k n

theorem pow2_le {k n : Nat} (h : k ≤ n) : pow2 k ≤ pow2 n := Nat.pow_le_pow_right (by decide) h

theorem pow2_log2_le {n : Nat} (h : n ≠ 0) : pow2 n.log2 ≤ n := Nat.log2_self_le h

theorem lt_pow2_log2 (n : Nat) : n < pow2 (n.log2 + 1) := Nat.lt_log2_self

/-! ## Bounds of words as numerals -/

@[simp] theorem pow2_31 : pow2 31 = 2147483648 := rfl

@[simp] theorem pow2_32 : pow2 32 = 4294967296 := rfl

@[simp] theorem pow2_63 : pow2 63 = 9223372036854775808 := rfl

@[simp] theorem pow2_64 : pow2 64 = 18446744073709551616 := rfl

@[simp] theorem pow2_96 : pow2 96 = 79228162514264337593543950336 := rfl

end DoubleEntry
