import DoubleEntry.Database.Numeric
import DoubleEntry.Proofs.Decimal.Value
import DoubleEntry.Proofs.Decimal.Written
import DoubleEntry.Proofs.Results
import Mathlib.Tactic.Ring

/-!
# Amounts are read as they were written

A number is sent in groups of four digits, which the reader adds up from the first one. Each partial
sum is the number cut after some group (`cut`), and for the number of a decimal every such cut is a
decimal again (`isDecimal_cut`). So all additions are exact, the sum is the number written, and
brought to its count of fraction digits it is the decimal it was written from.

Main statement: `toDecimal_ofUnits`.
-/

namespace DoubleEntry.Database.Numeric

open Decimal

/-! ## Groups -/

/-- The number `n` of groups, the last one `k` places above the last of `places` after the point. -/
def onGroups (places n k : Nat) : ℚ := (n * pow10 (4 * k) : ℕ) / (pow10 (4 * places) : ℕ)

section Groups

variable {places : Nat}

theorem value_ofCoeff_eq_onGroups {c s n k : Nat} (hc : (c : Int).natAbs < bound)
    (hs : s ≤ maxScale) (h : c * pow10 (4 * places) = n * pow10 (4 * k) * pow10 s) :
    (ofCoeff c s hc hs).value = onGroups places n k := by
  have hs0 := pow10_ne_zero s
  have hp0 := pow10_ne_zero (4 * places)
  unfold value ofCoeff onGroups
  rw [Int.cast_natCast, div_eq_div_iff hs0 hp0]
  exact_mod_cast h

/-- A decimal on a grid of groups is below the bound. -/
theorem lt_of_isDecimal {n k : Nat} (h : IsDecimal (onGroups places n k)) :
    n * pow10 (4 * k) < bound * pow10 (4 * places) := by
  obtain ⟨d, hd⟩ := h
  have hcross : d.coeff * pow10 (4 * places) = n * pow10 (4 * k) * pow10 d.scale := by
    unfold value onGroups at hd
    rw [div_eq_div_iff (pow10_ne_zero _) (pow10_ne_zero _)] at hd
    exact_mod_cast hd
  have hpos := pow10_pos d.scale
  calc n * pow10 (4 * k) ≤ n * pow10 (4 * k) * pow10 d.scale := Nat.le_mul_of_pos_right _ hpos
    _ = d.coeff.natAbs * pow10 (4 * places) := by
      have := congrArg Int.natAbs hcross
      simpa [Int.natAbs_mul] using this.symm
    _ < bound * pow10 (4 * places) :=
      Nat.mul_lt_mul_of_pos_right d.coeff_lt (pow10_pos _)

/-- A group within bounds is its digits at its weight. -/
theorem groupValue_eq_ok (hplaces : places ≤ 7) {digits k : Nat} (hdigits : digits < 10000)
    (hpos : 0 < digits) (hlt : digits * pow10 (4 * k) < bound * pow10 (4 * places)) :
    ∃ d, groupValue digits (k - places) = .ok d ∧ d.value = onGroups places digits k := by
  rcases Nat.le_total places k with hle | hle
  · obtain ⟨j, rfl⟩ := Nat.exists_eq_add_of_le hle
    have hcoeff : ((digits * pow10 (4 * j) : ℕ) : Int).natAbs < bound := by
      rw [Nat.mul_add, pow10_add, Nat.mul_left_comm, Nat.mul_comm] at hlt
      exact Nat.lt_of_mul_lt_mul_right hlt
    have hj : j ≤ 7 := by
      by_contra hj
      have hpow : pow10 32 ≤ pow10 (4 * j) := pow10_le (by omega)
      have hle : pow10 32 ≤ digits * pow10 (4 * j) := hpow.trans (Nat.le_mul_of_pos_left _ hpos)
      rw [Int.natAbs_natCast] at hcoeff
      have hbound : bound < pow10 32 := by decide
      omega
    have hweight : ((places + j : ℕ) : Int) - places = j := by omega
    refine ⟨ofCoeff _ 0 hcoeff (Nat.zero_le _), ?_,
      value_ofCoeff_eq_onGroups _ _ ?_⟩
    · unfold groupValue
      rw [hweight, if_neg (by omega), show (4 * (j : Int)).toNat = 4 * j by omega,
        show (4 * -(j : Int)).toNat = 0 by omega]
      rw [← Int.natCast_mul, make?_of_bounds hcoeff (Nat.zero_le _)]
    · rw [Nat.mul_add, pow10_add, pow10_zero]
      ring
  · obtain ⟨j, rfl⟩ := Nat.exists_eq_add_of_le hle
    have hcoeff : ((digits : ℕ) : Int).natAbs < bound := hdigits.trans (by decide)
    have hscale : 4 * j ≤ maxScale := by
      show 4 * j ≤ 28
      omega
    have hweight : (k : Int) - (k + j : ℕ) = -j := by omega
    refine ⟨ofCoeff digits (4 * j) hcoeff hscale, ?_, value_ofCoeff_eq_onGroups _ _ ?_⟩
    · unfold groupValue
      rw [hweight, if_neg (by omega), show (4 * -(j : Int)).toNat = 0 by omega,
        show (4 * - -(j : Int)).toNat = 4 * j by omega]
      rw [pow10_zero, Nat.cast_one, Int.mul_one, make?_of_bounds hcoeff hscale]
    · rw [Nat.mul_add, pow10_add]
      ring

/-- A number is what stands before its last group, and that group. -/
theorem onGroups_split (n k : Nat) :
    onGroups places (n / 10000) (k + 1) + onGroups places (n % 10000) k = onGroups places n k := by
  unfold onGroups
  rw [← add_div, ← Nat.cast_add, Nat.mul_add, pow10_add]
  congr 2
  conv_rhs => rw [← Nat.div_add_mod n 10000]
  rw [show pow10 (4 * 1) = 10000 from rfl]
  ring

/-- The groups of a number add up to it, if the number cut after each group is a decimal. -/
theorem foldlM_groupsOf (hplaces : places ≤ 7) (n k : Nat)
    (hcut : ∀ i, IsDecimal (onGroups places (n / 10000 ^ i) (k + i))) :
    ∃ d, (groupsOf n (k - places)).foldlM addGroup .zero = .ok d ∧
      d.value = onGroups places n k := by
  induction n using Nat.strongRecOn generalizing k with
  | ind n ih =>
    unfold groupsOf
    split
    · next hzero =>
      refine ⟨.zero, rfl, ?_⟩
      rw [hzero, value_zero]
      simp [onGroups]
    · next hzero =>
      obtain ⟨front, hfront, hvalue⟩ := ih (n / 10000) (div_lt hzero) (k + 1) fun i => by
        have := hcut (i + 1)
        rwa [Nat.pow_succ', ← Nat.div_div_eq_div_mul, show k + (i + 1) = k + 1 + i by omega] at this
      have hweight : ((k + 1 : ℕ) : Int) - places = (k : Int) - places + 1 := by omega
      rw [hweight] at hfront
      have hwhole : IsDecimal (onGroups places n k) := by
        have := hcut 0
        rwa [Nat.pow_zero, Nat.div_one, Nat.add_zero] at this
      dsimp only
      split
      · next hlast =>
        refine ⟨front, hfront, ?_⟩
        rw [hvalue, ← onGroups_split n k, hlast]
        simp [onGroups]
      · next hlast =>
        have hdigits : n % 10000 < 10000 := Nat.mod_lt _ (by decide)
        have hlt : n % 10000 * pow10 (4 * k) < bound * pow10 (4 * places) :=
          Nat.lt_of_le_of_lt (Nat.mul_le_mul_right _ (Nat.mod_le _ _)) (lt_of_isDecimal hwhole)
        obtain ⟨last, hgroup, hlastValue⟩ :=
          groupValue_eq_ok hplaces hdigits (Nat.pos_of_ne_zero hlast) hlt
        have htotal : front.value + last.value = onGroups places n k := by
          rw [hvalue, hlastValue, onGroups_split]
        obtain ⟨d, hadd, hd⟩ := add_exact (a := front) (b := last) (htotal ▸ hwhole)
        refine ⟨d, ?_, hd.trans htotal⟩
        rw [List.foldlM_append, hfront, ok_bind, List.foldlM_cons]
        unfold addGroup
        rw [hgroup, ok_bind, hadd]
        rfl

/-- The magnitude of a decimal on the grid of groups, cut after any group, is a decimal. -/
theorem isDecimal_cut {c s : Nat} (hc : c < bound) (hs : s ≤ maxScale) (hle : s ≤ 4 * places)
    (hlt : 4 * places < s + 4) (i : Nat) :
    IsDecimal (onGroups places (c * pow10 (4 * places - s) / 10000 ^ i) (0 + i)) := by
  have hgrid : pow10 (4 * places - s) * pow10 s = pow10 (4 * places) := by
    rw [← pow10_add, Nat.sub_add_cancel hle]
  have hpow : ∀ j, 10000 ^ j = pow10 (4 * j) := fun j => (pow_mul 10 4 j).symm
  rw [Nat.zero_add, hpow]
  set q := c * pow10 (4 * places - s) / pow10 (4 * i) with hq
  have hqle : q * pow10 (4 * i) ≤ c * pow10 (4 * places - s) := Nat.div_mul_le_self _ _
  rcases Nat.lt_or_ge i places with hi | hi
  · rcases Nat.eq_zero_or_pos i with rfl | hpos
    · refine ⟨ofCoeff c s hc hs, value_ofCoeff_eq_onGroups hc hs ?_⟩
      rw [hq, Nat.mul_zero, pow10_zero, Nat.div_one, Nat.mul_one, Nat.mul_assoc, hgrid]
    · obtain ⟨j, rfl⟩ := Nat.exists_eq_add_of_lt hi
      have hqc : q ≤ c := by
        have hzeros : pow10 (4 * (i + j + 1) - s) ≤ pow10 (4 * i) := pow10_le (by omega)
        have := hqle.trans (Nat.mul_le_mul_left c hzeros)
        exact Nat.le_of_mul_le_mul_right this (pow10_pos _)
      have hqlt : ((q : ℕ) : Int).natAbs < bound := Nat.lt_of_le_of_lt hqc hc
      have hscale : 4 * (j + 1) ≤ maxScale := by
        have h28 : maxScale = 28 := rfl
        omega
      refine ⟨ofCoeff q (4 * (j + 1)) hqlt hscale, value_ofCoeff_eq_onGroups hqlt hscale ?_⟩
      rw [Nat.mul_assoc, ← pow10_add]
      congr 2
      omega
  · obtain ⟨j, rfl⟩ := Nat.exists_eq_add_of_le hi
    have hsplit : pow10 (4 * (places + j)) = pow10 (4 * j) * pow10 (4 * places) := by
      rw [← pow10_add]
      congr 1
      omega
    have hqc : q * pow10 (4 * j) ≤ c := by
      rw [hsplit, ← Nat.mul_assoc] at hqle
      have hzeros : pow10 (4 * places - s) ≤ pow10 (4 * places) := pow10_le (by omega)
      exact Nat.le_of_mul_le_mul_right (hqle.trans (Nat.mul_le_mul_left c hzeros)) (pow10_pos _)
    have hqlt : ((q * pow10 (4 * j) : ℕ) : Int).natAbs < bound := Nat.lt_of_le_of_lt hqc hc
    refine ⟨ofCoeff _ 0 hqlt (Nat.zero_le _), value_ofCoeff_eq_onGroups hqlt (Nat.zero_le _) ?_⟩
    rw [hsplit, pow10_zero]
    ring

end Groups

/-! ## Fraction digits -/

theorem room_eq {magnitude n : Nat} (h : magnitude * pow10 n < bound) : room magnitude n = n := by
  cases n with
  | zero => rfl
  | succ n =>
    unfold room
    rw [if_pos h]

/-- A decimal brought to a count of fraction digits that its number can be written with. -/
theorem atScale?_eq {d : Decimal} {c s : Nat} (hc : ((c : ℕ) : Int).natAbs < bound)
    (hs : s ≤ maxScale) (h : d.coeff * pow10 s = c * pow10 d.scale) :
    atScale? d s = some ⟨ofCoeff c s hc hs, 0⟩ := by
  have hne : ∀ k, (pow10 k : Int) ≠ 0 := fun k => Int.natCast_ne_zero.mpr (pow10_pos k).ne'
  unfold atScale?
  by_cases hle : s ≤ d.scale
  · obtain ⟨n, hn⟩ := Nat.exists_eq_add_of_le hle
    have hcoeff : d.coeff.natAbs = c * pow10 n := by
      rw [hn, pow10_add, Int.natCast_mul, Int.mul_comm (pow10 s : Int), ← Int.mul_assoc] at h
      rw [Int.eq_of_mul_eq_mul_right (hne s) h, ← Int.natCast_mul, Int.natAbs_natCast]
    have hmagnitude : d.magnitudeAt s = c := by
      unfold magnitudeAt
      split
      · next hsame =>
        obtain rfl : n = 0 := by omega
        rw [hcoeff, pow10_zero, Nat.mul_one]
      · next hlonger =>
        obtain ⟨k, rfl⟩ : ∃ k, n = k + 1 := ⟨n - 1, by omega⟩
        have hkept : d.scale - s = k + 1 := by omega
        have hnext : c * pow10 (k + 1) / pow10 k % 10 = 0 := by
          rw [pow10_succ, Nat.mul_comm (pow10 k), ← Nat.mul_assoc,
            Nat.mul_div_cancel _ (pow10_pos k), Nat.mul_mod_left]
        dsimp only
        rw [hcoeff, hkept, Nat.add_sub_cancel, hnext, if_neg (by decide),
          Nat.mul_div_cancel _ (pow10_pos _)]
    rw [if_pos hle, hmagnitude, make?_of_bounds hc hs]
    rfl
  · obtain ⟨n, rfl⟩ := Nat.exists_eq_add_of_le (Nat.le_of_not_le hle)
    have hcoeff : d.coeff * pow10 n = c := by
      rw [pow10_add, Int.natCast_mul, Int.mul_comm (pow10 d.scale : Int), ← Int.mul_assoc] at h
      exact Int.eq_of_mul_eq_mul_right (hne _) h
    have hroom : room d.coeff.natAbs n = n := by
      refine room_eq ?_
      rw [← hcoeff, Int.natAbs_mul, Int.natAbs_natCast] at hc
      exact hc
    have hn : Nat.min (d.scale + n - d.scale) maxScale = n := by
      rw [Nat.add_sub_cancel_left]
      exact Nat.min_eq_left (by omega)
    rw [if_neg hle]
    dsimp only
    rw [hn, hroom, Nat.sub_eq_zero_of_le hs, Nat.sub_zero, Nat.sub_zero, hcoeff,
      make?_of_bounds hc hs]
    rfl

/-! ## Amounts -/

/-- The number of a decimal other than zero is read as that decimal. -/
theorem toDecimal_of_pos {c s : Nat} (hc : ((c : ℕ) : Int).natAbs < bound) (hs : s ≤ maxScale)
    (hpos : 0 < c) : toDecimal ⟨false, c, s⟩ = .ok ⟨ofCoeff c s hc hs, 0⟩ := by
  have h28 : maxScale = 28 := rfl
  have hplaces : (s + 3) / 4 ≤ 7 := by omega
  obtain ⟨sum, hsum, hvalue⟩ := foldlM_groupsOf hplaces
    (c * pow10 (4 * ((s + 3) / 4) - s)) 0 (isDecimal_cut hc hs (by omega) (by omega))
  have hcross : sum.coeff * pow10 s = c * pow10 sum.scale := by
    have hgrid : pow10 (4 * ((s + 3) / 4) - s) * pow10 s = pow10 (4 * ((s + 3) / 4)) := by
      rw [← pow10_add, Nat.sub_add_cancel (by omega)]
    have hwritten : onGroups ((s + 3) / 4) (c * pow10 (4 * ((s + 3) / 4) - s)) 0 =
        (ofCoeff c s hc hs).value := by
      refine (value_ofCoeff_eq_onGroups hc hs ?_).symm
      rw [Nat.mul_zero, pow10_zero, Nat.mul_one, Nat.mul_assoc, hgrid]
    rw [hwritten] at hvalue
    unfold value ofCoeff at hvalue
    rw [div_eq_div_iff (pow10_ne_zero _) (pow10_ne_zero _)] at hvalue
    exact_mod_cast hvalue
  have hgroups : groups ⟨false, c, s⟩ =
      groupsOf (c * pow10 (4 * ((s + 3) / 4) - s)) ((0 : ℕ) - ((s + 3) / 4 : ℕ)) := by
    unfold groups
    simp
  unfold toDecimal
  rw [if_neg (Nat.pos_iff_ne_zero.mp hpos), hgroups, hsum, ok_bind, atScale?_eq hc hs hcross]
  rfl

/-- An amount is read as it was written; of a zero its fraction digits are lost. -/
theorem toDecimal_ofUnits {u : Units} (hzeros : u.zeros = 0) :
    (ofUnits u).toDecimal = .ok ⟨if u.isZero then .zero else u.amount, 0⟩ := by
  unfold ofUnits
  cases hzero : u.isZero with
  | true => rfl
  | false =>
    obtain ⟨c, hc⟩ := Int.eq_ofNat_of_zero_le u.nonneg
    have hbound : ((c : ℕ) : Int).natAbs < bound := hc ▸ u.amount.coeff_lt
    have hpos : 0 < c := by
      refine Nat.pos_of_ne_zero fun h => ?_
      unfold Units.isZero isZero at hzero
      rw [hc, h] at hzero
      cases hzero
    have hsign : u.amount.signedZero = false := by
      cases hsigned : u.amount.signedZero with
      | false => rfl
      | true =>
        have := u.amount.coeff_eq_zero hsigned
        omega
    have hamount : ofCoeff c u.amount.scale hbound u.amount.scale_le = u.amount := by
      rw [← ofCoeff_self hsign]
      unfold ofCoeff
      congr 1
      exact hc.symm
    rw [if_neg Bool.false_ne_true, if_neg Bool.false_ne_true, hzeros, pow10_zero, Nat.mul_one,
      Nat.add_zero, hc, Int.natAbs_natCast, toDecimal_of_pos hbound u.amount.scale_le hpos, hamount]

end DoubleEntry.Database.Numeric
