import DoubleEntry.Decimal.Difference
import DoubleEntry.Proofs.Decimal.Sums
import Mathlib.Order.Compare

/-!
# Rounding keeps the order

A sum with more digits than a coefficient holds loses the last ones. What comes out depends on the
exact sum alone: brought to the finest grid, sums of operands of any scales are fitted alike
(`value_add`). And a greater sum does not come out smaller (`fitFrom_mono`). The two may well end on
different grids, the greater one on the coarser. But then it has outgrown the finer grid, and with
one digit fewer it still comes to a tenth of the bound (`bound_le_ten_mul`), which is more than any
coefficient on the finer grid is worth.

So sums of amounts that are not negative are monotone (`add_mono`), overflows included, and a sum is
no smaller than its operands (`value_le_of_add`). A difference has the sign of the exact one
(`cmp_value_sub`).
-/

namespace DoubleEntry.Decimal

/-! ## Rounding one number -/

/-- Rounded down only up to the middle, and up only from there. -/
theorem roundHalfEven_cases (n k : Nat) :
    roundHalfEven n k = n / pow10 k ∧ 2 * (n % pow10 k) ≤ pow10 k ∨
      roundHalfEven n k = n / pow10 k + 1 ∧ pow10 k ≤ 2 * (n % pow10 k) := by
  unfold roundHalfEven
  dsimp only
  split
  · next hlow => exact Or.inl ⟨rfl, hlow.le⟩
  · next hlow =>
    split
    · exact Or.inr ⟨rfl, Nat.not_lt.mp hlow⟩
    · next hhigh =>
      split
      · exact Or.inl ⟨rfl, Nat.not_lt.mp hhigh⟩
      · exact Or.inr ⟨rfl, Nat.not_lt.mp hlow⟩

theorem two_mul_roundHalfEven_le (n k : Nat) :
    2 * roundHalfEven n k * pow10 k ≤ 2 * n + pow10 k := by
  have hdiv : n / pow10 k * pow10 k + n % pow10 k = n := Nat.div_add_mod' n (pow10 k)
  have hnext : (n / pow10 k + 1) * pow10 k = n / pow10 k * pow10 k + pow10 k := Nat.succ_mul ..
  rw [Nat.mul_assoc]
  rcases roundHalfEven_cases n k with ⟨hround, hrest⟩ | ⟨hround, hrest⟩ <;> rw [hround] <;> omega

/-- A whole number that is less than half a unit above is not passed. -/
theorem le_roundHalfEven {m n k : Nat} (h : 2 * m * pow10 k < 2 * n + pow10 k) :
    m ≤ roundHalfEven n k := by
  have hmod : n % pow10 k < pow10 k := Nat.mod_lt n (pow10_pos k)
  have hdiv : n / pow10 k * pow10 k + n % pow10 k = n := Nat.div_add_mod' n (pow10 k)
  have hnext : (n / pow10 k + 1) * pow10 k = n / pow10 k * pow10 k + pow10 k := Nat.succ_mul ..
  by_contra hlt
  rw [Nat.not_le] at hlt
  have hstep : (roundHalfEven n k + 1) * pow10 k ≤ m * pow10 k := Nat.mul_le_mul_right _ hlt
  rw [Nat.succ_mul] at hstep
  rw [Nat.mul_assoc] at h
  rcases roundHalfEven_cases n k with ⟨hround, hrest⟩ | ⟨hround, hrest⟩ <;>
    rw [hround] at hstep <;> omega

theorem roundHalfEven_mono {m n : Nat} (h : m ≤ n) (k : Nat) :
    roundHalfEven m k ≤ roundHalfEven n k := by
  rcases Nat.eq_or_lt_of_le h with rfl | hlt
  · exact Nat.le_refl _
  · refine le_roundHalfEven (Nat.lt_of_le_of_lt (two_mul_roundHalfEven_le m k) ?_)
    omega

/-- What is too large for a coefficient comes to a tenth of the bound with one digit fewer. -/
theorem bound_le_ten_mul {n k : Nat} (h : bound ≤ roundHalfEven n k) :
    bound ≤ roundHalfEven n (k + 1) * 10 := by
  have hbound : bound = 79228162514264337593543950336 := rfl
  have hpos := pow10_pos k
  have hle := two_mul_roundHalfEven_le n k
  have hmul : bound * pow10 k ≤ roundHalfEven n k * pow10 k := Nat.mul_le_mul_right _ h
  rw [Nat.mul_assoc] at hle
  rw [hbound] at hmul
  have htenth : 7922816251426433759354395034 ≤ roundHalfEven n (k + 1) := by
    refine le_roundHalfEven ?_
    rw [pow10_succ]
    omega
  omega

/-- Zeros at the end are of no account. -/
theorem roundHalfEven_mul_ten (n k : Nat) :
    roundHalfEven (n * 10) (k + 1) = roundHalfEven n k := by
  have hdiv : n * 10 / (pow10 k * 10) = n / pow10 k := Nat.mul_div_mul_right _ _ (by decide)
  have hmod : n * 10 % (pow10 k * 10) = n % pow10 k * 10 := Nat.mul_mod_mul_right _ _ _
  unfold roundHalfEven
  dsimp only
  rw [pow10_succ, hdiv, hmod]
  simp only [← Nat.mul_assoc, Nat.mul_lt_mul_right (show 0 < 10 by decide)]

theorem roundInt_natCast (n k : Nat) : roundInt n k = roundHalfEven n k := by
  unfold roundInt
  rw [if_neg (by omega), Int.natAbs_natCast]

theorem roundInt_neg (c : Int) (k : Nat) : roundInt (-c) k = -roundInt c k := by
  rcases Int.lt_trichotomy c 0 with hneg | rfl | hpos
  · unfold roundInt
    rw [if_neg (by omega), if_pos hneg, Int.natAbs_neg, Int.neg_neg]
  · have hzero : roundHalfEven 0 k = 0 := by simpa using roundHalfEven_mul 0 k
    have hround : roundInt 0 k = 0 := by
      rw [show (0 : Int) = ((0 : Nat) : Int) from rfl, roundInt_natCast, hzero]
    rw [Int.neg_zero, hround, Int.neg_zero]
  · unfold roundInt
    rw [if_pos (by omega), if_neg (by omega), Int.natAbs_neg]

theorem roundInt_mul_ten (c : Int) (k : Nat) : roundInt (c * 10) (k + 1) = roundInt c k := by
  have habs : (c * 10).natAbs = c.natAbs * 10 := Int.natAbs_mul c 10
  unfold roundInt
  rw [habs, roundHalfEven_mul_ten]
  by_cases hneg : c < 0
  · rw [if_pos hneg, if_pos (by omega)]
  · rw [if_neg hneg, if_neg (by omega)]

/-! ## Fitting -/

theorem lt_bound_of_make? {m s : Nat} {d : Decimal} (h : make? (m : Int) s = some d) :
    m < bound := by
  have hlt := d.coeff_lt
  rwa [(make?_eq_some h).1, Int.natAbs_natCast] at hlt

theorem bound_le_of_make? {m s : Nat} (hs : s ≤ maxScale) (h : make? (m : Int) s = none) :
    bound ≤ m := by
  by_contra hlt
  rw [make?_of_bounds (Int.natAbs_natCast m ▸ Nat.not_le.mp hlt) hs] at h
  cases h

theorem fitFrom_natCast_succ (n k s : Nat) :
    fitFrom n k (s + 1) = match make? (roundHalfEven n k : Nat) (s + 1) with
      | some d => some d
      | none => fitFrom n (k + 1) s := by
  rw [← roundInt_natCast]
  rfl

theorem fitFrom_natCast_zero (n k : Nat) :
    fitFrom n k 0 = make? (roundHalfEven n k : Nat) 0 := by
  rw [fitFrom, roundInt_natCast]

theorem le_value_of_make? {n k s : Nat} {d : Decimal} (h : bound ≤ roundHalfEven n k)
    (hd : make? (roundHalfEven n (k + 1) : Nat) s = some d) :
    (bound : ℚ) / pow10 (s + 1) ≤ d.value := by
  have htenth : (bound : ℚ) ≤ roundHalfEven n (k + 1) * 10 := by
    exact_mod_cast bound_le_ten_mul h
  have hpos : (0 : ℚ) < pow10 s := Nat.cast_pos.mpr (pow10_pos s)
  rw [value_of_make? hd, pow10_succ, Nat.cast_mul, Int.cast_natCast, ← div_div, div_right_comm]
  refine div_le_div_of_nonneg_right ?_ hpos.le
  rw [div_le_iff₀ (by norm_num)]
  exact_mod_cast htenth

/-- A number that has outgrown a grid is worth more, fitted on a coarser one, than any coefficient
on the finer grid. -/
theorem le_value_of_fitFrom {n k s : Nat} {d : Decimal} (hs : s ≤ maxScale)
    (h : bound ≤ roundHalfEven n k) (hd : fitFrom n (k + 1) s = some d) :
    (bound : ℚ) / pow10 (s + 1) ≤ d.value := by
  induction s generalizing k with
  | zero =>
    rw [fitFrom_natCast_zero] at hd
    exact le_value_of_make? h hd
  | succ s ih =>
    rw [fitFrom_natCast_succ] at hd
    cases hmake : make? (roundHalfEven n (k + 1) : Nat) (s + 1) with
    | some e =>
      rw [hmake] at hd
      cases hd
      exact le_value_of_make? h hmake
    | none =>
      rw [hmake] at hd
      have hcoarser := ih (Nat.le_of_succ_le hs) (bound_le_of_make? hs hmake) hd
      refine le_trans (div_le_div_of_nonneg_left (Nat.cast_nonneg _) ?_ ?_) hcoarser
      · exact Nat.cast_pos.mpr (pow10_pos _)
      · exact Nat.cast_le.mpr (pow10_le (Nat.le_succ _))

/-- On a grid where a number fits, a smaller one does. -/
theorem exists_make?_of_le {m n s : Nat} {d : Decimal} (hs : s ≤ maxScale) (hmn : m ≤ n)
    (hd : make? (n : Int) s = some d) : ∃ e, make? (m : Int) s = some e ∧ e.value ≤ d.value := by
  have hlt : (m : Int).natAbs < bound :=
    Int.natAbs_natCast m ▸ Nat.lt_of_le_of_lt hmn (lt_bound_of_make? hd)
  have he := make?_of_bounds hlt hs
  refine ⟨_, he, ?_⟩
  rw [value_of_make? he, value_of_make? hd]
  exact div_le_div_of_nonneg_right (by exact_mod_cast hmn) (Nat.cast_nonneg _)

/-- **Fitting is monotone.** Where a number fits, a smaller one does, and does not come out greater,
though it may stay on a grid that the greater one has outgrown. -/
theorem fitFrom_mono {m n k s : Nat} {d : Decimal} (hs : s ≤ maxScale) (hmn : m ≤ n)
    (hd : fitFrom n k s = some d) : ∃ e, fitFrom m k s = some e ∧ e.value ≤ d.value := by
  induction s generalizing k with
  | zero =>
    rw [fitFrom_natCast_zero] at hd ⊢
    exact exists_make?_of_le hs (roundHalfEven_mono hmn k) hd
  | succ s ih =>
    rw [fitFrom_natCast_succ] at hd ⊢
    cases hn : make? (roundHalfEven n k : Nat) (s + 1) with
    | some d' =>
      rw [hn] at hd
      cases hd
      obtain ⟨e, he, hle⟩ := exists_make?_of_le hs (roundHalfEven_mono hmn k) hn
      exact ⟨e, by rw [he], hle⟩
    | none =>
      rw [hn] at hd
      cases hm : make? (roundHalfEven m k : Nat) (s + 1) with
      | none => exact ih (Nat.le_of_succ_le hs) hd
      | some e =>
        refine ⟨e, rfl, ?_⟩
        have hge := le_value_of_fitFrom (Nat.le_of_succ_le hs) (bound_le_of_make? hs hn) hd
        refine le_trans ?_ hge
        rw [value_of_make? hm]
        refine div_le_div_of_nonneg_right ?_ (Nat.cast_nonneg _)
        exact_mod_cast (lt_bound_of_make? hm).le

theorem fitFrom_mul_ten (c : Int) (k s : Nat) :
    fitFrom (c * 10) (k + 1) s = fitFrom c k s := by
  induction s generalizing k with
  | zero => rw [fitFrom, fitFrom, roundInt_mul_ten]
  | succ s ih => rw [fitFrom, fitFrom, roundInt_mul_ten, ih]

theorem neg_make? (c : Int) (s : Nat) : make? (-c) s = (make? c s).map neg := by
  unfold make?
  simp only [Int.natAbs_neg]
  split
  · split <;> rfl
  · rfl

theorem fitFrom_neg (c : Int) (k s : Nat) : fitFrom (-c) k s = (fitFrom c k s).map neg := by
  induction s generalizing k with
  | zero => rw [fitFrom, fitFrom, roundInt_neg, neg_make?]
  | succ s ih =>
    rw [fitFrom, fitFrom, roundInt_neg, neg_make?, ih]
    cases make? (roundInt c k) (s + 1) <;> rfl

/-! ## Sums on the finest grid -/

/-- The coefficient on the finest grid. -/
def finest (d : Decimal) : Int := d.scaled maxScale

theorem value_eq_finest_div (d : Decimal) : d.value = d.finest / pow10 maxScale :=
  value_eq_scaled_div d.scale_le

theorem finest_neg (d : Decimal) : d.neg.finest = -d.finest := Int.neg_mul _ _

theorem value_neg (d : Decimal) : d.neg.value = -d.value := by
  rw [value_eq_finest_div, value_eq_finest_div d, finest_neg, Int.cast_neg, neg_div]

theorem roundInt_zero (c : Int) : roundInt c 0 = c := by
  simpa using roundInt_mul c 0

theorem fit_of_lt {c : Int} {s : Nat} (hc : c.natAbs < bound) (hs : s ≤ maxScale) :
    fit c s = some (ofCoeff c s hc hs) := by
  unfold fit
  cases s with
  | zero => rw [fitFrom, roundInt_zero, make?_of_bounds hc hs]
  | succ s => rw [fitFrom, roundInt_zero, make?_of_bounds hc hs]

/-- A number comes out the same from a grid with one digit more. -/
theorem fit_mul_ten (c : Int) {s : Nat} (hs : s < maxScale) :
    (fit (c * 10) (s + 1)).map value = (fit c s).map value := by
  by_cases hc : c.natAbs < bound
  · obtain ⟨d, hd, hvalue⟩ := @fitFrom_exact c hc 1 (s + 1) 0 (Nat.le_add_left 1 s) hs
    have hten : fit (c * 10) (s + 1) = some d := hd
    have hcancel : ((c * pow10 1 : ℤ) : ℚ) / pow10 (s + 1) = c / pow10 s := by
      rw [pow10_succ s, show pow10 1 = 10 from rfl, Int.cast_mul, Nat.cast_mul]
      exact mul_div_mul_right _ _ (by norm_num)
    rw [hten, fit_of_lt hc hs.le, Option.map_some, Option.map_some, hvalue, hcancel]
    rfl
  · have hlarge : make? (c * 10) (s + 1) = none := by
      unfold make?
      rw [dif_neg (by omega)]
    have hstep : fit (c * 10) (s + 1) = fitFrom (c * 10) 1 s := by
      unfold fit
      rw [fitFrom, roundInt_zero, hlarge]
    rw [hstep, fitFrom_mul_ten]
    rfl

theorem fit_mul_pow10 (c : Int) {s n : Nat} (h : s + n ≤ maxScale) :
    (fit (c * pow10 n) (s + n)).map value = (fit c s).map value := by
  induction n with
  | zero => rw [pow10_zero, Nat.cast_one, Int.mul_one, Nat.add_zero]
  | succ n ih =>
    rw [pow10_succ, Int.natCast_mul, ← Int.mul_assoc, ← Nat.add_assoc]
    exact (fit_mul_ten _ (by omega)).trans (ih (by omega))

theorem fit_finest (d : Decimal) : (fit d.finest maxScale).map value = some d.value := by
  obtain ⟨n, hn⟩ := Nat.exists_eq_add_of_le d.scale_le
  have hself : fit d.coeff d.scale = some (ofCoeff d.coeff d.scale d.coeff_lt d.scale_le) :=
    fit_of_lt d.coeff_lt d.scale_le
  have hgrid := fit_mul_pow10 d.coeff (s := d.scale) (n := n) (by omega)
  rw [hself, ← hn] at hgrid
  unfold finest scaled
  rw [show maxScale - d.scale = n by omega, hgrid]
  rfl

theorem finest_eq_scaled_mul {d : Decimal} {s n : Nat} (hd : d.scale ≤ s) (hs : s + n = maxScale) :
    d.finest = d.scaled s * pow10 n := by
  unfold finest scaled
  rw [show maxScale - d.scale = s - d.scale + n by omega, pow10_add, Int.natCast_mul,
    Int.mul_assoc]

/-- **A sum depends on the exact sum alone**, whatever the scales. -/
theorem value_add (a b : Decimal) :
    (a.add b).map value = (fit (a.finest + b.finest) maxScale).map value := by
  have hzero : ∀ d : Decimal, d.isZero = true → d.finest = 0 := by
    intro d hd
    unfold finest scaled
    rw [eq_of_beq hd, Int.zero_mul]
  unfold add
  split
  · next ha => rw [hzero a ha, Int.zero_add, fit_finest, Option.map_some]
  · split
    · next hb => rw [hzero b hb, Int.add_zero, fit_finest, Option.map_some]
    · obtain ⟨n, hn⟩ := Nat.exists_eq_add_of_le (Nat.max_le.mpr ⟨a.scale_le, b.scale_le⟩)
      rw [finest_eq_scaled_mul (Nat.le_max_left a.scale b.scale) hn.symm,
        finest_eq_scaled_mul (Nat.le_max_right a.scale b.scale) hn.symm, ← Int.add_mul]
      conv => rhs; rw [hn]
      exact (fit_mul_pow10 _ hn.symm.le).symm

/-! ## Sums of amounts -/

theorem cmp_div_pow10 (c c' : Int) :
    cmp ((c : ℚ) / pow10 maxScale) (c' / pow10 maxScale) = cmp c c' := by
  have hmono : StrictMono fun c : Int => (c : ℚ) / pow10 maxScale := fun _ _ h =>
    div_lt_div_of_pos_right (Int.cast_lt.mpr h) (Nat.cast_pos.mpr (pow10_pos maxScale))
  exact hmono.cmp_map_eq c c'

theorem value_nonneg {d : Decimal} (h : 0 ≤ d.coeff) : 0 ≤ d.value :=
  div_nonneg (Int.cast_nonneg h) (Nat.cast_nonneg _)

/-- **Addition is monotone.** Where a sum fits, a sum that is not greater does, and does not come
out greater. -/
theorem add_mono {a b a' b' c' : Decimal} (ha : 0 ≤ a.coeff) (hb : 0 ≤ b.coeff)
    (hle : a.value + b.value ≤ a'.value + b'.value) (hc' : a'.add b' = some c') :
    ∃ c, a.add b = some c ∧ c.value ≤ c'.value := by
  have hsum : ∀ x y : Decimal,
      x.value + y.value = ((x.finest + y.finest : ℤ) : ℚ) / pow10 maxScale :=
    fun x y => by rw [value_eq_finest_div, value_eq_finest_div y, ← add_div, Int.cast_add]
  rw [hsum, hsum, le_iff_le_of_cmp_eq_cmp (cmp_div_pow10 _ _)] at hle
  have hnonneg : 0 ≤ a.finest + b.finest :=
    Int.add_nonneg (scaled_nonneg ha maxScale) (scaled_nonneg hb maxScale)
  obtain ⟨m, hm⟩ := Int.eq_ofNat_of_zero_le hnonneg
  obtain ⟨n, hn⟩ := Int.eq_ofNat_of_zero_le (hnonneg.trans hle)
  have hfit' := value_add a' b'
  rw [hc', hn, Option.map_some] at hfit'
  obtain ⟨d, hd, hvalue⟩ := Option.map_eq_some_iff.mp hfit'.symm
  have hmn : m ≤ n := by omega
  obtain ⟨e, he, hle'⟩ := fitFrom_mono (Nat.le_refl maxScale) hmn hd
  have hfit := value_add a b
  rw [hm, show fit m maxScale = some e from he, Option.map_some] at hfit
  obtain ⟨c, hc, hcvalue⟩ := Option.map_eq_some_iff.mp hfit
  exact ⟨c, hc, by rwa [hcvalue, ← hvalue]⟩

/-- **A sum is no smaller than what is added**, also where digits are dropped. -/
theorem value_le_of_add {a b c : Decimal} (ha : 0 ≤ a.coeff) (hb : 0 ≤ b.coeff)
    (h : a.add b = some c) : a.value ≤ c.value ∧ b.value ≤ c.value := by
  have halone : ∀ d : Decimal, 0 ≤ d.coeff → d.value ≤ a.value + b.value → d.value ≤ c.value := by
    intro d hd hle
    have hsum : d.value + zero.value = d.value := by rw [value_zero, add_zero]
    obtain ⟨e, he, hexact⟩ := add_exact (a := d) (b := zero) ⟨d, hsum.symm⟩
    obtain ⟨e', he', hle'⟩ := add_mono hd (Int.le_refl 0) (hsum.le.trans hle) h
    cases he.symm.trans he'
    rwa [hexact, hsum] at hle'
  exact ⟨halone a ha (le_add_of_nonneg_right (value_nonneg hb)),
    halone b hb (le_add_of_nonneg_left (value_nonneg ha))⟩

/-! ## Running totals -/

/-- Amounts left out do not make a running total greater, nor do they keep it from fitting. -/
theorem exists_foldlM_add_of_sublist {xs ys : List Decimal} (hsub : ys.Sublist xs)
    (hxs : ∀ x ∈ xs, 0 ≤ x.coeff) {t t' d' : Decimal} (ht : 0 ≤ t.coeff) (ht' : 0 ≤ t'.coeff)
    (hle : t.value ≤ t'.value) (h : xs.foldlM add t' = some d') :
    ∃ d, ys.foldlM add t = some d ∧ d.value ≤ d'.value := by
  induction hsub generalizing t t' with
  | slnil =>
    cases h
    exact ⟨t, rfl, hle⟩
  | cons x _ ih =>
    obtain ⟨hx, hxs⟩ := List.forall_mem_cons.mp hxs
    rw [List.foldlM_cons] at h
    obtain ⟨c', hc', h⟩ := Option.bind_eq_some_iff.mp h
    exact ih hxs ht (add_nonneg ht' hx hc') (hle.trans (value_le_of_add ht' hx hc').1) h
  | cons_cons x _ ih =>
    obtain ⟨hx, hxs⟩ := List.forall_mem_cons.mp hxs
    rw [List.foldlM_cons] at h ⊢
    obtain ⟨c', hc', h⟩ := Option.bind_eq_some_iff.mp h
    obtain ⟨c, hc, hcle⟩ := add_mono ht hx (add_le_add_left hle x.value) hc'
    obtain ⟨d, hd, hdle⟩ := ih hxs (add_nonneg ht hx hc) (add_nonneg ht' hx hc') hcle h
    exact ⟨d, Option.bind_eq_some_iff.mpr ⟨c, hc, hd⟩, hdle⟩

theorem exists_total_of_sublist {xs ys : List Decimal} (hsub : ys.Sublist xs)
    (hxs : ∀ x ∈ xs, 0 ≤ x.coeff) {d' : Decimal} (h : total xs = some d') :
    ∃ d, total ys = some d ∧ d.value ≤ d'.value :=
  exists_foldlM_add_of_sublist hsub hxs (Int.le_refl 0) (Int.le_refl 0) (le_refl _) h

/-! ## Differences -/

theorem value_sub (a b : Decimal) :
    (a.sub b).map value = (fit (a.finest - b.finest) maxScale).map value := by
  unfold sub
  rw [value_add, finest_neg]
  rfl

/-- What is above zero does not come out as zero: at the least, the last digit on the finest grid is
left. -/
theorem value_fit_pos {c : Int} {d : Decimal} (hc : 0 < c) (hd : fit c maxScale = some d) :
    0 < d.value := by
  obtain ⟨n, rfl⟩ := Int.eq_ofNat_of_zero_le hc.le
  obtain ⟨e, he, hle⟩ := fitFrom_mono (m := 1) (Nat.le_refl maxScale) (by omega) hd
  have hone := fit_of_lt (c := 1) (show (1 : Int).natAbs < bound by decide) (Nat.le_refl maxScale)
  cases hone.symm.trans he
  refine lt_of_lt_of_le ?_ hle
  exact div_pos (show (0 : ℚ) < ((1 : ℤ) : ℚ) by norm_num) (Nat.cast_pos.mpr (pow10_pos _))

theorem fit_neg (c : Int) (s : Nat) : fit (-c) s = (fit c s).map neg := fitFrom_neg c 0 s

/-- A number keeps its sign where it is fitted. -/
theorem cmp_value_fit {c : Int} {d : Decimal} (hd : fit c maxScale = some d) :
    cmp d.value 0 = cmp c 0 := by
  rcases Int.lt_trichotomy c 0 with hneg | rfl | hpos
  · have hfit : fit (-c) maxScale = some d.neg := by rw [fit_neg, hd, Option.map_some]
    have hopposite := value_fit_pos (by omega) hfit
    rw [value_neg, neg_pos] at hopposite
    rw [(cmp_eq_lt_iff _ _).mpr hneg, (cmp_eq_lt_iff _ _).mpr hopposite]
  · cases (fit_of_lt (c := 0) (by decide) (Nat.le_refl maxScale)).symm.trans hd
    rw [value_eq_zero_iff.mpr rfl, cmp_self_eq_eq, cmp_self_eq_eq]
  · rw [(cmp_eq_gt_iff _ _).mpr hpos, (cmp_eq_gt_iff _ _).mpr (value_fit_pos hpos hd)]

/-- **A difference has the sign of the exact one**, also where digits are dropped. -/
theorem cmp_value_sub {a b d : Decimal} (h : a.sub b = some d) :
    cmp d.value 0 = cmp a.value b.value := by
  have hfit := value_sub a b
  rw [h, Option.map_some] at hfit
  obtain ⟨e, he, hvalue⟩ := Option.map_eq_some_iff.mp hfit.symm
  rw [← hvalue, cmp_value_fit he, cmp_sub_zero, value_eq_finest_div, value_eq_finest_div b,
    cmp_div_pow10]

theorem value_sub_comm {a b d e : Decimal} (hd : a.sub b = some d) (he : b.sub a = some e) :
    e.value = -d.value := by
  have hfit := value_sub a b
  have hfit' := value_sub b a
  rw [← Int.neg_sub, fit_neg, he, Option.map_some, Option.map_map] at hfit'
  rw [hd, Option.map_some] at hfit
  obtain ⟨f, hf, hvalue⟩ := Option.map_eq_some_iff.mp hfit.symm
  rw [hf, Option.map_some] at hfit'
  rw [← hvalue, Option.some.inj hfit']
  exact value_neg f

end DoubleEntry.Decimal
