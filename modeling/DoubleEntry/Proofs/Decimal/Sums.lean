import DoubleEntry.Proofs.Decimal.Value
import DoubleEntry.Primitive
import Mathlib.Algebra.Order.BigOperators.Group.List
import Mathlib.Data.List.Induction
import Mathlib.Tactic.Ring

/-!
# Running totals of decimals

`total` adds up a list of decimals one by one, as every sum of the ledger is made; `sumOf` is the
sum of the numbers they denote. The two agree as long as every running sum is a decimal
(`total_of_sumsFit`), in particular for amounts that are `Bounded` together. What is lost otherwise
is `dropped`.
-/

namespace DoubleEntry.Decimal

/-! ## Sums -/

/-- The sum of the numbers denoted. -/
def sumOf (xs : List Decimal) : ℚ := (xs.map value).sum

/-- The decimals added up one by one, if every sum fits. -/
def total (xs : List Decimal) : Option Decimal := xs.foldlM add zero

/-- Every running sum is a decimal. -/
def SumsFit (xs : List Decimal) : Prop := ∀ p, p <+: xs → IsDecimal (sumOf p)

theorem sumOf_append (xs ys : List Decimal) : sumOf (xs ++ ys) = sumOf xs + sumOf ys := by
  unfold sumOf
  rw [List.map_append, List.sum_append]

theorem sumOf_concat (xs : List Decimal) (x : Decimal) :
    sumOf (xs ++ [x]) = sumOf xs + x.value := by
  rw [sumOf_append]
  unfold sumOf
  simp

theorem total_concat (xs : List Decimal) (x : Decimal) :
    total (xs ++ [x]) = (total xs).bind fun t => t.add x := by
  unfold total
  rw [List.foldlM_append]
  refine congrArg (Option.bind _) (funext fun t => ?_)
  simp

theorem SumsFit.initial {xs p : List Decimal} (h : SumsFit xs) (hp : p <+: xs) : SumsFit p :=
  fun q hq => h q (hq.trans hp)

/-- Running totals are exact as long as every running sum is a decimal. -/
theorem total_of_sumsFit {xs : List Decimal} (h : SumsFit xs) :
    ∃ d, total xs = some d ∧ d.value = sumOf xs := by
  induction xs using List.reverseRecOn with
  | nil => exact ⟨zero, rfl, value_zero⟩
  | append_singleton xs x ih =>
    obtain ⟨t, ht, hvalue⟩ := ih (h.initial (List.prefix_append xs [x]))
    have hfits := h (xs ++ [x]) List.prefix_rfl
    rw [sumOf_concat, ← hvalue] at hfits
    obtain ⟨c, hc, hcvalue⟩ := add_exact hfits
    refine ⟨c, ?_, ?_⟩
    · rw [total_concat, ht]
      exact hc
    · rw [hcvalue, sumOf_concat, hvalue]

/-! ## Amounts on one grid -/

theorem sumOf_eq_scaled_div {xs : List Decimal} {s : Nat} (h : ∀ x ∈ xs, x.scale ≤ s) :
    sumOf xs = ((xs.map fun x => x.scaled s).sum : ℤ) / pow10 s := by
  induction xs with
  | nil => simp [sumOf]
  | cons x xs ih =>
    have hrest := ih fun y hy => h y (List.mem_cons_of_mem _ hy)
    have hx := value_eq_scaled_div (h x List.mem_cons_self)
    unfold sumOf at *
    rw [List.map_cons, List.sum_cons, List.map_cons, List.sum_cons, hrest, hx, ← add_div]
    push_cast
    rfl

/-- Amounts that are not negative have common bounds: a number of fraction digits, and a sum on
that grid below the bound of a coefficient. -/
structure Bounded (xs : List Decimal) (s : Nat) : Prop where
  le_maxScale : s ≤ maxScale
  scale_le : ∀ x ∈ xs, x.scale ≤ s
  nonneg : ∀ x ∈ xs, 0 ≤ x.coeff
  sum_lt : (xs.map fun x => x.scaled s).sum < (bound : ℤ)

theorem Bounded.sublist {xs ys : List Decimal} {s : Nat} (h : Bounded xs s)
    (hys : ys.Sublist xs) : Bounded ys s := by
  have hnonneg : ∀ z ∈ xs.map fun x => x.scaled s, 0 ≤ z := by
    intro z hz
    obtain ⟨x, hx, rfl⟩ := List.mem_map.mp hz
    exact scaled_nonneg (h.nonneg x hx) s
  exact ⟨h.le_maxScale, fun y hy => h.scale_le y (hys.subset hy),
    fun y hy => h.nonneg y (hys.subset hy),
    lt_of_le_of_lt ((hys.map _).sum_le_sum hnonneg) h.sum_lt⟩

theorem Bounded.isDecimal_sumOf {xs : List Decimal} {s : Nat} (h : Bounded xs s) :
    IsDecimal (sumOf xs) := by
  have hsum : 0 ≤ (xs.map fun x => x.scaled s).sum := by
    refine List.sum_nonneg fun z hz => ?_
    obtain ⟨x, hx, rfl⟩ := List.mem_map.mp hz
    exact scaled_nonneg (h.nonneg x hx) s
  have hlt := h.sum_lt
  have hfits : (xs.map fun x : Decimal => x.scaled s).sum.natAbs < bound := by omega
  refine ⟨ofCoeff _ s hfits h.le_maxScale, ?_⟩
  rw [sumOf_eq_scaled_div h.scale_le]
  rfl

/-! ## What is lost -/

/-- What the additions to a running total have dropped in all; a digit gained counts as one below
zero. -/
def droppedFrom (t : Decimal) : List Decimal → ℚ
  | [] => 0
  | x :: xs =>
    match t.add x with
    | some c => t.value + x.value - c.value + droppedFrom c xs
    | none => 0

/-- What adding up the decimals drops. -/
def dropped (xs : List Decimal) : ℚ := droppedFrom zero xs

theorem value_of_foldlM {xs : List Decimal} {t d : Decimal} (h : xs.foldlM add t = some d) :
    d.value = t.value + sumOf xs - droppedFrom t xs := by
  induction xs generalizing t with
  | nil =>
    cases h
    simp [sumOf, droppedFrom]
  | cons x xs ih =>
    rw [List.foldlM_cons] at h
    obtain ⟨c, hc, h⟩ := Option.bind_eq_some_iff.mp h
    unfold droppedFrom
    rw [ih h, hc]
    unfold sumOf
    rw [List.map_cons, List.sum_cons]
    ring

theorem value_of_total {xs : List Decimal} {d : Decimal} (h : total xs = some d) :
    d.value = sumOf xs - dropped xs := by
  rw [value_of_foldlM h, value_zero, zero_add]
  rfl

theorem dropped_of_sumsFit {xs : List Decimal} (h : SumsFit xs) : dropped xs = 0 := by
  obtain ⟨d, hd, hvalue⟩ := total_of_sumsFit h
  rw [value_of_total hd] at hvalue
  linarith

/-! ## Sums of two sides -/

section Sides

variable {τ ι : Type} {step : τ → ι → Option τ} {on : τ → Side → Decimal} {side : ι → Side}
  {amount : ι → Decimal}

/-- The amounts on one side, in their order. -/
def sideAmounts (side : ι → Side) (amount : ι → Decimal) (s : Side) (is : List ι) : List Decimal :=
  (is.filter fun i => side i = s).map amount

theorem sideAmounts_sublist (s : Side) (is : List ι) :
    (sideAmounts side amount s is).Sublist (is.map amount) :=
  List.filter_sublist.map amount

theorem sideAmounts_cons_self (i : ι) (is : List ι) :
    sideAmounts side amount (side i) (i :: is) =
      amount i :: sideAmounts side amount (side i) is := by
  unfold sideAmounts
  rw [show (i :: is).filter (fun j => side j = side i) = i :: is.filter fun j => side j = side i
    from List.filter_cons_of_pos (decide_eq_true rfl)]
  rfl

theorem sideAmounts_cons_opposite (i : ι) (is : List ι) :
    sideAmounts side amount (side i).opposite (i :: is) =
      sideAmounts side amount (side i).opposite is := by
  have hne : side i ≠ (side i).opposite := by cases side i <;> decide
  unfold sideAmounts
  rw [List.filter_cons_of_neg (by simpa using hne)]

theorem eq_or_eq_opposite (s s' : Side) : s' = s ∨ s' = s.opposite := by
  cases s <;> cases s' <;> decide

/-- Where every step adds an amount on one of two sides and leaves the other, each side comes out
as the sum of its own amounts. -/
theorem foldlM_side
    (hstep : ∀ {t i t'}, step t i = some t' →
      (on t (side i)).add (amount i) = some (on t' (side i)) ∧
        on t' (side i).opposite = on t (side i).opposite)
    {is : List ι} {t t' : τ} (h : is.foldlM step t = some t') (s : Side) :
    (sideAmounts side amount s is).foldlM add (on t s) = some (on t' s) := by
  induction is generalizing t with
  | nil =>
    cases h
    rfl
  | cons i is ih =>
    rw [List.foldlM_cons] at h
    obtain ⟨t₁, ht₁, h⟩ := Option.bind_eq_some_iff.mp h
    obtain ⟨hadd, hother⟩ := hstep ht₁
    rcases eq_or_eq_opposite (side i) s with rfl | rfl
    · rw [sideAmounts_cons_self, List.foldlM_cons, hadd]
      exact ih h
    · rw [sideAmounts_cons_opposite, ← hother]
      exact ih h

/-- The steps can all be made if the sums of both sides can. -/
theorem exists_foldlM_side
    (hstep : ∀ {t i d}, (on t (side i)).add (amount i) = some d →
      ∃ t', step t i = some t' ∧ on t' (side i) = d ∧
        on t' (side i).opposite = on t (side i).opposite)
    {is : List ι} {t : τ}
    (h : ∀ s, ∃ d, (sideAmounts side amount s is).foldlM add (on t s) = some d) :
    ∃ t', is.foldlM step t = some t' := by
  induction is generalizing t with
  | nil => exact ⟨t, rfl⟩
  | cons i is ih =>
    obtain ⟨d, hd⟩ := h (side i)
    rw [sideAmounts_cons_self, List.foldlM_cons] at hd
    obtain ⟨c, hc, hd⟩ := Option.bind_eq_some_iff.mp hd
    obtain ⟨t₁, ht₁, rfl, hother⟩ := hstep hc
    have hrest : ∀ s, ∃ d, (sideAmounts side amount s is).foldlM add (on t₁ s) = some d := by
      intro s
      rcases eq_or_eq_opposite (side i) s with rfl | rfl
      · exact ⟨d, hd⟩
      · obtain ⟨e, he⟩ := h (side i).opposite
        rw [sideAmounts_cons_opposite, ← hother] at he
        exact ⟨e, he⟩
    obtain ⟨t', ht'⟩ := ih hrest
    refine ⟨t', ?_⟩
    rw [List.foldlM_cons]
    exact Option.bind_eq_some_iff.mpr ⟨t₁, ht₁, ht'⟩

end Sides

end DoubleEntry.Decimal
