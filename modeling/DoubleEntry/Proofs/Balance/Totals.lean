import DoubleEntry.Proofs.Balance.History
import DoubleEntry.Proofs.Decimal.Sums
import Mathlib.Data.List.Flatten

/-!
# Stored totals against exact sums

A stored total is made by two kinds of additions: the entries of a transaction under a key come
together in a delta, and the deltas of all transactions in the row. So it is the exact sum of all
entries ever committed under the key less what these additions have dropped
(`value_total_of_sums`), and nothing has been dropped as long as every sum is a decimal
(`droppedUnder_eq_zero`).
-/

namespace DoubleEntry

open OrdMap Decimal

/-! ## Amounts under a key -/

/-- The amounts of a transaction on one side of a key, in their order. -/
def Transaction.amountsUnder (t : Transaction) (k : BalanceKey) (side : Side) : List Decimal :=
  sideAmounts Entry.direction (fun e => e.units.amount) side (t.entriesUnder k)

/-- All amounts of a transaction. -/
def Transaction.amounts (t : Transaction) : List Decimal := t.entries.map fun e => e.units.amount

/-- What a transaction adds on one side of a key. -/
def Transaction.addedUnder (t : Transaction) (k : BalanceKey) (side : Side) : Decimal :=
  (total (t.amountsUnder k side)).getD .zero

/-- What the commits that touch a key add on one side of it, in their order. -/
def additions (commits : List Commit) (k : BalanceKey) (side : Side) : List Decimal :=
  (touching k commits).map fun c => c.transaction.addedUnder k side

/-- The exact sum of all amounts committed on one side of a key. -/
def posted (commits : List Commit) (k : BalanceKey) (side : Side) : ℚ :=
  (commits.map fun c => sumOf (c.transaction.amountsUnder k side)).sum

/-- All that was dropped on one side of a key: within transactions, and in the row. -/
def droppedUnder (commits : List Commit) (k : BalanceKey) (side : Side) : ℚ :=
  ((touching k commits).map fun c => dropped (c.transaction.amountsUnder k side)).sum +
    dropped (additions commits k side)

theorem Transaction.amountsUnder_eq_nil {t : Transaction} {k : BalanceKey} (h : ¬ t.Touches k)
    (side : Side) : t.amountsUnder k side = [] := by
  unfold amountsUnder entriesUnder
  rw [under_eq_nil_iff.mpr h]
  rfl

/-- Transactions that do not touch a key add nothing there. -/
theorem posted_touching (commits : List Commit) (k : BalanceKey) (side : Side) :
    posted (touching k commits) k side = posted commits k side := by
  induction commits with
  | nil => rfl
  | cons c commits ih =>
    unfold posted touching at *
    by_cases h : c.transaction.Touches k
    · rw [List.filter_cons_of_pos (by simpa using h), List.map_cons, List.sum_cons, ih]
      rfl
    · rw [List.filter_cons_of_neg (by simpa using h), List.map_cons, List.sum_cons, ih,
        Transaction.amountsUnder_eq_nil h]
      simp [sumOf]

/-! ## Sides -/

/-- The amount of one side. -/
def BalanceDelta.on (d : BalanceDelta) : Side → Decimal
  | .debit => d.debit.amount
  | .credit => d.credit.amount

/-- The total of one side. -/
def BalanceSnapshot.total (b : BalanceSnapshot) : Side → Decimal
  | .debit => b.debitTotal.amount
  | .credit => b.creditTotal.amount

/-- One of two totals. -/
def sideOf (totals : Units × Units) : Side → Decimal
  | .debit => totals.1.amount
  | .credit => totals.2.amount

theorem amount_add {a b c : Units} (h : a.add b = .ok c) :
    a.amount.add b.amount = some c.amount := by
  unfold Units.add at h
  split at h
  · next hadd =>
    cases h
    exact hadd
  · cases h

theorem BalanceDelta.addEntry_on {d d' : BalanceDelta} {e : Entry}
    (h : (d.addEntry e).toOption = some d') :
    (d.on e.direction).add e.units.amount = some (d'.on e.direction) ∧
      d'.on e.direction.opposite = d.on e.direction.opposite := by
  replace h := toOption_eq_some.mp h
  unfold addEntry add at h
  cases hside : e.direction with
  | debit =>
    rw [hside] at h
    obtain ⟨u, hu, rfl⟩ := map_eq_ok.mp h
    exact ⟨amount_add hu, rfl⟩
  | credit =>
    rw [hside] at h
    obtain ⟨u, hu, rfl⟩ := map_eq_ok.mp h
    exact ⟨amount_add hu, rfl⟩

/-- The delta of a key holds the running totals of its two sides. -/
theorem total_amountsUnder {t : Transaction} {k : BalanceKey} {d : BalanceDelta}
    (h : t.deltaUnder k = .ok d) (side : Side) :
    total (t.amountsUnder k side) = some (d.on side) := by
  have hfold := congrArg Except.toOption h
  unfold Transaction.deltaUnder at hfold
  rw [foldlM_toOption] at hfold
  have hside := foldlM_side BalanceDelta.addEntry_on hfold side
  cases side <;> exact hside

theorem addDelta_sideOf {totals totals' : Units × Units} {d : BalanceDelta}
    (h : addDelta totals d = .ok totals') (side : Side) :
    (sideOf totals side).add (d.on side) = some (sideOf totals' side) := by
  obtain ⟨debits, hdebits, h⟩ := bind_eq_ok.mp h
  obtain ⟨credits, hcredits, h⟩ := bind_eq_ok.mp h
  cases h
  cases side with
  | debit => exact amount_add hdebits
  | credit => exact amount_add hcredits

theorem foldlM_addCommit_sideOf {k : BalanceKey} {cs : List Commit} {totals totals' : Units × Units}
    (h : cs.foldlM (addCommit k) totals = .ok totals') (side : Side) :
    (cs.map fun c => c.transaction.addedUnder k side).foldlM add (sideOf totals side) =
        some (sideOf totals' side) ∧
      ∀ c ∈ cs, ∃ d, total (c.transaction.amountsUnder k side) = some d := by
  induction cs generalizing totals with
  | nil =>
    cases h
    exact ⟨rfl, fun c hc => nomatch hc⟩
  | cons c cs ih =>
    rw [List.foldlM_cons] at h
    obtain ⟨totals₁, hstep, h⟩ := bind_eq_ok.mp h
    obtain ⟨d, hd, hadd⟩ := bind_eq_ok.mp hstep
    obtain ⟨hrest, hall⟩ := ih h
    have htotal := total_amountsUnder hd side
    refine ⟨?_, fun c' hc' => ?_⟩
    · rw [List.map_cons, List.foldlM_cons]
      refine Option.bind_eq_some_iff.mpr ⟨_, ?_, hrest⟩
      unfold Transaction.addedUnder
      rw [htotal]
      exact addDelta_sideOf hadd side
    · rcases List.mem_cons.mp hc' with rfl | hc'
      · exact ⟨_, htotal⟩
      · exact hall c' hc'

/-! ## Stored totals -/

theorem addedUnder_of_total {t : Transaction} {k : BalanceKey} {side : Side} {d : Decimal}
    (h : total (t.amountsUnder k side) = some d) : t.addedUnder k side = d := by
  unfold Transaction.addedUnder
  rw [h]
  rfl

/-- What the commits add, against what they post. -/
theorem sumOf_addedUnder {k : BalanceKey} {side : Side} {cs : List Commit}
    (h : ∀ c ∈ cs, ∃ d, total (c.transaction.amountsUnder k side) = some d) :
    sumOf (cs.map fun c => c.transaction.addedUnder k side) = posted cs k side -
      (cs.map fun c => dropped (c.transaction.amountsUnder k side)).sum := by
  induction cs with
  | nil => simp [sumOf, posted]
  | cons c cs ih =>
    obtain ⟨d, hd⟩ := h c List.mem_cons_self
    have hrest := ih fun c' hc' => h c' (List.mem_cons_of_mem _ hc')
    have hc : (c.transaction.addedUnder k side).value =
        sumOf (c.transaction.amountsUnder k side) -
          dropped (c.transaction.amountsUnder k side) := by
      rw [addedUnder_of_total hd, value_of_total hd]
    unfold sumOf at hrest hc ⊢
    unfold posted sumOf at hrest ⊢
    rw [List.map_cons, List.map_cons, List.sum_cons, hrest, hc, List.map_cons, List.sum_cons,
      List.map_cons, List.sum_cons]
    ring

/-- A stored total is the exact sum of what was committed, less what was dropped. -/
theorem value_total_of_sums {b : BalanceSnapshot} {k : BalanceKey} {commits : List Commit}
    (h : b.Sums k (touching k commits)) (side : Side) :
    (b.total side).value = posted commits k side - droppedUnder commits k side := by
  obtain ⟨hfold, hall⟩ := foldlM_addCommit_sideOf h.totals side
  have htotal : total (additions commits k side) = some (b.total side) := by
    cases side <;> exact hfold
  have hsum : sumOf (additions commits k side) = _ := sumOf_addedUnder hall
  rw [posted_touching] at hsum
  unfold droppedUnder
  rw [value_of_total htotal, hsum]
  ring

/-! ## Sums that fit -/

/-- Every sum formed under keys is a decimal: within each transaction, and from each transaction to
the next. -/
structure RowsFit (commits : List Commit) : Prop where
  within : ∀ c ∈ commits, ∀ k side, SumsFit (c.transaction.amountsUnder k side)
  across : ∀ p, p <+: commits → ∀ k side, IsDecimal (posted p k side)

/-- Where every sum is a decimal, nothing is dropped. -/
theorem RowsFit.droppedUnder_eq_zero {commits : List Commit} (h : RowsFit commits) (k : BalanceKey)
    (side : Side) : droppedUnder commits k side = 0 := by
  have hfits : ∀ p, p <+: commits → ∀ c ∈ touching k p,
      SumsFit (c.transaction.amountsUnder k side) := fun p hp c hc =>
    h.within c (hp.subset (List.mem_filter.mp hc).1) k side
  have hnothing : ∀ p, p <+: commits →
      ((touching k p).map fun c => dropped (c.transaction.amountsUnder k side)).sum = 0 := by
    intro p hp
    refine List.sum_eq_zero fun z hz => ?_
    obtain ⟨c, hc, rfl⟩ := List.mem_map.mp hz
    exact dropped_of_sumsFit (hfits p hp c hc)
  have hacross : SumsFit (additions commits k side) := by
    intro q hq
    obtain ⟨cs, hcs, rfl⟩ := List.prefix_map_iff.mp hq
    obtain ⟨p, hp, rfl⟩ := List.prefix_filter_iff.mp hcs
    have hsum : sumOf ((touching k p).map fun c => c.transaction.addedUnder k side) =
        posted p k side := by
      rw [sumOf_addedUnder, hnothing p hp, sub_zero, posted_touching]
      intro c hc
      exact (total_of_sumsFit (hfits p hp c hc)).imp fun _ hd => hd.1
    exact hsum ▸ h.across p hp k side
  unfold droppedUnder
  rw [dropped_of_sumsFit hacross, add_zero]
  exact hnothing commits List.prefix_rfl

theorem Transaction.amountsUnder_sublist (t : Transaction) (k : BalanceKey) (side : Side) :
    (t.amountsUnder k side).Sublist t.amounts :=
  (sideAmounts_sublist side _).trans (List.filter_sublist.map _)

theorem posted_eq_sumOf (commits : List Commit) (k : BalanceKey) (side : Side) :
    posted commits k side =
      sumOf (commits.flatMap fun c => c.transaction.amountsUnder k side) := by
  unfold posted
  induction commits with
  | nil => rfl
  | cons c commits ih =>
    rw [List.flatMap_cons, sumOf_append, ← ih, List.map_cons, List.sum_cons]

/-- Amounts that are bounded together fit into the rows, whatever the accounts and the order. -/
theorem rowsFit_of_bounded {commits : List Commit} {s : Nat}
    (h : Bounded (commits.flatMap fun c => c.transaction.amounts) s) : RowsFit commits := by
  constructor
  · intro c hc k side q hq
    have hsub : q.Sublist c.transaction.amounts :=
      hq.sublist.trans (c.transaction.amountsUnder_sublist k side)
    have hall : c.transaction.amounts.Sublist (commits.flatMap fun c => c.transaction.amounts) :=
      List.sublist_flatten_of_mem (List.mem_map_of_mem hc)
    exact (h.sublist (hsub.trans hall)).isDecimal_sumOf
  · intro p hp k side
    rw [posted_eq_sumOf]
    have hsub : (p.flatMap fun c => c.transaction.amountsUnder k side).Sublist
        (p.flatMap fun c => c.transaction.amounts) :=
      List.Sublist.flatMap_right p fun c _ => c.transaction.amountsUnder_sublist k side
    exact (h.sublist (hsub.trans (hp.sublist.flatMap _))).isDecimal_sumOf

end DoubleEntry
