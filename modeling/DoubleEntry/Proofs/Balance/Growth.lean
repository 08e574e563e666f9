import DoubleEntry.Balance.Basic
import DoubleEntry.Proofs.Balance.Totals
import DoubleEntry.Proofs.Decimal.Rounding
import DoubleEntry.Proofs.Engine.Interleaving

/-!
# Totals that rounding does not mislead

Amounts are not negative, and a sum is no smaller than what is added, whether digits are dropped
from it or not. So whatever is committed, the stored totals of a key stay as they are or rise, and
its version counts the commits that touch it (`Chronicle.GrowsUnder`). Every call sees to that,
whatever its arguments (`growsUnder_run`), hence any turns of any operations do.

The signed balance is what the two totals of a row differ by: debits less credits, or credits less
debits. Neither difference overflows, and each is the other one negated. A difference may have more
digits than a coefficient holds; what is rounded then keeps its sign, so an account never reads as
settled or overdrawn unless it is.

Main statements: `totals_never_fall` and `signedNormalBalance_sign`.
-/

namespace DoubleEntry

open Ledger OrdMap Decimal

/-- A sum of amounts is no smaller than each of them. -/
theorem Units.le_of_add {a b c : Units} (h : a.add b = .ok c) :
    0 ≤ c.amount.value ∧ a.amount.value ≤ c.amount.value ∧ b.amount.value ≤ c.amount.value :=
  ⟨value_nonneg c.nonneg, value_le_of_add a.nonneg b.nonneg (amount_add h)⟩

theorem value_le_of_addDelta {totals totals' : Units × Units} {d : BalanceDelta}
    (h : addDelta totals d = .ok totals') (side : Side) :
    (sideOf totals side).value ≤ (sideOf totals' side).value := by
  obtain ⟨debits, hdebits, h⟩ := bind_eq_ok.mp h
  obtain ⟨credits, hcredits, h⟩ := bind_eq_ok.mp h
  cases h
  cases side with
  | debit => exact (Units.le_of_add hdebits).2.1
  | credit => exact (Units.le_of_add hcredits).2.1

/-! ## The row of a key -/

/-- The stored total of a key on one side; nothing where there is no row. -/
def StoreState.totalUnder (s : StoreState) (k : BalanceKey) (side : Side) : Decimal :=
  sideOf (totalsBefore (s.balances.get? k)) side

/-- The version of the row of a key; nothing where there is none. -/
def StoreState.versionUnder (s : StoreState) (k : BalanceKey) : Nat :=
  (((s.balances.get? k).map BalanceSnapshot.version).getD 0).toNat

/-- From one chronicle to a later one, the row of a key stays, its totals do not fall, and its
version grows by one for every new commit that touches the key. -/
structure Chronicle.GrowsUnder (k : BalanceKey) (h h' : Chronicle) : Prop where
  row : (h.state.balances.get? k).isSome → (h'.state.balances.get? k).isSome
  total_le : ∀ side, (h.state.totalUnder k side).value ≤ (h'.state.totalUnder k side).value
  version : ∃ new, h'.commits = h.commits ++ new ∧
    h'.state.versionUnder k = h.state.versionUnder k + (touching k new).length

namespace Chronicle.GrowsUnder

variable {k : BalanceKey} {h h' h'' : Chronicle}

/-- Where the row is left as it is, nothing new may touch the key. -/
theorem of_get?_eq (hrow : h'.state.balances.get? k = h.state.balances.get? k) {new : List Commit}
    (hcommits : h'.commits = h.commits ++ new) (hnew : touching k new = []) :
    h.GrowsUnder k h' := by
  refine ⟨fun hsome => hrow ▸ hsome, fun side => ?_, new, hcommits, ?_⟩
  · unfold StoreState.totalUnder
    rw [hrow]
  · unfold StoreState.versionUnder
    rw [hrow, hnew]
    rfl

theorem refl (k : BalanceKey) (h : Chronicle) : h.GrowsUnder k h :=
  of_get?_eq rfl (List.append_nil _).symm rfl

theorem trans (hfirst : h.GrowsUnder k h') (hthen : h'.GrowsUnder k h'') :
    h.GrowsUnder k h'' := by
  obtain ⟨new, hnew, hversion⟩ := hfirst.version
  obtain ⟨more, hmore, hversion'⟩ := hthen.version
  refine ⟨fun hsome => hthen.row (hfirst.row hsome),
    fun side => (hfirst.total_le side).trans (hthen.total_le side), new ++ more, ?_, ?_⟩
  · rw [hmore, hnew, List.append_assoc]
  · rw [hversion', hversion, Nat.add_assoc, ← List.length_append]
    unfold touching
    rw [List.filter_append]

/-- A delta raises the row it is applied to. -/
theorem of_applyDelta {d : BalanceDelta} {c : Commit} {b : BalanceSnapshot}
    (hb : applyDelta (h.state.balances.get? k) d c.transaction.id c.time = .ok b)
    (hrow : h'.state.balances.get? k = some b) (hcommits : h'.commits = h.commits ++ [c])
    (hc : c.transaction.Touches k) : h.GrowsUnder k h' := by
  obtain ⟨-, htotals, hversion, -⟩ := applyDelta_eq_ok hb
  have hone : touching k [c] = [c] := touching_concat_of_touches hc []
  refine ⟨fun _ => hrow ▸ rfl, fun side => ?_, [c], hcommits, ?_⟩
  · unfold StoreState.totalUnder
    rw [hrow]
    exact value_le_of_addDelta htotals side
  · unfold StoreState.versionUnder
    rw [hrow, hone]
    exact hversion

end Chronicle.GrowsUnder

/-- Every call lets every key grow, whatever its arguments. -/
theorem growsUnder_run (k : BalanceKey) (m : Moment) (c : StoreCall) (h : Chronicle) :
    h.GrowsUnder k (Chronicle.run m c h).2 := by
  rcases Chronicle.run_cases m c h with
    ⟨t, rows, s', hplan, -, ⟨records, rfl⟩, hrun⟩ | ⟨s', hsame, hrun⟩
  · rw [hrun]
    by_cases htouches : t.Touches k
    · obtain ⟨b, d, hb, -, -, happly⟩ := StoreState.get?_record_of_touches hplan htouches
      exact .of_applyDelta (c := ⟨m.now, t⟩) happly hb rfl htouches
    · refine .of_get?_eq (StoreState.get?_record_of_not_touches hplan htouches) rfl ?_
      exact touching_concat_of_not_touches htouches []
  · rw [hrun]
    exact .of_get?_eq (congrArg (get? k) hsame.balances) (List.append_nil _).symm rfl

theorem growsUnder_interleave (k : BalanceKey) (asked : List (Operation × Stamp))
    (turns more : List Turn) :
    (interleave asked turns).chronicle.GrowsUnder k
      (interleave asked (turns ++ more)).chronicle := by
  induction more using List.reverseRecOn with
  | nil =>
    rw [List.append_nil]
    exact .refl k _
  | append_singleton more turn ih =>
    rw [← List.append_assoc, interleave_concat]
    rcases (interleave asked (turns ++ more)).take_chronicle turn with hsame | ⟨c, hcall⟩
    · rwa [hsame]
    · rw [hcall]
      exact ih.trans (growsUnder_run k turn.moment c _)

/-- A sum of amounts is not below zero and no smaller than each of them. Hence every call, whatever
its arguments and in whatever state, leaves the totals of a key or raises them, and counts in its
version the commit it makes under the key, if any. So it is from any state that operations at work
together lead to, whatever turns they take, to any later one, and from the state after some requests
to the one after more. -/
theorem totals_never_fall :
    (∀ a b c : Units, a.add b = .ok c → 0 ≤ c.amount.value ∧
      a.amount.value ≤ c.amount.value ∧ b.amount.value ≤ c.amount.value) ∧
    (∀ k m c (h : Chronicle), h.GrowsUnder k (Chronicle.run m c h).2) ∧
    (∀ k asked turns more, (interleave asked turns).chronicle.GrowsUnder k
      (interleave asked (turns ++ more)).chronicle) ∧
    ∀ k requests more,
      (chronicleAfter requests).GrowsUnder k (chronicleAfter (requests ++ more)) := by
  refine ⟨fun a b c => Units.le_of_add, growsUnder_run, growsUnder_interleave,
    fun k requests more => ?_⟩
  obtain ⟨turns, turns', hturns, hturns'⟩ := exists_turns_append requests more
  rw [← hturns, ← hturns']
  exact growsUnder_interleave k _ turns turns'

/-- A transfer too small to show beside a large one leaves the total where it was, and is counted.
The sum that drops it is no smaller than what is added. -/
theorem totals_never_fall_sample :
    let large : Units := ⟨(make? 80000000000 0).getD .zero, by decide +kernel, 0⟩
    let small : Units := ⟨(make? 5 18).getD .zero, by decide +kernel, 0⟩
    let requests := Sample.opened ++ [Sample.request 100 (Sample.transfer 2 3 80000000000 0 "a")]
    let more := [Sample.request 200 (Sample.transfer 2 4 5 18 "b")]
    let k := Sample.dollarsOf 2
    (∃ c, large.add small = .ok c ∧ c.amount.value = large.amount.value ∧
      large.amount.value ≤ c.amount.value ∧ small.amount.value ≤ c.amount.value) ∧
      (chronicleAfter requests).GrowsUnder k (chronicleAfter (requests ++ more)) ∧
      (stateAfter requests).totalUnder k .debit = (make? 80000000000 0).getD .zero ∧
      ((stateAfter (requests ++ more)).totalUnder k .debit).value = 80000000000 ∧
      (stateAfter requests).versionUnder k = 1 ∧
      (stateAfter (requests ++ more)).versionUnder k = 2 := by
  intro large small requests more k
  obtain ⟨c, hc⟩ := exists_eq_ok (show (large.add small).isOk = true by decide +kernel)
  have hvalue : (large.add small).map (fun c => c.amount.value) = .ok large.amount.value := by
    decide +kernel
  rw [hc] at hvalue
  obtain ⟨-, hlarge, hsmall⟩ := totals_never_fall.1 large small c hc
  exact ⟨⟨c, hc, Except.ok.inj hvalue, hlarge, hsmall⟩, totals_never_fall.2.2.2 k requests more,
    by decide +kernel, by decide +kernel, by decide +kernel, by decide +kernel⟩

/-! ## The signed balance -/

theorem sub_debits_credits (debits credits : Units) :
    debits.amount.sub credits.amount = some (signedNormalBalance .debit debits credits) :=
  (Option.some_get _).symm

theorem sub_credits_debits (debits credits : Units) :
    credits.amount.sub debits.amount = some (signedNormalBalance .credit debits credits) :=
  (Option.some_get _).symm

/-- Both signed balances exist, each is the other one negated, and the one of the debit side is
above, at or below zero exactly as the debits are more than, as much as or less than the
credits. -/
theorem signedNormalBalance_sign (debits credits : Units) :
    let balance := fun side => signedNormalBalance side debits credits
    debits.amount.sub credits.amount = some (balance .debit) ∧
      credits.amount.sub debits.amount = some (balance .credit) ∧
      (balance .credit).value = -(balance .debit).value ∧
      (0 < (balance .debit).value ↔ credits.amount.value < debits.amount.value) ∧
      ((balance .debit).value = 0 ↔ debits.amount.value = credits.amount.value) ∧
      ((balance .debit).value < 0 ↔ debits.amount.value < credits.amount.value) := by
  intro balance
  have hdebit := sub_debits_credits debits credits
  have hcredit := sub_credits_debits debits credits
  have hsign := cmp_value_sub hdebit
  exact ⟨hdebit, hcredit, value_sub_comm hdebit hcredit,
    lt_iff_lt_of_cmp_eq_cmp (cmp_eq_cmp_symm.mp hsign),
    eq_iff_eq_of_cmp_eq_cmp hsign, lt_iff_lt_of_cmp_eq_cmp hsign⟩

/-- The largest total less the smallest amount there is: nothing is left of the amount. -/
example : ∃ debits credits, credits.amount.coeff = 1 ∧ credits.amount.scale = maxScale ∧
    debits.amount = Decimal.max ∧ signedNormalBalance .debit debits credits = Decimal.max :=
  ⟨⟨Decimal.max, by decide, 0⟩, ⟨ofCoeff 1 maxScale (by decide) (by decide), by decide, 0⟩,
    rfl, rfl, rfl, by decide +kernel⟩

end DoubleEntry
