import DoubleEntry.Proofs.Balance.Deltas
import DoubleEntry.Proofs.Balance.Totals
import DoubleEntry.Proofs.Decimal.Rounding
import DoubleEntry.Proofs.Engine.Provenance

/-!
# Checked transactions and their reversals

A reversal is committed without a second look at its amounts. Both folds that look at a transaction,
the balance check and the grouping into deltas, see the two sides of a reversal exchanged and
nothing else: `checkBalanced_opposite` and `Transaction.deltas_reversal` say so of their failures as
well as of their results. Reversed twice, a transaction is back but for its identifiers, its time
and the types of its entries (`Transaction.reversal_mirrors`).

The balance check adds up each side of a currency and layer, the deltas each side of a key. What is
under a key is also in its currency and layer, in the same order, with amounts of other keys in
between. Leaving amounts out makes no running total greater, however it is rounded
(`Decimal.exists_total_of_sublist`). So where the check has come to an end, deltas are computed
without an overflow (`exists_deltas_of_checked`), and again for every reversal.
-/

namespace DoubleEntry

open OrdMap Decimal

/-! ## Reversals mirror their transactions -/

/-- An entry that is booked again with a new identity, for a transaction reversed twice. -/
def Entry.restored (stamp : Stamp) (e : Entry) (index : Nat) : Entry :=
  { e with
    id := stamp.entryId index
    transactionId := stamp.transactionId
    entryType := e.entryType ++ Transaction.voidSuffix ++ Transaction.voidSuffix
    createdAt := stamp.now }

@[simp] theorem Side.opposite_opposite (side : Side) : side.opposite.opposite = side := by
  cases side <;> rfl

namespace Transaction

theorem counterEntry_counterEntry (stamp again : Stamp) (e : Entry) (index index' : Nat) :
    counterEntry again (counterEntry stamp e index) index' = e.restored again index' := by
  simp [counterEntry, Entry.restored]

theorem entries_reversal_reversal (t : Transaction) (stamp again : Stamp) :
    ((t.reversal stamp).reversal again).entries =
      t.entries.zipIdx.map fun p => p.1.restored again p.2 := by
  unfold reversal
  refine List.ext_getElem? fun i => ?_
  simp only [List.getElem?_map, List.getElem?_zipIdx, Option.map_map]
  cases t.entries[i]? with
  | none => rfl
  | some e => exact congrArg some (counterEntry_counterEntry stamp again e _ _)

/-- A reversal has the deltas of its transaction, for the same keys in the same order, with debit
and credit exchanged, or fails to have any as the transaction does. The balance check decides alike
about both, and reports the same currency and layer with the two totals exchanged. Reversing the
reversal gives the transaction back, as one that reverses the reversal: with its own identifiers and
time, no external identifier, and the type of every entry suffixed twice. -/
theorem reversal_mirrors (t : Transaction) (stamp again : Stamp) :
    let r := t.reversal stamp
    deltas r.entries =
        (deltas t.entries).map (List.map fun d => ⟨d.key, d.credit, d.debit⟩) ∧
      checkBalanced r.legs = (checkBalanced t.legs).mapError PostingError.swapTotals ∧
      r.reversal again =
        { t with
          id := again.transactionId
          externalId := none
          reverses := some r.id
          createdAt := again.now
          entries := t.entries.zipIdx.map fun (e, i) => e.restored again i } := by
  intro r
  refine ⟨t.deltas_reversal stamp, ?_, ?_⟩
  · rw [legs_reversal]
    exact checkBalanced_opposite t.legs
  · have hentries := t.entries_reversal_reversal stamp again
    unfold reversal at hentries ⊢
    exact congrArg _ hentries

end Transaction

/-! ## Amounts of a key among those of its bucket -/

/-- The currency and layer of a key. -/
def BalanceKey.bucket (k : BalanceKey) : Bucket := ⟨k.currency, k.layer⟩

theorem entriesUnder_sublist (t : Transaction) (k : BalanceKey) :
    (t.entriesUnder k).Sublist (under (fun e => e.leg.bucket) k.bucket t.entries) := by
  refine List.monotone_filter_right _ fun e he => ?_
  exact decide_eq_true (congrArg BalanceKey.bucket (of_decide_eq_true he))

theorem amountsUnder_sublist_amountsIn (t : Transaction) (k : BalanceKey) (side : Side) :
    (t.amountsUnder k side).Sublist (amountsIn t.legs k.bucket side) := by
  have hside := (entriesUnder_sublist t k).filter fun e => decide (e.direction = side)
  have hamounts := hside.map fun e => e.units.amount
  unfold amountsIn sideAmounts Transaction.legs under
  rw [List.filter_map, List.filter_map, List.map_map]
  exact hamounts

theorem nonneg_of_mem_amountsIn {t : Transaction} {b : Bucket} {side : Side} :
    ∀ x ∈ amountsIn t.legs b side, 0 ≤ x.coeff := by
  intro x hx
  obtain ⟨l, hl, rfl⟩ := List.mem_map.mp ((amountsIn_sublist t.legs b side).subset hx)
  obtain ⟨e, -, rfl⟩ := List.mem_map.mp hl
  exact e.units.nonneg

/-! ## Deltas -/

theorem Units.exists_add {a b : Units} {d : Decimal} (h : a.amount.add b.amount = some d) :
    ∃ c, a.add b = .ok c ∧ c.amount = d := by
  unfold add
  split
  · next d' hd' =>
    cases h.symm.trans hd'
    exact ⟨_, rfl, rfl⟩
  · next hnone => cases h.symm.trans hnone

theorem BalanceDelta.exists_addEntry {d : BalanceDelta} {e : Entry} {x : Decimal}
    (h : (d.on e.direction).add e.units.amount = some x) :
    ∃ d', (d.addEntry e).toOption = some d' ∧ d'.on e.direction = x ∧
      d'.on e.direction.opposite = d.on e.direction.opposite := by
  unfold addEntry add
  cases hside : e.direction with
  | debit =>
    rw [hside] at h
    obtain ⟨u, hu, hx⟩ := Units.exists_add h
    exact ⟨_, toOption_eq_some.mpr (map_eq_ok.mpr ⟨u, hu, rfl⟩), hx, rfl⟩
  | credit =>
    rw [hside] at h
    obtain ⟨u, hu, hx⟩ := Units.exists_add h
    exact ⟨_, toOption_eq_some.mpr (map_eq_ok.mpr ⟨u, hu, rfl⟩), hx, rfl⟩

/-- A transaction whose sides can be added up key by key has deltas. -/
theorem exists_deltas_of_totals {t : Transaction}
    (h : ∀ k side, ∃ x, total (t.amountsUnder k side) = some x) :
    ∃ ds, deltas t.entries = .ok ds := by
  refine exists_deltas_iff.mpr fun k => ?_
  have hsides : ∀ side, ∃ x, (sideAmounts Entry.direction (fun e => e.units.amount) side
      (t.entriesUnder k)).foldlM add ((BalanceDelta.zero k).on side) = some x := by
    intro side
    obtain ⟨x, hx⟩ := h k side
    refine ⟨x, ?_⟩
    cases side <;> exact hx
  obtain ⟨d, hd⟩ := exists_foldlM_side BalanceDelta.exists_addEntry hsides
  refine ⟨d, toOption_eq_some.mp ?_⟩
  unfold Transaction.deltaUnder
  rw [foldlM_toOption]
  exact hd

/-- **A transaction that has passed the balance check has deltas.** -/
theorem exists_deltas_of_checked {t : Transaction} (h : checkBalanced t.legs = .ok ()) :
    ∃ ds, deltas t.entries = .ok ds := by
  obtain ⟨totals, hsum⟩ := exists_totals_of_ok h
  refine exists_deltas_of_totals fun k side => ?_
  obtain ⟨x, hx, -⟩ := exists_total_of_sublist (amountsUnder_sublist_amountsIn t k side)
    nonneg_of_mem_amountsIn (total_amountsIn hsum k.bucket side)
  exact ⟨x, hx⟩

/-! ## Reversals of reversals -/

/-- A transaction reversed again and again, with one stamp after the other. -/
def Transaction.reversals (t : Transaction) (stamps : List Stamp) : Transaction :=
  stamps.foldl Transaction.reversal t

theorem checkBalanced_reversals {t : Transaction} (h : checkBalanced t.legs = .ok ())
    (stamps : List Stamp) : checkBalanced (t.reversals stamps).legs = .ok () := by
  unfold Transaction.reversals
  induction stamps generalizing t with
  | nil => exact h
  | cons stamp stamps ih =>
    refine @ih (t.reversal stamp) ?_
    rw [Transaction.legs_reversal]
    exact checkBalanced_map_opposite h

/-- What is assembled from materialized entries has deltas, and so has every reversal. -/
theorem exists_deltas_of_assembled {source template : TxTemplate} {params : Params}
    {header : ResolvedHeader} {entries : List ResolvedEntry} {stamp : Stamp} {t : Transaction}
    (hentries : source.materializeEntries params = .ok entries)
    (ht : Transaction.assemble template header entries stamp = .ok t) (stamps : List Stamp) :
    ∃ ds, deltas (t.reversals stamps).entries = .ok ds := by
  refine exists_deltas_of_checked (checkBalanced_reversals ?_ stamps)
  rw [(Transaction.assemble_eq_ok ht).1]
  exact TxTemplate.materializeEntries_eq_ok hentries

end DoubleEntry
