import DoubleEntry.Proofs.Engine.Writes
import DoubleEntry.Proofs.Posting.Balanced

/-!
# Where transactions come from

Every transaction ever committed is assembled from entries that a template has materialized, or it
is the reversal of a transaction that was stored, hence committed, before. So what holds of
assembled transactions and is kept by reversals holds of all: `committed_induction`. In particular
every transaction committed passes the balance check, and is within one journal
(`checked_of_committed`).
-/

namespace DoubleEntry

open Ledger OrdMap Decimal

/-! ## Assembled and reversed transactions -/

/-- What a transaction weighs in the balance check. -/
def Transaction.legs (t : Transaction) : List Leg := t.entries.map Entry.leg

/-- All entries are of the journal of the transaction. -/
def Transaction.InOneJournal (t : Transaction) : Prop :=
  ∀ e ∈ t.entries, e.journalId = t.journalId

/-- The same amount on the other side. -/
def Leg.opposite (l : Leg) : Leg := { l with side := l.side.opposite }

theorem map_zipIdx_fst {α β : Type} (f : α → β) (xs : List α) :
    xs.zipIdx.map (fun p => f p.1) = xs.map f := by
  rw [show (fun p : α × Nat => f p.1) = f ∘ Prod.fst from rfl, ← List.map_map,
    List.zipIdx_map_fst]

theorem TxTemplate.materializeEntries_eq_ok {template : TxTemplate} {params : Params}
    {entries : List ResolvedEntry} (h : template.materializeEntries params = .ok entries) :
    checkBalanced (entries.map ResolvedEntry.leg) = .ok () := by
  obtain ⟨resolved, -, h⟩ := bind_eq_ok.mp h
  obtain ⟨_, hbalanced, h⟩ := bind_eq_ok.mp h
  cases h
  exact hbalanced

theorem assembleEntry_eq_ok {journalId : JournalId} {stamp : Stamp} {r : ResolvedEntry}
    {index : Nat} {e : Entry} (h : assembleEntry journalId stamp r index = .ok e) :
    e.leg = r.leg ∧ e.journalId = journalId := by
  obtain ⟨sequence, -, h⟩ := bind_eq_ok.mp h
  cases h
  exact ⟨rfl, rfl⟩

namespace Transaction

theorem assemble_eq_ok {template : TxTemplate} {header : ResolvedHeader}
    {entries : List ResolvedEntry} {stamp : Stamp} {t : Transaction}
    (h : assemble template header entries stamp = .ok t) :
    t.legs = entries.map ResolvedEntry.leg ∧ t.InOneJournal := by
  obtain ⟨assembled, hassembled, h⟩ := bind_eq_ok.mp h
  have hentries := forall₂_of_mapM_eq_ok hassembled
  cases h
  constructor
  · have hlegs : entries.zipIdx.map (fun p => p.1.leg) = assembled.map Entry.leg := by
      rw [← List.forall₂_eq_eq_eq, List.forall₂_map_left_iff, List.forall₂_map_right_iff]
      exact hentries.imp fun p e he => (assembleEntry_eq_ok he).1.symm
    exact hlegs.symm.trans (map_zipIdx_fst ResolvedEntry.leg entries)
  · intro e he
    obtain ⟨p, -, hp⟩ := exists_mem_of_forall₂ hentries he
    exact (assembleEntry_eq_ok hp).2

theorem legs_reversal (t : Transaction) (stamp : Stamp) :
    (t.reversal stamp).legs = t.legs.map Leg.opposite := by
  unfold legs reversal
  rw [List.map_map, List.map_map]
  exact map_zipIdx_fst (Leg.opposite ∘ Entry.leg) t.entries

theorem InOneJournal.reversal {t : Transaction} (h : t.InOneJournal) (stamp : Stamp) :
    (t.reversal stamp).InOneJournal := by
  intro e he
  obtain ⟨p, hp, rfl⟩ := List.mem_map.mp he
  exact h p.1 (List.fst_mem_of_mem_zipIdx hp)

end Transaction

/-! ## Committed transactions -/

section Induction

variable {P : Transaction → Prop}

/-- Whatever is committed or stored has a property. -/
structure Chronicle.All (h : Chronicle) (P : Transaction → Prop) : Prop where
  committed : ∀ c ∈ h.commits, P c.transaction
  stored : ∀ id t, h.state.transactions.get? id = some t → P t

theorem Chronicle.All.empty : Chronicle.empty.All P where
  committed _ h := nomatch h
  stored _ _ h := nomatch h

theorem Chronicle.All.perform {h : Chronicle} (hall : h.All P)
    (hpost : ∀ template params header entries stamp t,
      TxTemplate.materializeEntries template params = .ok entries →
      Transaction.assemble template header entries stamp = .ok t → P t)
    (hvoid : ∀ t stamp, P t → P (t.reversal stamp)) (r : Request) : (h.perform r).2.All P := by
  obtain ⟨operation, stamp, m⟩ := r
  rcases Chronicle.perform_cases h ⟨operation, stamp, m⟩ with
    hsame | ⟨c, reply, s', result, hw, hanswer, hrun⟩
  · rwa [hsame]
  · rw [hrun]
    rcases StoreState.postings_of_answer hanswer with
      ⟨t, rows, rfl, hplan, -, records, rfl⟩ | ⟨hc, hsame⟩
    · have ht : P t := by
        cases hw with
        | post _ _ _ _ _ hentries _ ht => exact hpost _ _ _ _ _ _ hentries ht
        | void htarget => exact hvoid _ _ (hall.stored _ _ htarget)
      refine ⟨fun c hc => ?_, fun id t' ht' => ?_⟩
      · rcases List.mem_append.mp hc with hc | hc
        · exact hall.committed c hc
        · obtain rfl := List.mem_singleton.mp hc
          exact ht
      · change (h.state.transactions.put t.id t).get? id = some t' at ht'
        rw [get?_put] at ht'
        split at ht'
        · cases ht'
          exact ht
        · exact hall.stored id t' ht'
    · rw [Chronicle.commitOf_of_ne hc, List.append_nil]
      refine ⟨hall.committed, fun id t ht => hall.stored id t ?_⟩
      rwa [← hsame.transactions]

/-- What holds of every transaction assembled from materialized entries, and of the reversal of
every transaction of which it holds, holds of all committed transactions. -/
theorem committed_induction
    (hpost : ∀ template params header entries stamp t,
      TxTemplate.materializeEntries template params = .ok entries →
      Transaction.assemble template header entries stamp = .ok t → P t)
    (hvoid : ∀ t stamp, P t → P (t.reversal stamp)) (requests : List Request) :
    ∀ c ∈ commitsAfter requests, P c.transaction := by
  have hall := chronicleAfter_invariant (I := fun h => h.All P) Chronicle.All.empty
    (fun _ r h => h.perform hpost hvoid r) requests
  exact hall.committed

end Induction

/-! ## Checks that reversals pass -/

/-- Totals with their sides exchanged. -/
def SideTotals.swap (t : SideTotals) : SideTotals := ⟨t.credits, t.debits⟩

/-- The same failure, with the totals exchanged where it reports any. -/
def PostingError.swapTotals : PostingError → PostingError
  | .unbalanced currency layer debits credits => .unbalanced currency layer credits debits
  | e => e

theorem SideTotals.add_opposite (t : SideTotals) (side : Side) (units : Decimal) :
    t.swap.add side.opposite units = (t.add side units).map swap := by
  unfold add
  cases side with
  | debit =>
    dsimp only [Side.opposite]
    rw [Option.map_map]
    rfl
  | credit =>
    dsimp only [Side.opposite]
    rw [Option.map_map]
    rfl

theorem SideTotals.addLeg_opposite (t : SideTotals) (leg : Leg) :
    t.swap.addLeg leg.opposite = (t.addLeg leg).map swap := by
  have hadd : t.swap.add leg.opposite.side leg.opposite.units =
      (t.add leg.side leg.units).map swap := t.add_opposite leg.side leg.units
  unfold addLeg
  rw [hadd]
  cases t.add leg.side leg.units <;> rfl

theorem sumLegs_map_opposite (legs : List Leg) :
    sumLegs (legs.map Leg.opposite) = (sumLegs legs).map (mapValues SideTotals.swap) := by
  have hlegs : List.Forall₂ (fun l l' : Leg => l'.bucket = l.bucket ∧
      ∀ t : SideTotals, t.swap.addLeg l' = (t.addLeg l).map SideTotals.swap)
      legs (legs.map Leg.opposite) := by
    rw [List.forall₂_map_right_iff, List.forall₂_same]
    exact fun l _ => ⟨rfl, fun t => t.addLeg_opposite l⟩
  rw [sumLegs_eq_gather, sumLegs_eq_gather]
  exact foldlM_gather_mapValues (f := SideTotals.swap) (fun _ => rfl) hlegs ∅

theorem SideTotals.balanced_swap (t : SideTotals) : t.swap.balanced = t.balanced := by
  rw [Bool.eq_iff_iff, balanced_iff, balanced_iff]
  exact eq_comm

theorem checkTotals_map_swap (rows : List (Bucket × SideTotals)) :
    checkTotals (rows.map fun p => (p.1, p.2.swap)) =
      (checkTotals rows).mapError PostingError.swapTotals := by
  induction rows with
  | nil => rfl
  | cons p rest ih =>
    obtain ⟨b, t⟩ := p
    rw [List.map_cons]
    unfold checkTotals
    rw [t.balanced_swap, ih]
    split <;> rfl

/-- The check decides alike about legs on the other sides, and reports the same bucket with its
totals exchanged. -/
theorem checkBalanced_opposite (legs : List Leg) :
    checkBalanced (legs.map Leg.opposite) =
      (checkBalanced legs).mapError PostingError.swapTotals := by
  unfold checkBalanced
  rw [sumLegs_map_opposite]
  cases hsum : sumLegs legs with
  | error e =>
    obtain ⟨_, _, _, _, _, _, _, rfl⟩ := sumLegs_error hsum
    rfl
  | ok totals => exact checkTotals_map_swap totals.rows

/-- Reversing a transaction swaps the totals of each bucket, so the check passes as before. -/
theorem checkBalanced_map_opposite {legs : List Leg} (h : checkBalanced legs = .ok ()) :
    checkBalanced (legs.map Leg.opposite) = .ok () := by
  rw [checkBalanced_opposite, h]
  rfl

/-- Every committed transaction is within one journal and has passed the balance check. -/
theorem checked_of_committed (requests : List Request) :
    ∀ c ∈ commitsAfter requests,
      c.transaction.InOneJournal ∧ checkBalanced c.transaction.legs = .ok () := by
  refine committed_induction (P := fun t => t.InOneJournal ∧ checkBalanced t.legs = .ok ()) ?_ ?_
    requests
  · intro template params header entries stamp t hentries ht
    obtain ⟨hlegs, hjournal⟩ := Transaction.assemble_eq_ok ht
    refine ⟨hjournal, ?_⟩
    rw [hlegs]
    exact TxTemplate.materializeEntries_eq_ok hentries
  · rintro t stamp ⟨hjournal, hbalanced⟩
    refine ⟨hjournal.reversal stamp, ?_⟩
    rw [Transaction.legs_reversal]
    exact checkBalanced_map_opposite hbalanced

end DoubleEntry
