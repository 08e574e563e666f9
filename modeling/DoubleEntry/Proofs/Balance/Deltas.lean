import DoubleEntry.Balance.Basic
import DoubleEntry.Proofs.Grouping

/-!
# What a transaction adds under a key

`deltas` groups the entries of a transaction by key. Seen from one key it is the fold of the
entries of that key alone (`Transaction.deltaUnder`), and each key touched has one delta
(`deltas_eq_ok`). A reversal has the same deltas with their sides exchanged
(`Transaction.deltas_reversal`).
`applyDelta_eq_ok` says all that applying a delta does to a row.
-/

namespace DoubleEntry

open OrdMap

/-! ## The delta of a key -/

/-- The entries under a key, in their order. -/
def Transaction.entriesUnder (t : Transaction) (k : BalanceKey) : List Entry :=
  under Entry.balanceKey k t.entries

/-- The transaction has an entry under the key. -/
def Transaction.Touches (t : Transaction) (k : BalanceKey) : Prop :=
  k ∈ t.entries.map Entry.balanceKey

instance (t : Transaction) (k : BalanceKey) : Decidable (t.Touches k) := by
  unfold Transaction.Touches; infer_instance

/-- Add an entry to a delta. -/
def BalanceDelta.addEntry (d : BalanceDelta) (e : Entry) : Except ValueError BalanceDelta :=
  d.add e.direction e.units

/-- What a transaction adds under a key: its entries there, added up in order. -/
def Transaction.deltaUnder (t : Transaction) (k : BalanceKey) : Except ValueError BalanceDelta :=
  (t.entriesUnder k).foldlM BalanceDelta.addEntry (.zero k)

theorem BalanceDelta.key_of_addEntry {d d' : BalanceDelta} {e : Entry}
    (h : d.addEntry e = .ok d') : d'.key = d.key := by
  unfold addEntry add at h
  cases hside : e.direction with
  | debit =>
    rw [hside] at h
    obtain ⟨u, -, rfl⟩ := map_eq_ok.mp h
    rfl
  | credit =>
    rw [hside] at h
    obtain ⟨u, -, rfl⟩ := map_eq_ok.mp h
    rfl

theorem BalanceDelta.key_of_foldlM {es : List Entry} {d d' : BalanceDelta}
    (h : es.foldlM addEntry d = .ok d') : d'.key = d.key := by
  induction es generalizing d with
  | nil =>
    cases h
    rfl
  | cons e es ih =>
    rw [List.foldlM_cons] at h
    obtain ⟨d₁, hd₁, h⟩ := bind_eq_ok.mp h
    rw [ih h, key_of_addEntry hd₁]

/-- The deltas of a transaction come in the order of their keys: one for every key touched, and what
the transaction adds there. -/
theorem deltas_in_order {t : Transaction} {ds : List BalanceDelta}
    (h : deltas t.entries = .ok ds) :
    (ds.map BalanceDelta.key).Pairwise (fun k k' => compare k k' = .lt) ∧
      (∀ k, k ∈ ds.map BalanceDelta.key ↔ t.Touches k) ∧
      ∀ d ∈ ds, t.deltaUnder d.key = .ok d := by
  obtain ⟨m, hm, rfl⟩ := map_eq_ok.mp h
  have hgather : t.entries.foldlM (gather Entry.balanceKey BalanceDelta.zero
      BalanceDelta.addEntry) ∅ = .ok m := hm
  have hrow : ∀ k d, (k, d) ∈ m.rows → t.deltaUnder k = .ok d := by
    intro k d hkd
    have hfold := foldlM_under_of_gather hgather k
    rwa [valueAt_of_get? (mem_rows_iff.mp hkd)] at hfold
  have hkey : ∀ p ∈ m.rows, p.2.key = p.1 := fun p hp =>
    BalanceDelta.key_of_foldlM (hrow p.1 p.2 hp)
  have hkeys : m.values.map BalanceDelta.key = m.keys := by
    unfold OrdMap.values OrdMap.keys
    rw [List.map_map]
    exact List.map_congr_left hkey
  refine ⟨?_, fun k => ?_, fun d hd => ?_⟩
  · rw [hkeys]
    exact List.pairwise_map.mpr m.ascending
  · rw [hkeys, mem_keys_gather hgather]
    simp [Transaction.Touches]
  · obtain ⟨⟨k, d⟩, hkd, rfl⟩ := List.mem_map.mp hd
    have hdk : d.key = k := hkey (k, d) hkd
    rw [hdk]
    exact hrow k d hkd

theorem deltas_eq_ok {t : Transaction} {ds : List BalanceDelta} (h : deltas t.entries = .ok ds) :
    (ds.map BalanceDelta.key).Nodup ∧ (∀ k, k ∈ ds.map BalanceDelta.key ↔ t.Touches k) ∧
      ∀ d ∈ ds, t.deltaUnder d.key = .ok d := by
  obtain ⟨hascending, hrest⟩ := deltas_in_order h
  exact ⟨nodup_of_ascending hascending, hrest⟩

/-- There are deltas as soon as there is one for each key. -/
theorem exists_deltas_iff {t : Transaction} :
    (∃ ds, deltas t.entries = .ok ds) ↔ ∀ k, ∃ d, t.deltaUnder k = .ok d := by
  constructor
  · rintro ⟨ds, hds⟩ k
    obtain ⟨m, hm, -⟩ := map_eq_ok.mp hds
    have hgather : t.entries.foldlM (gather Entry.balanceKey BalanceDelta.zero
        BalanceDelta.addEntry) ∅ = .ok m := hm
    exact ⟨_, foldlM_under_of_gather hgather k⟩
  · intro h
    have hgather : ∃ m, t.entries.foldlM (gather Entry.balanceKey BalanceDelta.zero
        BalanceDelta.addEntry) ∅ = .ok m := exists_gather h
    obtain ⟨m, hm⟩ := hgather
    exact ⟨_, map_eq_ok.mpr ⟨m, hm, rfl⟩⟩

/-! ## The deltas of a reversal -/

/-- An entry that books the same amount under the same key on the other side. -/
structure Entry.Undoes (e' e : Entry) : Prop where
  balanceKey : e'.balanceKey = e.balanceKey
  direction : e'.direction = e.direction.opposite
  units : e'.units = e.units

/-- A delta with its sides exchanged. -/
def BalanceDelta.swap (d : BalanceDelta) : BalanceDelta := ⟨d.key, d.credit, d.debit⟩

theorem BalanceDelta.addEntry_swap {e e' : Entry} (h : e'.Undoes e) (d : BalanceDelta) :
    d.swap.addEntry e' = (d.addEntry e).map swap := by
  unfold addEntry add
  rw [h.direction, h.units]
  cases e.direction with
  | debit =>
    show (d.debit.add e.units).map _ = ((d.debit.add e.units).map _).map swap
    cases d.debit.add e.units <;> rfl
  | credit =>
    show (d.credit.add e.units).map _ = ((d.credit.add e.units).map _).map swap
    cases d.credit.add e.units <;> rfl

theorem Transaction.undoes_reversal (t : Transaction) (stamp : Stamp) :
    List.Forall₂ (fun e e' => e'.Undoes e) t.entries (t.reversal stamp).entries := by
  suffices h : ∀ (es : List Entry) (n : Nat), List.Forall₂ (fun e e' => e'.Undoes e) es
      ((es.zipIdx n).map fun p => counterEntry stamp p.1 p.2) from h t.entries 0
  intro es
  induction es with
  | nil => exact fun _ => .nil
  | cons e es ih => exact fun n => .cons ⟨rfl, rfl, rfl⟩ (ih (n + 1))

/-- A reversal has the deltas of its transaction with their sides exchanged, or fails to have any as
the transaction does. -/
theorem Transaction.deltas_reversal (t : Transaction) (stamp : Stamp) :
    deltas (t.reversal stamp).entries = (deltas t.entries).map (List.map BalanceDelta.swap) := by
  have hzero : ∀ k, (BalanceDelta.zero k).swap = .zero k := fun _ => rfl
  have hentries : List.Forall₂ (fun e e' => e'.balanceKey = e.balanceKey ∧
      ∀ d : BalanceDelta, d.swap.addEntry e' = (d.addEntry e).map BalanceDelta.swap)
      t.entries (t.reversal stamp).entries :=
    (t.undoes_reversal stamp).imp fun e e' he => ⟨he.balanceKey, BalanceDelta.addEntry_swap he⟩
  have hgather : (t.reversal stamp).entries.foldlM addEntry ∅ =
      (t.entries.foldlM addEntry ∅).map (mapValues BalanceDelta.swap) :=
    foldlM_gather_mapValues hzero hentries ∅
  unfold deltas
  rw [hgather]
  cases t.entries.foldlM addEntry ∅ with
  | error e => rfl
  | ok m => exact congrArg Except.ok (values_mapValues BalanceDelta.swap m)

/-- A transaction that has deltas can be reversed. -/
theorem Transaction.exists_deltas_reversal {t : Transaction} (stamp : Stamp)
    (h : ∃ ds, deltas t.entries = .ok ds) : ∃ ds, deltas (t.reversal stamp).entries = .ok ds := by
  obtain ⟨ds, hds⟩ := h
  refine ⟨ds.map BalanceDelta.swap, ?_⟩
  rw [t.deltas_reversal stamp, hds]
  rfl

/-! ## Applying a delta -/

theorem nextCount_eq_ok {ε : Type} {n n' : UInt64} (h : nextCount (ε := ε) n = .ok n') :
    n'.toNat = n.toNat + 1 := by
  unfold nextCount at h
  split at h
  · next hlt =>
    cases h
    rw [UInt64.toNat_add, UInt64.toNat_one]
    exact Nat.mod_eq_of_lt hlt
  · cases h

/-- A sum is written without zeros past its last place. -/
theorem Units.zeros_of_add {u v w : Units} (h : u.add v = .ok w) : w.zeros = 0 := by
  unfold add at h
  split at h
  · cases h
    rfl
  · cases h

/-- The totals that a row starts from. -/
def totalsBefore (current : Option BalanceSnapshot) : Units × Units :=
  ((current.map BalanceSnapshot.debitTotal).getD .zero,
    (current.map BalanceSnapshot.creditTotal).getD .zero)

/-- The totals after a delta. -/
def addDelta (totals : Units × Units) (d : BalanceDelta) : Except ValueError (Units × Units) := do
  let debits ← totals.1.add d.debit
  let credits ← totals.2.add d.credit
  pure (debits, credits)

/-- All that applying a delta does. -/
theorem applyDelta_eq_ok {current : Option BalanceSnapshot} {d : BalanceDelta}
    {id : TransactionId} {now : Timestamp} {b : BalanceSnapshot}
    (h : applyDelta current d id now = .ok b) :
    b.key = d.key ∧
      addDelta (totalsBefore current) d = .ok (b.debitTotal, b.creditTotal) ∧
      b.version.toNat = ((current.map BalanceSnapshot.version).getD 0).toNat + 1 ∧
      b.lastTransactionId = id ∧
      b.createdAt = (current.map BalanceSnapshot.createdAt).getD now ∧
      b.modifiedAt = now := by
  obtain ⟨debits, hdebits, h⟩ := bind_eq_ok.mp h
  obtain ⟨credits, hcredits, h⟩ := bind_eq_ok.mp h
  obtain ⟨version, hversion, h⟩ := bind_eq_ok.mp h
  cases h
  refine ⟨rfl, ?_, nextCount_eq_ok hversion, rfl, rfl, rfl⟩
  exact bind_eq_ok.mpr ⟨debits, lift_eq_ok.mp hdebits,
    bind_eq_ok.mpr ⟨credits, lift_eq_ok.mp hcredits, rfl⟩⟩

end DoubleEntry
