import DoubleEntry.Proofs.Balance.History
import DoubleEntry.Proofs.Engine.Effects
import Mathlib.Data.List.Nodup

/-!
# What the tables hold of the commits

As long as identifiers are fresh, the tables of postings are the list of commits seen from several
sides: transactions by identifier and by external identifier, entries by account, and the events in
the outbox. `Chronicle.Kept` says so of all of them at once, and `Kept.run` that a call preserves it
if a transaction that is committed carries identifiers of its own.

Main statement: `Kept.appliedOnce`, every commit has left its traces once.
-/

namespace DoubleEntry

open Ledger OrdMap

/-! ## Fresh identifiers -/

/-- The identifiers of a transaction and of its entries come from a stamp. -/
structure Transaction.StampedBy (t : Transaction) (stamp : Stamp) : Prop where
  id : t.id = stamp.transactionId
  entries : ∀ i e, t.entries[i]? = some e → e.id = stamp.entryId i ∧ e.transactionId = t.id
  short : t.entries.length < pow2 32

/-- Among these stamps no identifier is made twice, neither for transactions nor for the entries
that a transaction can have. -/
structure FreshStamps (stamps : List Stamp) : Prop where
  transactions : (stamps.map Stamp.transactionId).Nodup
  entries : ∀ a ∈ stamps, ∀ b ∈ stamps, ∀ i j, i + 1 < pow2 32 → j + 1 < pow2 32 →
    a.entryId i = b.entryId j → a.transactionId = b.transactionId ∧ i = j

namespace Transaction.StampedBy

variable {stamps : List Stamp} {a b : Stamp} {t u : Transaction}

theorem exists_index (ht : t.StampedBy a) {e : Entry} (he : e ∈ t.entries) :
    ∃ i, i + 1 < pow2 32 ∧ t.entries[i]? = some e ∧ e.id = a.entryId i := by
  obtain ⟨i, hi⟩ := List.getElem?_of_mem he
  obtain ⟨hlt, -⟩ := List.getElem?_eq_some_iff.mp hi
  have hshort := ht.short
  exact ⟨i, by omega, hi, (ht.entries i e hi).1⟩

/-- Entries of different transactions have different identifiers. -/
theorem id_ne (hfresh : FreshStamps stamps) (ha : a ∈ stamps) (hb : b ∈ stamps)
    (ht : t.StampedBy a) (hu : u.StampedBy b) (hne : t.id ≠ u.id) {e f : Entry}
    (he : e ∈ t.entries) (hf : f ∈ u.entries) : e.id ≠ f.id := by
  intro hid
  obtain ⟨i, hi, -, hei⟩ := ht.exists_index he
  obtain ⟨j, hj, -, hfj⟩ := hu.exists_index hf
  rw [hei, hfj] at hid
  obtain ⟨hsame, -⟩ := hfresh.entries a ha b hb i j hi hj hid
  rw [ht.id, hu.id] at hne
  exact hne hsame

/-- No two entries of a transaction have one identifier. -/
theorem nodup_ids (hfresh : FreshStamps stamps) (ha : a ∈ stamps) (ht : t.StampedBy a) :
    (t.entries.map Entry.id).Nodup := by
  rw [List.nodup_iff_injective_getElem]
  rintro ⟨i, hi⟩ ⟨j, hj⟩ hid
  rw [List.length_map] at hi hj
  simp only [List.getElem_map] at hid
  rw [(ht.entries i _ (List.getElem?_eq_getElem hi)).1,
    (ht.entries j _ (List.getElem?_eq_getElem hj)).1] at hid
  have hshort := ht.short
  obtain ⟨-, hsame⟩ := hfresh.entries a ha a ha i j (by omega) (by omega) hid
  exact Fin.ext hsame

end Transaction.StampedBy

theorem Entry.nodup_historyKey {entries : List Entry} (h : (entries.map Entry.id).Nodup) :
    (entries.map Entry.historyKey).Nodup := by
  refine List.Nodup.of_map (fun key : HistoryKey => key.cursor.id) ?_
  rwa [List.map_map]

/-! ## Events of a transaction -/

/-- The transaction that an event is about: its commit, or a row it wrote last. -/
def LedgerEvent.transactionId? : LedgerEvent → Option TransactionId
  | .transactionCreated t => some t.id
  | .balanceCreated b => some b.lastTransactionId
  | .balanceUpdated b => some b.lastTransactionId
  | _ => none

/-- What the outbox tells of a transaction. -/
def StoreState.toldOf (s : StoreState) (id : TransactionId) : List LedgerEvent :=
  s.payloads.filter fun e => e.transactionId? = some id

theorem StoreState.toldOf_withRecords (s : StoreState) (records : List OutboxRecord)
    (id : TransactionId) : (s.withRecords records).toldOf id = s.toldOf id ++
      (records.map OutboxRecord.payload).filter fun e => e.transactionId? = some id := by
  unfold toldOf
  rw [payloads_withRecords, List.filter_append]

/-- The events of a posting are all about its transaction. -/
theorem transactionId?_of_mem_postingEvents {s : StoreState} {now : Timestamp} {t : Transaction}
    {rows : List BalanceSnapshot} (h : s.planCommit now t = .ok rows) {e : LedgerEvent}
    (he : e ∈ postingEvents t rows) : e.transactionId? = some t.id := by
  unfold postingEvents at he
  rcases List.mem_cons.mp he with rfl | he
  · rfl
  · obtain ⟨b, hb, rfl⟩ := List.mem_map.mp he
    obtain ⟨-, -, hrows⟩ := StoreState.rows_of_planCommit h
    obtain ⟨d, -, -, happly⟩ := hrows b hb
    obtain ⟨-, -, -, hlast, -⟩ := applyDelta_eq_ok happly
    rw [← hlast]
    unfold LedgerEvent.forBalance
    split <;> rfl

/-- A commit tells of its transaction, and of no other. -/
theorem StoreState.toldOf_record {s : StoreState} {now : Timestamp} {t : Transaction}
    {rows : List BalanceSnapshot} (h : s.planCommit now t = .ok rows)
    {records : List OutboxRecord}
    (hrecords : records.map OutboxRecord.payload = postingEvents t rows) (id : TransactionId) :
    ((s.record t rows).withRecords records).toldOf id =
      s.toldOf id ++ if id = t.id then postingEvents t rows else [] := by
  have habout : ∀ e ∈ postingEvents t rows, e.transactionId? = some t.id :=
    fun e he => transactionId?_of_mem_postingEvents h he
  rw [toldOf_withRecords, hrecords]
  refine congrArg (s.toldOf id ++ ·) ?_
  split
  · next hid => exact List.filter_eq_self.mpr fun e he => by simp [habout e he, hid]
  · next hid =>
    refine List.filter_eq_nil_iff.mpr fun e he => ?_
    rw [habout e he]
    simpa using Ne.symm hid

/-! ## The invariant -/

/-- The transactions committed, oldest first. -/
def Chronicle.committed (h : Chronicle) : List Transaction := h.commits.map Commit.transaction

/-- The tables hold each commit once, and nothing else. -/
structure Chronicle.Kept (stamps : List Stamp) (h : Chronicle) : Prop where
  stamped : ∀ t ∈ h.committed, ∃ stamp ∈ stamps, t.StampedBy stamp
  distinct : (h.committed.map Transaction.id).Nodup
  transactions : ∀ id t, h.state.transactions.get? id = some t ↔ t ∈ h.committed ∧ t.id = id
  externalIds : ∀ x id, h.state.externalIds.get? x = some id ↔
    ∃ t ∈ h.committed, t.externalId = some x ∧ t.id = id
  entries : h.state.accountEntries.rows.Perm
    ((h.committed.flatMap Transaction.entries).map fun e => (e.historyKey, e))
  told : ∀ t ∈ h.committed, ∃ rows, (rows.map BalanceSnapshot.key).Nodup ∧
    (∀ k, k ∈ rows.map BalanceSnapshot.key ↔ t.Touches k) ∧
    h.state.toldOf t.id = postingEvents t rows
  untold : ∀ id, id ∉ h.committed.map Transaction.id → h.state.toldOf id = []

namespace Chronicle.Kept

variable {stamps : List Stamp} {h : Chronicle}

theorem empty : Chronicle.empty.Kept stamps where
  stamped _ h := nomatch h
  distinct := List.nodup_nil
  transactions _ _ := ⟨(nomatch ·), fun h => nomatch h.1⟩
  externalIds _ _ := ⟨(nomatch ·), fun ⟨_, h, _⟩ => nomatch h⟩
  entries := .refl _
  told _ h := nomatch h
  untold _ _ := rfl

theorem eq_of_id (hkept : h.Kept stamps) {t u : Transaction} (ht : t ∈ h.committed)
    (hu : u ∈ h.committed) (hid : t.id = u.id) : t = u :=
  List.inj_on_of_nodup_map hkept.distinct ht hu hid

/-- An external identifier belongs to one transaction. -/
theorem eq_of_externalId (hkept : h.Kept stamps) {t u : Transaction} {x : String}
    (ht : t ∈ h.committed) (hu : u ∈ h.committed) (htx : t.externalId = some x)
    (hux : u.externalId = some x) : t = u := by
  have htable := (hkept.externalIds x t.id).mpr ⟨t, ht, htx, rfl⟩
  have hutable := (hkept.externalIds x u.id).mpr ⟨u, hu, hux, rfl⟩
  exact hkept.eq_of_id ht hu (Option.some.inj (htable.symm.trans hutable))

theorem transactionByExternalId_iff (hkept : h.Kept stamps) {x : String} {t : Transaction} :
    h.state.transactionByExternalId x = some t ↔ t ∈ h.committed ∧ t.externalId = some x := by
  unfold StoreState.transactionByExternalId
  rw [Option.bind_eq_some_iff]
  constructor
  · rintro ⟨id, hx, hid⟩
    obtain ⟨u, hu, hux, huid⟩ := (hkept.externalIds x id).mp hx
    obtain ⟨ht, htid⟩ := (hkept.transactions id t).mp hid
    rw [hkept.eq_of_id ht hu (htid.trans huid.symm)]
    exact ⟨hu, hux⟩
  · rintro ⟨ht, hx⟩
    exact ⟨t.id, (hkept.externalIds x t.id).mpr ⟨t, ht, hx, rfl⟩,
      (hkept.transactions t.id t).mpr ⟨ht, rfl⟩⟩

/-! ### One more commit -/

section Commit

variable {s : StoreState} {commits : List Commit} {now : Timestamp} {t : Transaction}
  {rows : List BalanceSnapshot}

theorem get?_put_transactions (hkept : Chronicle.Kept stamps ⟨s, commits⟩)
    (hnew : ∀ u ∈ (Chronicle.mk s commits).committed, u.id ≠ t.id) (id : TransactionId)
    (u : Transaction) : (s.transactions.put t.id t).get? id = some u ↔
      (u ∈ (Chronicle.mk s commits).committed ∨ u = t) ∧ u.id = id := by
  rw [get?_put]
  split
  · next hid =>
    subst hid
    constructor
    · intro hu
      cases hu
      exact ⟨Or.inr rfl, rfl⟩
    · rintro ⟨hu | rfl, hid⟩
      · exact absurd hid (hnew u hu)
      · rfl
  · next hid =>
    rw [hkept.transactions]
    refine and_congr_left fun huid => ⟨Or.inl, fun hor => hor.resolve_right ?_⟩
    rintro rfl
    exact hid huid.symm

theorem get?_externalIdsWith (hkept : Chronicle.Kept stamps ⟨s, commits⟩)
    (hcheck : s.checkExternalId t = .ok ()) (x : String) (id : TransactionId) :
    (s.externalIdsWith t).get? x = some id ↔
      ∃ u, (u ∈ (Chronicle.mk s commits).committed ∨ u = t) ∧ u.externalId = some x ∧
        u.id = id := by
  have hold := hkept.externalIds x id
  unfold StoreState.checkExternalId at hcheck
  unfold StoreState.externalIdsWith
  cases hx : t.externalId with
  | none =>
    refine hold.trans ⟨fun ⟨u, hu, hux, huid⟩ => ⟨u, Or.inl hu, hux, huid⟩, ?_⟩
    rintro ⟨u, hu | rfl, hux, huid⟩
    · exact ⟨u, hu, hux, huid⟩
    · cases hx.symm.trans hux
  | some y =>
    rw [hx] at hcheck
    have htaken := StoreState.refuseIf_eq_ok.mp hcheck
    dsimp only
    rw [get?_put]
    split
    · next hxy =>
      subst hxy
      constructor
      · intro hid
        cases hid
        exact ⟨t, Or.inr rfl, hx, rfl⟩
      · rintro ⟨u, hu | rfl, hux, rfl⟩
        · have htable := (hkept.externalIds x u.id).mpr ⟨u, hu, hux, rfl⟩
          rw [contains_iff.mpr ⟨u.id, htable⟩] at htaken
          cases htaken
        · rfl
    · next hxy =>
      refine hold.trans ⟨fun ⟨u, hu, hux, huid⟩ => ⟨u, Or.inl hu, hux, huid⟩, ?_⟩
      rintro ⟨u, hu | rfl, hux, huid⟩
      · exact ⟨u, hu, hux, huid⟩
      · exact absurd (Option.some.inj (hux.symm.trans hx)) hxy

/-- No entry of a new transaction is in the histories. -/
theorem get?_entries_eq_none (hkept : Chronicle.Kept stamps ⟨s, commits⟩)
    (hfresh : FreshStamps stamps) {stamp : Stamp} (hstamp : stamp ∈ stamps)
    (ht : t.StampedBy stamp) (hnew : ∀ u ∈ (Chronicle.mk s commits).committed, u.id ≠ t.id)
    {e : Entry} (he : e ∈ t.entries) : s.accountEntries.get? e.historyKey = none := by
  by_contra hsome
  obtain ⟨f, hf⟩ := Option.ne_none_iff_exists'.mp hsome
  obtain ⟨f', hf', heq⟩ := List.mem_map.mp (hkept.entries.subset (mem_rows_iff.mpr hf))
  obtain ⟨u, hu, hfu⟩ := List.mem_flatMap.mp hf'
  obtain ⟨stamp', hstamp', hu'⟩ := hkept.stamped u hu
  refine hu'.id_ne hfresh hstamp' hstamp ht (hnew u hu) hfu he ?_
  exact congrArg (fun p : HistoryKey × Entry => p.1.cursor.id) heq

theorem perm_putRows_entries (hkept : Chronicle.Kept stamps ⟨s, commits⟩)
    (hfresh : FreshStamps stamps) {stamp : Stamp} (hstamp : stamp ∈ stamps)
    (ht : t.StampedBy stamp) (hnew : ∀ u ∈ (Chronicle.mk s commits).committed, u.id ≠ t.id) :
    (putRows Entry.historyKey t.entries s.accountEntries).rows.Perm
      ((((Chronicle.mk s commits).committed ++ [t]).flatMap Transaction.entries).map
        fun e => (e.historyKey, e)) := by
  have hkeys := Entry.nodup_historyKey (ht.nodup_ids hfresh hstamp)
  have hperm := perm_putRows hkeys fun e he =>
    hkept.get?_entries_eq_none hfresh hstamp ht hnew he
  rw [List.flatMap_append, List.map_append]
  refine hperm.trans (List.perm_append_comm.trans (hkept.entries.append ?_))
  show List.Perm _ (([t].flatMap Transaction.entries).map _)
  rw [List.flatMap_singleton]

theorem commit (hkept : Chronicle.Kept stamps ⟨s, commits⟩) (hfresh : FreshStamps stamps)
    {stamp : Stamp} (hstamp : stamp ∈ stamps) (ht : t.StampedBy stamp)
    (hnew : ∀ u ∈ (Chronicle.mk s commits).committed, u.id ≠ t.id)
    (hplan : s.planCommit now t = .ok rows) {records : List OutboxRecord}
    (hrecords : records.map OutboxRecord.payload = postingEvents t rows) :
    Chronicle.Kept stamps ⟨(s.record t rows).withRecords records, commits ++ [⟨now, t⟩]⟩ := by
  have hcommitted : (Chronicle.mk ((s.record t rows).withRecords records)
      (commits ++ [⟨now, t⟩])).committed = (Chronicle.mk s commits).committed ++ [t] :=
    List.map_append
  have hmem : ∀ u, u ∈ (Chronicle.mk s commits).committed ++ [t] ↔
      u ∈ (Chronicle.mk s commits).committed ∨ u = t := fun u => by
    rw [List.mem_append, List.mem_singleton]
  obtain ⟨-, -, hcheck, -⟩ := StoreState.planCommit_eq_ok hplan
  obtain ⟨hnodup, htouched, -⟩ := StoreState.rows_of_planCommit hplan
  have htold := StoreState.toldOf_record hplan hrecords
  have hfirst : t.id ∉ (Chronicle.mk s commits).committed.map Transaction.id := by
    intro hin
    obtain ⟨u, hu, huid⟩ := List.mem_map.mp hin
    exact hnew u hu huid
  refine ⟨?_, ?_, ?_, ?_, ?_, ?_, ?_⟩ <;> rw [hcommitted]
  · intro u hu
    rcases (hmem u).mp hu with hu | rfl
    · exact hkept.stamped u hu
    · exact ⟨stamp, hstamp, ht⟩
  · rw [List.map_append, List.nodup_append]
    refine ⟨hkept.distinct, List.nodup_singleton _, fun id hid id' hid' heq => ?_⟩
    obtain rfl := List.mem_singleton.mp hid'
    exact hfirst (heq ▸ hid)
  · intro id u
    rw [hmem]
    exact get?_put_transactions hkept hnew id u
  · intro x id
    refine (get?_externalIdsWith hkept hcheck x id).trans (exists_congr fun u => ?_)
    rw [hmem]
  · exact perm_putRows_entries hkept hfresh hstamp ht hnew
  · intro u hu
    rw [htold]
    rcases (hmem u).mp hu with hu | rfl
    · rw [if_neg (hnew u hu), List.append_nil]
      exact hkept.told u hu
    · rw [if_pos rfl, show s.toldOf u.id = [] from hkept.untold _ hfirst]
      exact ⟨rows, hnodup, htouched, rfl⟩
  · intro id hid
    rw [List.map_append, List.mem_append, not_or] at hid
    have hne : id ≠ t.id := fun heq => hid.2 (List.mem_singleton.mpr heq)
    rw [htold, if_neg hne, List.append_nil]
    exact hkept.untold id hid.1

end Commit

/-! ### Any call -/

/-- What does not concern postings leaves the invariant. -/
theorem samePostings {s s' : StoreState} {commits : List Commit}
    (hkept : Chronicle.Kept stamps ⟨s, commits⟩) (htransactions : s'.transactions = s.transactions)
    (hexternalIds : s'.externalIds = s.externalIds)
    (hentries : s'.accountEntries = s.accountEntries) (htold : ∀ id, s'.toldOf id = s.toldOf id) :
    Chronicle.Kept stamps ⟨s', commits⟩ := by
  refine ⟨hkept.stamped, hkept.distinct, ?_, ?_, ?_, ?_, ?_⟩ <;> dsimp only
  · rw [htransactions]
    exact hkept.transactions
  · rw [hexternalIds]
    exact hkept.externalIds
  · rw [hentries]
    exact hkept.entries
  · simp only [htold]
    exact hkept.told
  · simp only [htold]
    exact hkept.untold

/-- A call preserves the invariant; a transaction that it commits has to bring identifiers of its
own. -/
theorem run (hkept : h.Kept stamps) (hfresh : FreshStamps stamps) (m : Moment) (c : StoreCall)
    (hc : ∀ t, c = .commitTransaction t → ∃ stamp ∈ stamps, t.StampedBy stamp ∧
      ∀ u ∈ h.committed, u.id ≠ t.id) : (Chronicle.run m c h).2.Kept stamps := by
  rcases Chronicle.run_effect m c h with hsame | ⟨s₁, events, records, hs₁, hrecords, hrun⟩
  · rwa [hsame]
  · rw [hrun]
    have hquiet : ∀ s₁ : StoreState, s₁.payloads = h.state.payloads →
        (∀ e ∈ events, e.transactionId? = none) →
        ∀ id, (s₁.withRecords records).toldOf id = h.state.toldOf id := by
      intro s₁ hpayloads hevents id
      rw [StoreState.toldOf_withRecords, hrecords,
        List.filter_eq_nil_iff.mpr fun e he => by simp [hevents e he], List.append_nil]
      unfold StoreState.toldOf
      rw [hpayloads]
    cases hs₁ with
    | commit hplan =>
      obtain ⟨stamp, hstamp, ht, hnew⟩ := hc _ rfl
      exact hkept.commit hfresh hstamp ht hnew hplan hrecords
    | _ =>
      show Chronicle.Kept stamps ⟨_, h.commits ++ []⟩
      rw [List.append_nil]
      exact hkept.samePostings rfl rfl rfl (hquiet _ rfl (by simp [LedgerEvent.transactionId?]))

end Chronicle.Kept

/-! ## Commits leave their traces once -/

/-- A transaction has been applied once: it is stored, it is one commit, and what it has left in the
histories of accounts, in the balances and in the outbox is there once. -/
structure Chronicle.AppliedOnce (h : Chronicle) (t : Transaction) : Prop where
  stored : h.state.transactions.get? t.id = some t
  entries : (h.state.accountEntries.values.filter
    fun e => e.transactionId = t.id).Perm t.entries
  balances : ∃ c, c.transaction = t ∧
    (h.commits.filter fun c => c.transaction.id = t.id) = [c] ∧
    ∀ k, t.Touches k → ∃ b, h.state.balances.get? k = some b ∧ b.Sums k (touching k h.commits) ∧
      ((touching k h.commits).filter fun c => c.transaction.id = t.id) = [c]
  told : ∃ rows, (rows.map BalanceSnapshot.key).Nodup ∧
    (∀ k, k ∈ rows.map BalanceSnapshot.key ↔ t.Touches k) ∧
    h.state.toldOf t.id = postingEvents t rows

theorem flatMap_ite {α β : Type} (p : α → Prop) [DecidablePred p] (f : α → List β) (l : List α) :
    (l.flatMap fun a => if p a then f a else []) = (l.filter fun a => p a).flatMap f := by
  induction l with
  | nil => rfl
  | cons a l ih =>
    rw [List.flatMap_cons, ih]
    by_cases ha : p a
    · rw [if_pos ha, List.filter_cons_of_pos (by simpa using ha), List.flatMap_cons]
    · rw [if_neg ha, List.filter_cons_of_neg (by simpa using ha), List.nil_append]

theorem filter_eq_singleton {α β : Type} [DecidableEq β] {f : α → β} {l : List α}
    (h : (l.map f).Nodup) {a : α} (ha : a ∈ l) : (l.filter fun b => f b = f a) = [a] := by
  induction l with
  | nil => cases ha
  | cons b l ih =>
    obtain ⟨hb, hl⟩ := List.nodup_cons.mp h
    rcases List.mem_cons.mp ha with rfl | ha
    · rw [List.filter_cons_of_pos (by simp), List.filter_eq_nil_iff.mpr]
      intro b' hb' heq
      exact hb (of_decide_eq_true heq ▸ List.mem_map_of_mem hb')
    · rw [List.filter_cons_of_neg, ih hl ha]
      intro heq
      exact hb (of_decide_eq_true heq ▸ List.mem_map_of_mem ha)

namespace Chronicle.Kept

variable {stamps : List Stamp} {h : Chronicle} {t : Transaction}

theorem transactionId_of_mem (hkept : h.Kept stamps) (ht : t ∈ h.committed) {e : Entry}
    (he : e ∈ t.entries) : e.transactionId = t.id := by
  obtain ⟨stamp, -, hstamped⟩ := hkept.stamped t ht
  obtain ⟨i, hi⟩ := List.getElem?_of_mem he
  exact (hstamped.entries i e hi).2

/-- The histories hold the entries of a transaction. -/
theorem perm_entries_of (hkept : h.Kept stamps) (ht : t ∈ h.committed) :
    (h.state.accountEntries.values.filter
      fun e => e.transactionId = t.id).Perm t.entries := by
  have hvalues : h.state.accountEntries.values.Perm
      (h.committed.flatMap Transaction.entries) := by
    have hperm := hkept.entries.map Prod.snd
    rwa [List.map_map, show (Prod.snd ∘ fun e : Entry => (e.historyKey, e)) = id from rfl,
      List.map_id] at hperm
  refine (hvalues.filter _).trans ?_
  have hown : ∀ u ∈ h.committed, (u.entries.filter fun e => e.transactionId = t.id) =
      if u.id = t.id then u.entries else [] := by
    intro u hu
    have hid := fun e (he : e ∈ u.entries) => hkept.transactionId_of_mem hu he
    split
    · next hut => exact List.filter_eq_self.mpr fun e he => by simp [hid e he, hut]
    · next hut => exact List.filter_eq_nil_iff.mpr fun e he => by simp [hid e he, hut]
  rw [List.filter_flatMap, List.flatMap_congr hown, flatMap_ite,
    filter_eq_singleton hkept.distinct ht, List.flatMap_singleton]

theorem appliedOnce (hkept : h.Kept stamps) (hsummed : h.Summed) (ht : t ∈ h.committed) :
    h.AppliedOnce t := by
  refine ⟨(hkept.transactions t.id t).mpr ⟨ht, rfl⟩, hkept.perm_entries_of ht, ?_,
    hkept.told t ht⟩
  have hdistinct : (h.commits.map fun c => c.transaction.id).Nodup := by
    have hd := hkept.distinct
    unfold Chronicle.committed at hd
    rwa [List.map_map] at hd
  obtain ⟨c, hc, rfl⟩ := List.mem_map.mp ht
  have hone := filter_eq_singleton hdistinct hc
  refine ⟨c, rfl, hone, fun k hk => ?_⟩
  obtain ⟨b, hb⟩ := (hsummed.exists_row_iff k).mpr ⟨c, hc, hk⟩
  refine ⟨b, hb, hsummed.sums k b hb, ?_⟩
  unfold touching
  rw [List.filter_comm, hone]
  exact List.filter_eq_self.mpr fun c' hc' => by
    rw [List.mem_singleton.mp hc']
    exact decide_eq_true hk

end Chronicle.Kept

end DoubleEntry
