import DoubleEntry.Proofs.Engine.Rows

/-!
# The outbox is a complete log

Whoever reads the outbox from the first record to the last and stores what each event carries ends
up with the tables of the ledger, all of them: `StoreState.tell` stores what an event carries, the
same way whether it tells of something new or of a change, and `replay` does so from empty tables.

An index of codes is told of by the rows only, so a changed row has to keep its code. That it does
is the contract of rows (`rowsContract`).

Main statement: `replay_outbox`.
-/

namespace DoubleEntry

open Ledger OrdMap

/-! ## Replaying -/

namespace StoreState

def withJournal (s : StoreState) (j : Journal) : StoreState :=
  { s with
    journals := s.journals.put j.id j
    journalCodes := withCode j.code j.id s.journalCodes }

def withAccount (s : StoreState) (a : Account) : StoreState :=
  { s with
    accounts := s.accounts.put a.id a
    accountCodes := withCode (some a.code) a.id s.accountCodes }

/-- A transaction stored with its external identifier, what it voids and its entries. -/
def withTransaction (s : StoreState) (t : Transaction) : StoreState :=
  { s with
    transactions := s.transactions.put t.id t
    externalIds := withCode t.externalId t.id s.externalIds
    voided := match t.reverses with
      | none => s.voided
      | some target => s.voided.put target t.id
    accountEntries := t.entries.foldl (fun m e => m.put e.historyKey e) s.accountEntries }

/-- What an event carries is stored. -/
def tell (s : StoreState) : LedgerEvent → StoreState
  | .journalCreated j => s.withJournal j
  | .journalUpdated j _ => s.withJournal j
  | .accountCreated a => s.withAccount a
  | .accountUpdated a _ => s.withAccount a
  | .templateCreated t => { s with templates := s.templates.put t.code t }
  | .transactionCreated t => s.withTransaction t
  | .balanceCreated b => { s with balances := s.balances.put b.key b }
  | .balanceUpdated b => { s with balances := s.balances.put b.key b }

/-- The tables alone. -/
def tables (s : StoreState) : StoreState := { s with outbox := [] }

end StoreState

/-- The tables that events tell of, first to last. -/
def replay (events : List LedgerEvent) : StoreState := events.foldl StoreState.tell .empty

theorem replay_append (events more : List LedgerEvent) :
    replay (events ++ more) = more.foldl StoreState.tell (replay events) := by
  unfold replay
  rw [List.foldl_append]

theorem foldl_tell_forBalance (rows : List BalanceSnapshot) (s : StoreState) :
    (rows.map LedgerEvent.forBalance).foldl StoreState.tell s =
      { s with balances := putRows BalanceSnapshot.key rows s.balances } := by
  induction rows generalizing s with
  | nil => rfl
  | cons b rest ih =>
    have htell : s.tell (.forBalance b) = { s with balances := s.balances.put b.key b } := by
      unfold LedgerEvent.forBalance
      split <;> rfl
    rw [List.map_cons, List.foldl_cons, htell, ih]
    rfl

/-- The events of a posting tell of what it records. -/
theorem foldl_tell_postingEvents (t : Transaction) (rows : List BalanceSnapshot) (s : StoreState) :
    (postingEvents t rows).foldl StoreState.tell s = s.record t rows := by
  unfold postingEvents
  rw [List.foldl_cons, foldl_tell_forBalance]
  rfl

/-! ## What a call tells -/

/-- The outbox tells of all that is in the tables. -/
def StoreState.Logged (s : StoreState) : Prop := replay s.payloads = s.tables

namespace StoreState.Stores

variable {s s₁ : StoreState} {now : Timestamp} {c : StoreCall} {events : List LedgerEvent}

/-- The events of a call tell of what it stores. -/
theorem foldl_tell (h : s.Stores now c s₁ events) (hs : s.Indexed) (hc : s.LeavesFixed c) :
    events.foldl tell s.tables = s₁.tables := by
  cases h with
  | createJournal hid hcodes =>
    obtain ⟨rfl, -⟩ := codesWith_eq_ok hcodes
    rfl
  | @updateJournal j fields hid =>
    obtain ⟨old, hold, hfixed⟩ := hc
    show s.tables.withJournal j = _
    unfold withJournal
    rw [show withCode j.code j.id s.tables.journalCodes = s.journalCodes from
      hs.journals.withCode_eq hold (Journal.code_of_fixed hfixed)]
    rfl
  | createAccount hcode hid => rfl
  | @updateAccount a fields hid =>
    obtain ⟨old, hold, hfixed⟩ := hc
    show s.tables.withAccount a = _
    unfold withAccount
    rw [show withCode (some a.code) a.id s.tables.accountCodes = s.accountCodes from
      hs.accounts.withCode_eq hold (Account.code?_of_fixed hfixed)]
    rfl
  | createTemplate hcode => rfl
  | commit hplan => exact foldl_tell_postingEvents _ _ _

/-- A call tells of all that it stores. -/
theorem logged (h : s.Stores now c s₁ events) (hs : s.Indexed) (hc : s.LeavesFixed c)
    (hlogged : s.Logged) {records : List OutboxRecord}
    (hrecords : records.map OutboxRecord.payload = events) : (s₁.withRecords records).Logged := by
  unfold Logged at *
  rw [payloads_withRecords, hrecords, replay_append, h.payloads_eq, hlogged, h.foldl_tell hs hc]
  rfl

end StoreState.Stores

/-! ## The outbox -/

theorem logged_interleave (asked : List (Operation × Stamp)) (turns : List Turn) :
    (interleave asked turns).chronicle.state.Logged := by
  have hstart : (interleave asked []).chronicle.state.Logged := rfl
  refine Interleaving.invariant_of_meets (I := fun h => h.state.Logged) rowsContract_sound
    (meets_rows_interleave asked) ?_ hstart turns
  intro own m c h hindexed hallowed hlogged
  rcases Chronicle.run_effect m c h with hsame | ⟨s₁, events, records, hs₁, hrecords, hrun⟩
  · rwa [hsame]
  · rw [hrun]
    exact hs₁.logged hindexed hallowed hlogged hrecords

/-- Replaying the outbox makes the tables again, whatever operations have been at work and whatever
turns they took, and so after any requests one after the other. -/
theorem replay_outbox :
    (∀ asked turns, let s := (interleave asked turns).chronicle.state
      replay (s.outbox.map OutboxRecord.payload) = { s with outbox := [] }) ∧
    ∀ requests, let s := stateAfter requests
      replay (s.outbox.map OutboxRecord.payload) = { s with outbox := [] } := by
  refine ⟨logged_interleave, fun requests => ?_⟩
  obtain ⟨turns, hturns⟩ := exists_turns requests
  have hstate := logged_interleave (askedBy requests) turns
  rwa [hturns, state_chronicleAfter] at hstate

end DoubleEntry
