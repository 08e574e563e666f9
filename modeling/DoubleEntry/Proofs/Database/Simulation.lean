import DoubleEntry.Proofs.Balance.History
import DoubleEntry.Proofs.Database.Columns
import DoubleEntry.Proofs.Database.Exchange

/-!
# A commit in the database and in memory

A database `Serves` a state of the store in memory if it accepts every command, shows the balance
rows of the state where these are locked, and the length of its outbox as the last number. Then a
commit in the database goes as the commit in memory does: it writes the same rows and records and
comes out with the same posting. Only the creation time of a row that was there comes back as the
table holds it, cut to the microsecond (`StoreState.asStored`).

Main statements: `commit_simulated`, and `commit_cuts_creation` for an instant that is cut.
-/

namespace DoubleEntry

/-! ## Rows as they are read -/

/-- A row of a commit with its creation time as the table holds it, where it was there before. -/
def StoreState.asStored (s : StoreState) (b : BalanceSnapshot) : BalanceSnapshot :=
  if s.balances.contains b.key then { b with createdAt := b.createdAt.toMicros } else b

namespace StoreState

variable (s : StoreState) (b : BalanceSnapshot)

theorem version_asStored : (s.asStored b).version = b.version := by
  unfold asStored
  split <;> rfl

theorem modifiedAt_asStored : (s.asStored b).modifiedAt = b.modifiedAt := by
  unfold asStored
  split <;> rfl

theorem isWritable_asStored : (s.asStored b).isWritable = b.isWritable := by
  unfold asStored
  split <;> rfl

/-- Rows stay the same as long as those that were there were created on a whole microsecond. -/
theorem asStored_eq_self_iff :
    s.asStored b = b ↔ (s.balances.contains b.key = true → b.createdAt.toMicros = b.createdAt) := by
  unfold asStored
  split
  · next h =>
    refine ⟨fun hb _ => congrArg BalanceSnapshot.createdAt hb, fun hcreated => ?_⟩
    rw [hcreated h]
  · next h => exact ⟨fun _ hcontains => absurd hcontains h, fun _ => rfl⟩

theorem map_asStored_eq_self_iff {rows : List BalanceSnapshot} :
    rows.map s.asStored = rows ↔ ∀ b ∈ rows,
      s.balances.contains b.key = true → b.createdAt.toMicros = b.createdAt := by
  rw [← List.map_id rows, List.map_map, List.map_inj_left, List.map_id]
  exact forall₂_congr fun b _ => s.asStored_eq_self_iff b

end StoreState

/-- The event with another balance row, if it has one. -/
def LedgerEvent.mapBalance (f : BalanceSnapshot → BalanceSnapshot) : LedgerEvent → LedgerEvent
  | .balanceCreated b => .balanceCreated (f b)
  | .balanceUpdated b => .balanceUpdated (f b)
  | e => e

/-- A row that was posted to, with totals as sums are written. -/
structure BalanceSnapshot.Posted (b : BalanceSnapshot) : Prop where
  version : b.version ≠ 0
  debit : b.debitTotal.zeros = 0
  credit : b.creditTotal.zeros = 0

section Totals

variable {u v w : Units}

theorem Units.add_of_isZero (h : u.isZero = true) (v : Units) :
    u.add v = .ok { amount := v.amount, nonneg := v.nonneg } := by
  have hamount : u.amount.add v.amount = some v.amount := if_pos h
  unfold add
  split
  · next d hd =>
    cases hd.symm.trans hamount
    rfl
  · next hd => cases hd.symm.trans hamount

/-- The fraction digits of a zero do not count for a sum. -/
theorem addToTotal_asRead (hzeros : u.zeros = 0) (h : u.add v = .ok w) :
    Database.addToTotal u.asRead v = .ok w := by
  unfold Units.asRead
  cases hzero : u.isZero with
  | true =>
    rw [Units.add_of_isZero hzero] at h
    exact (Units.add_of_isZero (u := .zero) rfl v).trans h
  | false =>
    unfold Database.addToTotal
    rw [if_neg Bool.false_ne_true, if_pos hzeros, h]

end Totals

section Deltas

variable {d : BalanceDelta} {id : TransactionId} {now : Timestamp} {b₀ b : BalanceSnapshot}

theorem posted_of_applyDelta {current : Option BalanceSnapshot}
    (h : applyDelta current d id now = .ok b) : b.Posted := by
  obtain ⟨debits, hdebits, h⟩ := bind_eq_ok.mp h
  obtain ⟨credits, hcredits, h⟩ := bind_eq_ok.mp h
  obtain ⟨version, hversion, h⟩ := bind_eq_ok.mp h
  cases h
  refine ⟨?_, Units.zeros_of_add (lift_eq_ok.mp hdebits),
    Units.zeros_of_add (lift_eq_ok.mp hcredits)⟩
  rintro rfl
  have := nextCount_eq_ok hversion
  exact absurd this.symm (Nat.succ_ne_zero _)

/-- A delta applied to a row as it is read. -/
theorem applyDelta_asRead (hb₀ : b₀.Posted) (h : applyDelta (some b₀) d id now = .ok b) :
    applyDeltaBy Database.addToTotal (some b₀.asRead) d id now =
      .ok { b with createdAt := b.createdAt.toMicros } := by
  obtain ⟨debits, hdebits, h⟩ := bind_eq_ok.mp h
  obtain ⟨credits, hcredits, h⟩ := bind_eq_ok.mp h
  obtain ⟨version, hversion, h⟩ := bind_eq_ok.mp h
  cases h
  refine bind_eq_ok.mpr ⟨debits, lift_eq_ok.mpr ?_, bind_eq_ok.mpr ⟨credits, lift_eq_ok.mpr ?_,
    bind_eq_ok.mpr ⟨version, hversion, rfl⟩⟩⟩
  · exact addToTotal_asRead hb₀.debit (lift_eq_ok.mp hdebits)
  · exact addToTotal_asRead hb₀.credit (lift_eq_ok.mp hcredits)

end Deltas

/-- All balance rows of the state were posted to. -/
def StoreState.AllPosted (s : StoreState) : Prop := ∀ k b, s.balances.get? k = some b → b.Posted

theorem allPosted_chronicleOf (calls : List (Moment × StoreCall)) :
    (chronicleOf calls).state.AllPosted := by
  intro k b hb
  have hsums := (summed_chronicleOf calls).sums k b hb
  obtain ⟨c, hlast, -⟩ := hsums.last
  obtain ⟨before, hbefore⟩ := List.getLast?_eq_some_iff.mp hlast
  have htotals := hsums.totals
  rw [hbefore, List.foldlM_append] at htotals
  obtain ⟨totals, -, hstep⟩ := bind_eq_ok.mp htotals
  obtain ⟨_, hstep, hdone⟩ := bind_eq_ok.mp hstep
  cases hdone
  obtain ⟨d, -, hadd⟩ := bind_eq_ok.mp hstep
  obtain ⟨debits, hdebits, hadd⟩ := bind_eq_ok.mp hadd
  obtain ⟨credits, hcredits, hadd⟩ := bind_eq_ok.mp hadd
  obtain ⟨hdebit, hcredit⟩ := Prod.mk.inj (Except.ok.inj hadd)
  refine ⟨?_, hdebit ▸ Units.zeros_of_add hdebits, hcredit ▸ Units.zeros_of_add hcredits⟩
  intro hzero
  have hversion := hsums.version
  rw [hzero, hbefore, List.length_append] at hversion
  exact absurd hversion.symm (Nat.succ_ne_zero _)

theorem StoreState.isWritable_forBalance (s : StoreState) {b : BalanceSnapshot} (hb : b.Posted) :
    (LedgerEvent.forBalance (s.asStored b)).isWritable = true := by
  have hunits : ∀ u : Units, u.zeros = 0 → u.isWritable = true := by
    intro u hu
    refine decide_eq_true ?_
    rw [hu]
    exact Nat.le_trans u.amount.scale_le (by decide)
  have hstored : (s.asStored b).isWritable = true := by
    rw [isWritable_asStored, BalanceSnapshot.isWritable, hunits _ hb.debit, hunits _ hb.credit]
    rfl
  unfold LedgerEvent.forBalance
  split <;> exact hstored

/-! ## Records as they are inserted -/

/-- Records of other identifiers and of events that only differ in a balance row. -/
theorem recordsAfter_map {ε : Type} (f : BalanceSnapshot → BalanceSnapshot)
    (hf : ∀ b, (f b).modifiedAt = b.modifiedAt) {recordId : Nat → Uuid} (recordId' : Nat → Uuid)
    {last final : UInt64} {events : List LedgerEvent} {records : List OutboxRecord}
    (h : recordsAfter (ε := ε) recordId last events = .ok (records, final)) :
    recordsAfter (ε := ε) recordId' last (events.map (.mapBalance f)) =
      .ok (records.mapIdx fun i r =>
        { r with id := recordId' i, payload := r.payload.mapBalance f }, final) := by
  induction events generalizing recordId recordId' last records with
  | nil =>
    cases h
    rfl
  | cons e es ih =>
    obtain ⟨sequence, hsequence, h⟩ := bind_eq_ok.mp h
    obtain ⟨⟨rest, final'⟩, hrest, h⟩ := bind_eq_ok.mp h
    cases h
    have hevent : OutboxRecord.ofEvent (recordId' 0) sequence (e.mapBalance f) =
        { OutboxRecord.ofEvent (recordId 0) sequence e with
          id := recordId' 0, payload := e.mapBalance f } := by
      cases e <;> simp [OutboxRecord.ofEvent, LedgerEvent.mapBalance, LedgerEvent.eventType,
        LedgerEvent.occurredAt, hf]
    rw [List.mapIdx_cons]
    refine bind_eq_ok.mpr ⟨sequence, hsequence, bind_eq_ok.mpr
      ⟨_, ih (fun i => recordId' (i + 1)) hrest, ?_⟩⟩
    rw [hevent]
    rfl

theorem postingEvents_map (f : BalanceSnapshot → BalanceSnapshot)
    (hf : ∀ b, (f b).version = b.version) (t : Transaction) (rows : List BalanceSnapshot) :
    postingEvents t (rows.map f) = (postingEvents t rows).map (.mapBalance f) := by
  unfold postingEvents
  rw [List.map_cons, List.map_map, List.map_map]
  refine congrArg (_ :: ·) (List.map_congr_left fun b _ => ?_)
  show LedgerEvent.forBalance (f b) = (LedgerEvent.forBalance b).mapBalance f
  unfold LedgerEvent.forBalance
  rw [hf]
  split <;> rfl

namespace Database

open Session

/-! ## A database with the rows of a state -/

/-- The row of a key as a state has it, or one that was never posted to. -/
def HoldsBalance (s : StoreState) (k : BalanceKey) (row : Row) : Prop :=
  match s.balances.get? k with
  | some b => BalanceRow b row
  | none => FreshRow row

/-- The database accepts every command, shows the balance rows of a state where these are locked,
and the length of its outbox as the last number. -/
structure Serves (s : StoreState) (x : Exchange) : Prop where
  accepts : ∃ a, x.reply = .ok a
  locked : ∀ k a, x = ⟨.statement (.lockBalance k), .ok a⟩ →
    ∃ row, a.rows.head? = some row ∧ HoldsBalance s k row
  head : ∀ a, x = ⟨.statement .outboxHead, .ok a⟩ →
    ∃ row, a.rows.head? = some row ∧ OrdMap.get? "last" row = some (.int s.outbox.length)

/-- The row of these columns with the values that a statement binds. -/
theorem shows_ofList {s : Statement} {columns : List String} (hnodup : columns.Nodup)
    (hlength : columns.length = s.params.length) {i : Nat} {column : String}
    (hi : columns[i]? = some column) :
    s.Shows (OrdMap.ofList (columns.zip s.params)) i column := by
  have hlt : i < s.params.length := hlength ▸ (List.getElem?_eq_some_iff.mp hi).1
  have hvalue : s.params[i]? = some s.params[i] := List.getElem?_eq_getElem hlt
  have hmem : (column, s.params[i]) ∈ columns.zip s.params :=
    List.mem_of_getElem? (List.getElem?_zip_eq_some.mpr ⟨hi, hvalue⟩)
  have hkeys : ((columns.zip s.params).map Prod.fst).Nodup := by
    rwa [List.map_fst_zip (Nat.le_of_eq hlength)]
  exact (OrdMap.get?_ofList_of_mem hkeys hmem).trans hvalue.symm

theorem exists_holdsBalance (s : StoreState) (k : BalanceKey) : ∃ row, HoldsBalance s k row := by
  unfold HoldsBalance
  cases s.balances.get? k with
  | some b =>
    have hshows := @shows_ofList (Statement.updateBalance b.key b)
      ["account_id", "journal_id", "currency", "layer", "debit_total", "credit_total", "version",
        "last_transaction_id", "created_at", "modified_at"] (by decide) rfl
    exact ⟨_, hshows rfl, hshows rfl, hshows rfl, hshows rfl, hshows rfl, hshows rfl, hshows rfl,
      hshows rfl, hshows rfl, hshows rfl⟩
  | none => exact ⟨.ofList [("version", .int 0)], rfl⟩

theorem lockBalance_inj {k k' : BalanceKey}
    (h : Statement.lockBalance k = Statement.lockBalance k') : k = k' :=
  keyParams_inj (congrArg Statement.params h)

theorem lockBalance_ne_outboxHead (k : BalanceKey) :
    Statement.lockBalance k ≠ Statement.outboxHead := by
  intro h
  have hparams : Statement.keyParams k = [] := congrArg Statement.params h
  cases hparams

/-- Every command has such an answer. -/
theorem exists_serves (s : StoreState) (c : Command) : ∃ reply, Serves s ⟨c, reply⟩ := by
  by_cases hlock : ∃ k, c = .statement (.lockBalance k)
  · obtain ⟨k, rfl⟩ := hlock
    obtain ⟨row, hrow⟩ := exists_holdsBalance s k
    refine ⟨.ok ⟨[row], 0⟩, ⟨_, rfl⟩, fun k' a h => ?_, fun a h => ?_⟩
    · obtain ⟨hstatement, ha⟩ := Exchange.mk.inj h
      cases ha
      rw [← lockBalance_inj (Command.statement.inj hstatement)]
      exact ⟨row, rfl, hrow⟩
    · exact absurd (Command.statement.inj (Exchange.mk.inj h).1) (lockBalance_ne_outboxHead k)
  · refine ⟨.ok ⟨[.ofList [("last", .int s.outbox.length)]], 0⟩, ⟨_, rfl⟩, fun k a h => ?_,
      fun a h => ?_⟩
    · exact absurd ⟨k, (Exchange.mk.inj h).1⟩ hlock
    · cases (Exchange.mk.inj h).2
      exact ⟨_, rfl, rfl⟩

/-! ## The parts of a commit -/

section Parts

variable {s : StoreState} {id : TransactionId} {now : Timestamp} {d : BalanceDelta}
  {b : BalanceSnapshot}

theorem yields_insertEntries (s : StoreState) (entries : List Entry) :
    Yields (Serves s) (insertEntries entries)
      (entries.map fun e => .statement (.insertEntry e)) () := by
  induction entries with
  | nil => exact .pure ()
  | cons e es ih => exact .command_bind (fun _ h => h.accepts) fun _ => ih

/-- A delta applied to the row that a database shows. -/
theorem applyDelta_locked (hs : s.AllPosted)
    (h : applyDelta (s.balances.get? d.key) d id now = .ok b) {row : Row}
    (hrow : HoldsBalance s d.key row) :
    ∃ current, readLocked row = .ok current ∧
      applyDeltaBy addToTotal current d id now = .ok (s.asStored b) := by
  have hkey : b.key = d.key := (applyDelta_eq_ok h).1
  unfold HoldsBalance at hrow
  unfold StoreState.asStored OrdMap.contains
  rw [hkey]
  cases hb₀ : s.balances.get? d.key with
  | some b₀ =>
    rw [hb₀] at h hrow
    have hposted := hs _ _ hb₀
    refine ⟨_, readLocked_of_balanceRow hrow hposted.version hposted.debit hposted.credit, ?_⟩
    exact applyDelta_asRead hposted h
  | none =>
    rw [hb₀] at h hrow
    exact ⟨none, readLocked_of_freshRow hrow, h⟩

/-- Instants are cut when they are bound, so a row that was cut is bound alike. -/
theorem updateBalance_asStored (k : BalanceKey) :
    Statement.updateBalance k (s.asStored b) = Statement.updateBalance k b := by
  unfold StoreState.asStored
  split
  · unfold Statement.updateBalance SqlValue.ofTimestamp
    rw [Timestamp.toMicros_toMicros]
  · rfl

/-- What is sent to write a balance row. -/
def moveCommands (now : Timestamp) (b : BalanceSnapshot) : List Command :=
  [.statement (.ensureBalance b.key now), .statement (.lockBalance b.key),
    .statement (.updateBalance b.key b)]

theorem yields_moveBalance (hs : s.AllPosted)
    (h : applyDelta (s.balances.get? d.key) d id now = .ok b) :
    Yields (Serves s) (moveBalance now id d) (moveCommands now b) (s.asStored b) := by
  have hkey : b.key = d.key := (applyDelta_eq_ok h).1
  unfold moveCommands
  rw [hkey, ← updateBalance_asStored (s := s) d.key]
  refine .command_bind (fun _ hx => hx.accepts) fun _ => ?_
  refine .queryOne_bind (HoldsBalance s d.key) (fun reply hx => ?_) fun row hrow => ?_
  · obtain ⟨a, rfl⟩ := hx.accepts
    obtain ⟨row, hrow, hholds⟩ := hx.locked d.key a rfl
    exact ⟨a, row, rfl, hrow, hholds⟩
  · obtain ⟨current, hcurrent, hnext⟩ := applyDelta_locked hs h hrow
    refine .done_bind hcurrent (.done_bind (mapError_eq_ok.mpr hnext) ?_)
    exact .command_bind (fun _ hx => hx.accepts) fun _ => .pure _

theorem yields_moveBalances (hs : s.AllPosted) {ds : List BalanceDelta}
    {rows : List BalanceSnapshot}
    (h : List.Forall₂ (fun d b => applyDelta (s.balances.get? d.key) d id now = .ok b) ds rows) :
    Yields (Serves s) (moveBalances now id ds) (rows.flatMap (moveCommands now))
      (rows.map s.asStored) := by
  induction h with
  | nil => exact .pure []
  | cons hb _ ih =>
    rw [List.flatMap_cons, List.map_cons]
    exact (yields_moveBalance hs hb).bind ih.bind_pure

theorem yields_appendAfter (s : StoreState) {recordId : Nat → Uuid} {last final : UInt64}
    {events : List LedgerEvent} {records : List OutboxRecord}
    (h : recordsAfter (ε := StoreError) recordId last events = .ok (records, final))
    (hevents : ∀ e ∈ events, e.isWritable = true) :
    Yields (Serves s) (appendAfter recordId last events)
      (records.map fun r => .statement (.insertRecord r)) final := by
  induction events generalizing recordId last records with
  | nil =>
    cases h
    exact .pure _
  | cons e es ih =>
    obtain ⟨sequence, hsequence, h⟩ := bind_eq_ok.mp h
    obtain ⟨⟨rest, final'⟩, hrest, h⟩ := bind_eq_ok.mp h
    cases h
    obtain ⟨he, hes⟩ := List.forall_mem_cons.mp hevents
    exact .done_bind hsequence (.done_bind (if_pos he)
      (.command_bind (fun _ hx => hx.accepts) fun _ => ih hrest hes))

theorem yields_appendOutbox {m : Moment} {events : List LedgerEvent}
    {records : List OutboxRecord} {final : UInt64}
    (h : recordsAfter (ε := StoreError) m.recordId s.lastSequence events = .ok (records, final))
    (hevents : ∀ e ∈ events, e.isWritable = true) :
    Yields (Serves s) (appendOutbox m events)
      (.statement .lockOutbox :: .statement .outboxHead ::
        records.map fun r => .statement (.insertRecord r)) final := by
  refine .command_bind (fun _ hx => hx.accepts) fun _ => ?_
  refine .queryOne_bind (fun row => OrdMap.get? "last" row = some (.int s.outbox.length))
    (fun reply hx => ?_) fun row hrow => ?_
  · obtain ⟨a, rfl⟩ := hx.accepts
    obtain ⟨row, hrow, hlast⟩ := hx.head a rfl
    exact ⟨a, row, rfl, hrow, hlast⟩
  · have hlast : row.get "last" asWord64 = .ok s.lastSequence := by
      rw [Row.get, hrow]
      rfl
    exact .done_bind hlast (yields_appendAfter s h hevents)

end Parts

/-! ## Commits -/

section Commit

variable {s s' : StoreState} {m m' : Moment} {t : Transaction} {committed : CommittedPosting}

/-- What is sent to write a transaction with its balance rows and outbox records. -/
def writeCommands (now : Timestamp) (t : Transaction) (rows : List BalanceSnapshot)
    (records : List OutboxRecord) : List Command :=
  .statement (.insertTransaction t) :: ((t.entries.map fun e => .statement (.insertEntry e)) ++
    (rows.flatMap (moveCommands now) ++ .statement .lockOutbox :: .statement .outboxHead ::
      records.map fun r => .statement (.insertRecord r)))

/-- Records as a database has them that makes other identifiers and cuts creation times. -/
def asInserted (s : StoreState) (m : Moment) (records : List OutboxRecord) : List OutboxRecord :=
  records.mapIdx fun i r =>
    { r with id := m.recordId i, payload := r.payload.mapBalance s.asStored }

/-- A commit in memory that succeeds, as a database goes through it that serves the state. -/
theorem yields_commitTransaction (hs : s.AllPosted) (hnow : m'.now = m.now)
    (ht : t.isWritable = true) (h : s.commit m t = .ok (committed, s')) :
    ∃ records, s'.outbox = s.outbox ++ records ∧
      (∀ b ∈ committed.balances, s'.balances.get? b.key = some b) ∧
      Yields (Serves s) (commitTransaction m' t)
        (.begin :: writeCommands m.now t committed.balances (asInserted s m' records) ++ [.commit])
        { committed with balances := committed.balances.map s.asStored } := by
  obtain ⟨rfl, hplan, happend⟩ := StoreState.commit_eq_ok h
  obtain ⟨ds, hds, -, -, hrows⟩ := StoreState.planCommit_eq_ok hplan
  obtain ⟨records, hrecords, rfl⟩ := StoreState.append_eq_ok happend
  refine ⟨records, rfl, fun b hb => ?_, ?_⟩
  · obtain ⟨hnodup, -, -⟩ := StoreState.rows_of_planCommit hplan
    exact OrdMap.get?_putRows_of_mem hnodup hb s.balances
  have hevents : ∀ e ∈ postingEvents committed.transaction (committed.balances.map s.asStored),
      e.isWritable = true := by
    refine List.forall_mem_cons.mpr ⟨ht, fun e he => ?_⟩
    rw [List.map_map] at he
    obtain ⟨b, hb, rfl⟩ := List.mem_map.mp he
    obtain ⟨d, -, happly⟩ := exists_mem_of_forall₂ hrows hb
    exact s.isWritable_forBalance (posted_of_applyDelta happly)
  have hinserted : recordsAfter (ε := StoreError) m'.recordId s.lastSequence
      (postingEvents committed.transaction (committed.balances.map s.asStored)) =
        .ok (asInserted s m' records, committed.lastSequence) := by
    rw [postingEvents_map s.asStored s.version_asStored]
    exact recordsAfter_map s.asStored s.modifiedAt_asStored m'.recordId hrecords
  unfold commitTransaction
  rw [hds, ← hnow]
  refine .inTransaction (fun _ hx => hx.accepts)
    (.command_bind (fun _ hx => hx.accepts) fun _ => ?_)
  exact (yields_insertEntries s _).bind ((yields_moveBalances hs (hnow ▸ hrows)).bind
    (yields_appendOutbox hinserted hevents).bind_pure)

end Commit

/-- A commit that succeeds in memory succeeds in a database that serves the state, and writes the
same balance rows and, in the same order, the same records under identifiers of its own. It comes
out with the same posting, apart from rows that were there before: their time of creation, also in
the records, is cut to the microsecond. -/
theorem commit_simulated (calls : List (Moment × StoreCall)) {m m' : Moment}
    (hnow : m'.now = m.now) {t : Transaction} (ht : t.isWritable = true)
    {committed : CommittedPosting} {s' : StoreState}
    (h : StoreState.run m (.commitTransaction t) (chronicleOf calls).state = (.ok committed, s')) :
    let s := (chronicleOf calls).state
    ∃ records, s'.outbox = s.outbox ++ records ∧
      (∀ b ∈ committed.balances, s'.balances.get? b.key = some b) ∧
      (∃ log result, (session m' (.commitTransaction t)).Runs log result ∧
        ∀ x ∈ log, Serves s x) ∧
      ∀ (log : List Exchange) (result : StoreResult CommittedPosting),
        (session m' (.commitTransaction t)).Runs log result → (∀ x ∈ log, Serves s x) →
        log.map Exchange.command = .begin ::
          writeCommands m.now t committed.balances (asInserted s m' records) ++ [.commit] ∧
        result = .ok { committed with balances := committed.balances.map s.asStored } ∧
        (result = .ok committed ↔ ∀ b ∈ committed.balances,
          s.balances.contains b.key = true → b.createdAt.toMicros = b.createdAt) := by
  intro s
  have hcommit : s.commit m t = .ok (committed, s') := StoreState.answer_of_run h
  obtain ⟨records, houtbox, hrows, hyields⟩ :=
    yields_commitTransaction (allPosted_chronicleOf calls) hnow ht hcommit
  refine ⟨records, houtbox, hrows, exists_runs (exists_serves s) _, fun log result hruns hlog => ?_⟩
  obtain ⟨hresult, hcommands⟩ := hyields log result hruns hlog
  refine ⟨hcommands, hresult, ?_⟩
  rw [hresult, ← s.map_asStored_eq_self_iff]
  constructor
  · intro hsame
    exact congrArg CommittedPosting.balances (Except.ok.inj hsame)
  · intro hsame
    rw [hsame]

/-! ### Two deposits -/

namespace Sample

open DoubleEntry.Sample

/-- A nanosecond after the sample time. -/
def tick : Timestamp :=
  { now with nano := 1, nano_lt := Nat.le_mul_of_pos_right 2 (Nat.succ_pos 999999999) }

/-- A dollar debited to an account. -/
def deposit (n : Nat) : Transaction where
  id := ⟨uuid n⟩
  templateId := ⟨uuid 9⟩
  templateCode := "DEPOSIT"
  journalId := ⟨uuid 1⟩
  correlationId := ""
  externalId := none
  effective := now.date
  description := none
  metadata := none
  reverses := none
  createdAt := now
  entries := [{
    id := ⟨uuid (n + 1)⟩
    transactionId := ⟨uuid n⟩
    journalId := ⟨uuid 1⟩
    accountId := ⟨uuid 2⟩
    sequence := 1
    entryType := "IN"
    currency := dollar
    direction := .debit
    layer := .settled
    units := { amount := (Decimal.make? 1 0).getD .zero, nonneg := by decide }
    description := none
    createdAt := now }]

/-- One deposit at a time. -/
def depositAt (time : Timestamp) : List (Moment × StoreCall) :=
  [(⟨time, uuid⟩, .commitTransaction (deposit 20))]

/-- The row of the account after another one. -/
def secondRow (created : Timestamp) : BalanceSnapshot where
  accountId := ⟨uuid 2⟩
  journalId := ⟨uuid 1⟩
  currency := dollar
  layer := .settled
  debitTotal := { amount := (Decimal.make? 2 0).getD .zero, nonneg := by decide }
  creditTotal := .zero
  version := 2
  lastTransactionId := ⟨uuid 40⟩
  createdAt := created
  modifiedAt := now

def second (created : Timestamp) : CommittedPosting := ⟨deposit 40, [secondRow created], 4⟩

def afterSecond (created : Timestamp) : StoreState :=
  (StoreState.run (moment 30) (.commitTransaction (deposit 40))
    (chronicleOf (depositAt created)).state).2

end Sample

open DoubleEntry.Sample (moment now)

/-- After a first deposit on a whole microsecond another one comes out the same. -/
theorem commit_simulated_deposit :
    (moment 60).now = (moment 30).now ∧ (Sample.deposit 40).isWritable = true ∧
      StoreState.run (moment 30) (.commitTransaction (Sample.deposit 40))
        (chronicleOf (Sample.depositAt now)).state =
          (.ok (Sample.second now), Sample.afterSecond now) ∧
      ∃ log, (session (moment 60) (.commitTransaction (Sample.deposit 40))).Runs log
        (.ok (Sample.second now)) := by
  have hnow : (moment 60).now = (moment 30).now := rfl
  have hwritable : (Sample.deposit 40).isWritable = true := rfl
  have hrun : StoreState.run (moment 30) (.commitTransaction (Sample.deposit 40))
      (chronicleOf (Sample.depositAt now)).state =
        (.ok (Sample.second now), Sample.afterSecond now) := rfl
  refine ⟨hnow, hwritable, hrun, ?_⟩
  obtain ⟨records, -, -, ⟨log, result, hruns, hlog⟩, hall⟩ :=
    commit_simulated (Sample.depositAt now) hnow hwritable hrun
  obtain ⟨-, -, hsame⟩ := hall log result hruns hlog
  have hresult : result = .ok (Sample.second now) := hsame.mpr (by decide)
  exact ⟨log, hresult ▸ hruns⟩

/-- After a first deposit a nanosecond later the row comes out created earlier than it was. -/
theorem commit_cuts_creation :
    let s := (chronicleOf (Sample.depositAt Sample.tick)).state
    let committed := Sample.second Sample.tick
    (StoreState.run (moment 30) (.commitTransaction (Sample.deposit 40)) s).1 = .ok committed ∧
      (Sample.afterSecond Sample.tick).outbox.length < pow2 63 ∧
      (∀ b ∈ committed.balances, b.version.toNat < pow2 63) ∧
      ∃ log, ∃ returned : CommittedPosting,
        (session (moment 30) (.commitTransaction (Sample.deposit 40))).Runs log (.ok returned) ∧
        (∀ x ∈ log, Serves s x) ∧ returned ≠ committed ∧
        returned.balances.map BalanceSnapshot.createdAt = [now] ∧
        committed.balances.map BalanceSnapshot.createdAt = [Sample.tick] := by
  have hrun : StoreState.run (moment 30) (.commitTransaction (Sample.deposit 40))
      (chronicleOf (Sample.depositAt Sample.tick)).state =
        (.ok (Sample.second Sample.tick), Sample.afterSecond Sample.tick) := rfl
  intro s committed
  have hnow : (moment 30).now = (moment 30).now := rfl
  obtain ⟨records, -, -, hyields⟩ := yields_commitTransaction
    (allPosted_chronicleOf (Sample.depositAt Sample.tick)) hnow rfl (StoreState.answer_of_run hrun)
  obtain ⟨log, result, hruns, hlog⟩ := exists_runs (exists_serves s)
    (commitTransaction (moment 30) (Sample.deposit 40))
  obtain ⟨rfl, -⟩ := hyields log result hruns hlog
  refine ⟨congrArg Prod.fst hrun, by decide, by decide, log, _, hruns, hlog, fun hsame => ?_,
    rfl, rfl⟩
  have hcreated := congrArg (fun c => c.balances.map BalanceSnapshot.createdAt) hsame
  exact absurd hcreated (by decide)

end Database

end DoubleEntry
