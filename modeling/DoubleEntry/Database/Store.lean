import DoubleEntry.Config
import DoubleEntry.Database.Rows
import DoubleEntry.Database.Schema
import DoubleEntry.Database.Statements
import DoubleEntry.Engine.Error

/-!
# The database store

Every store call as a session with the database. A change is one transaction: its rows, the
balance rows it moves and the outbox records that tell of it are written together or not at all.

**Balances.** Each row a posting touches is inserted where it is missing, locked, read and updated,
in the order of the keys, so postings that touch the same rows wait for one another in one order.

**Outbox.** Records are numbered under a lock that lasts until the transaction ends, so numbers
have no gaps and follow the order of commits.
-/

namespace DoubleEntry.Database

open Session (execute queryOptional queryOne queryAll inTransaction fail)

/-! ## Writing -/

/-- A value whose amounts have few enough fraction digits to be written, or an overflow. -/
def writable {α : Type} (isWritable : α → Bool) (a : α) : Session α :=
  .done (if isWritable a then .ok a else .error .overflow)

/-- Number and insert the records of events after a number; the last number comes out. -/
def appendAfter (recordId : Nat → Uuid) (last : UInt64) : List LedgerEvent → Session UInt64
  | [] => pure last
  | e :: es => do
    let sequence ← Session.done (nextCount last)
    let e ← writable LedgerEvent.isWritable e
    let _ ← execute "insert_outbox_event" (.insertRecord (.ofEvent (recordId 0) sequence e))
    appendAfter (fun i => recordId (i + 1)) sequence es

/-- Append the records of events to the outbox; the number of the last one comes out. -/
def appendOutbox (m : Moment) (events : List LedgerEvent) : Session UInt64 := do
  let _ ← execute "lock_outbox" .lockOutbox
  let row ← queryOne "outbox_head" .outboxHead
  let last ← Session.done (row.get "last" asWord64)
  appendAfter m.recordId last events

/-- Insert what a statement says, and append the record of an event. -/
def insertWith (m : Moment) (operation : String) (s : Statement) (e : LedgerEvent) :
    Session UInt64 :=
  inTransaction do
    let _ ← execute operation s
    appendOutbox m [e]

/-- Update the row a statement names, which has to be there, and append the record of an event. -/
def updateWith (m : Moment) (operation : String) (s : Statement) (what : String)
    (e : LedgerEvent) : Session UInt64 :=
  inTransaction do
    let answer ← execute operation s
    if answer.affected = 0 then fail (.notFound what)
    else appendOutbox m [e]

/-! ## Committing a transaction -/

/-- The store error for a transaction that cannot be inserted. -/
def insertTransactionError (t : Transaction) (f : SessionFault) : StoreError :=
  match f, t.reverses with
  | .reported code message constraint, some target =>
    if constraint = "tally_transactions_reverses_key" then .alreadyVoided target
    else (SessionFault.reported code message constraint).toStoreError "insert_transaction"
  | f, _ => f.toStoreError "insert_transaction"

def insertEntries : List Entry → Session Unit
  | [] => pure ()
  | e :: es => do
    let _ ← execute "insert_entry" (.insertEntry e)
    insertEntries es

/-- A locked balance row; nothing if it was never posted to. -/
def readLocked (row : Row) : StoreResult (Option BalanceSnapshot) := do
  let version ← row.get "version" asInt
  if version = 0 then pure none else (readBalance row).map some

/-- Move one balance row by a delta of a transaction. -/
def moveBalance (now : Timestamp) (id : TransactionId) (d : BalanceDelta) :
    Session BalanceSnapshot := do
  let _ ← execute "ensure_balance_row" (.ensureBalance d.key now)
  let row ← queryOne "lock_balance" (.lockBalance d.key)
  let current ← Session.done (readLocked row)
  let next ← Session.done <| (applyDeltaBy addToTotal current d id now).mapError fun f =>
    f.map fun e => .invariant s!"balance {d.key.accountId}: {e.message}"
  let _ ← execute "update_balance" (.updateBalance d.key next)
  pure next

def moveBalances (now : Timestamp) (id : TransactionId) :
    List BalanceDelta → Session (List BalanceSnapshot)
  | [] => pure []
  | d :: ds => do
    let b ← moveBalance now id d
    let bs ← moveBalances now id ds
    pure (b :: bs)

def writeTransaction (m : Moment) (t : Transaction) (ds : List BalanceDelta) :
    Session CommittedPosting := do
  let _ ← Session.command (.statement (.insertTransaction t)) (insertTransactionError t)
  insertEntries t.entries
  let rows ← moveBalances m.now t.id ds
  let last ← appendOutbox m (postingEvents t rows)
  pure ⟨t, rows, last⟩

def commitTransaction (m : Moment) (t : Transaction) : Session CommittedPosting :=
  match deltas t.entries with
  | .error e => fail (.invariant s!"balance delta: {e.message}")
  | .ok ds => inTransaction (writeTransaction m t ds)

/-! ## Reading -/

def readRows {α : Type} (read : Row → StoreResult α) (rows : List Row) :
    Session (List α) :=
  .done (rows.mapM read)

/-- Read the row that was found, if there is one. -/
def readOptional {α : Type} (read : Row → StoreResult α) (row : Option Row) :
    Session (Option α) :=
  .done (row.mapM read)

def withEntries (row : Option Row) : Session (Option Transaction) := do
  match ← readOptional readTransaction row with
  | none => pure none
  | some t =>
    let entries ← readRows readEntry (← queryAll "load_entries" (.loadEntries t.id))
    let t ← writable Transaction.isWritable { t with entries := entries }
    pure (some t)

/-! ## Calls -/

def readEntries (rows : List Row) : Session (List Entry) := do
  writable (fun es => es.all fun e => e.units.isWritable) (← readRows readEntry rows)

def readBalances (rows : List Row) : Session (List BalanceSnapshot) := do
  writable (fun bs => bs.all BalanceSnapshot.isWritable) (← readRows readBalance rows)

def session (m : Moment) : (c : StoreCall) → Session c.Reply
  | .createJournal j => insertWith m "insert_journal" (.insertJournal j) (.journalCreated j)
  | .findJournal id =>
    (queryOptional "find_journal" (.findJournal id)).bind (readOptional readJournal)
  | .updateJournal j fields =>
    updateWith m "update_journal" (.updateJournal j) s!"journal {j.id}" (.journalUpdated j fields)
  | .createAccount a => insertWith m "insert_account" (.insertAccount a) (.accountCreated a)
  | .findAccount id =>
    (queryOptional "find_account" (.findAccount id)).bind (readOptional readAccount)
  | .findAccountByCode code =>
    (queryOptional "find_account_by_code" (.findAccountByCode code)).bind
      (readOptional readAccount)
  | .findAccounts ids =>
    (queryAll "find_accounts" (.findAccounts ids)).bind (readRows readAccount)
  | .updateAccount a fields =>
    updateWith m "update_account" (.updateAccount a) s!"account {a.id}" (.accountUpdated a fields)
  | .createTemplate t =>
    insertWith m "insert_tx_template" (.insertTemplate t) (.templateCreated t)
  | .findTemplate code =>
    (queryOptional "find_tx_template" (.findTemplate code)).bind (readOptional readTemplate)
  | .commitTransaction t => commitTransaction m t
  | .findTransaction id =>
    (queryOptional "find_transaction" (.findTransaction id)).bind withEntries
  | .findTransactionByExternalId x =>
    (queryOptional "find_transaction_by_external_id" (.findTransactionByExternalId x)).bind
      withEntries
  | .listAccountEntries account after limit =>
    (queryAll "list_account_entries" (.listAccountEntries account after limit)).bind readEntries
  | .loadBalances account journal currency =>
    (queryAll "load_balances" (.loadBalances account journal currency)).bind readBalances
  | .loadOutboxAfter after limit =>
    (queryAll "load_outbox_after" (.loadOutboxAfter after limit)).bind (readRows readRecord)

/-! ## Positions of consumers -/

/-- The position of a consumer, the beginning for one never heard of. -/
def loadCursor (consumer : String) : Session UInt64 := do
  match ← queryOptional "load_cursor" (.loadCursor consumer) with
  | some row => Session.done (row.get "sequence" asWord64)
  | none => pure 0

def saveCursor (consumer : String) (sequence : UInt64) : Session Unit := do
  let _ ← execute "save_cursor" (.saveCursor consumer sequence)

def resetCursor (consumer : String) : Session Unit := do
  let _ ← execute "reset_cursor" (.resetCursor consumer)

/-! ## Opening -/

/-- Create the tables that are not there yet. -/
def migrate : Session Unit := do
  let _ ← Session.command (.script Schema.script) (SessionFault.toStoreError "migrate")

def connect : Session Unit := do
  let _ ← Session.command .connect (SessionFault.toStoreError "connect")

/-- Open a store as configured; a store in memory needs nothing. -/
def openStore (config : LedgerConfig) : Session Unit :=
  match config.store with
  | .memory => pure ()
  | .postgres _ _ runMigrations => do
    connect
    if runMigrations then migrate

end DoubleEntry.Database
