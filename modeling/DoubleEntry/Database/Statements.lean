import DoubleEntry.Database.Session
import DoubleEntry.Power
import DoubleEntry.Wire.Event

/-!
# Statements of the database store

The text of every statement, with the values of its parameters in the order of their numbers.
Instants are bound to the microsecond and a numeric zero without fraction digits; unsigned words
are bound bit by bit as signed ones.
-/

namespace DoubleEntry.Database

/-! ## Bound values -/

namespace SqlValue

def ofId {k : IdKind} (i : Id k) : SqlValue := .uuid i.uuid

def ofTimestamp (t : Timestamp) : SqlValue := .timestamp t.toMicros

def ofUnits (u : Units) : SqlValue := .numeric (.ofUnits u)

def ofWord64 (n : UInt64) : SqlValue := .int n.toInt64.toInt

def ofWord32 (n : UInt32) : SqlValue := .int n.toInt32.toInt

/-- A limit, at most the greatest signed number. -/
def ofLimit (n : UInt64) : SqlValue := .int (min n.toNat (pow2 63 - 1) : Nat)

def ofOption {α : Type} (f : α → SqlValue) : Option α → SqlValue
  | none => .null
  | some a => f a

end SqlValue

/-! ## Columns -/

def transactionColumns : String :=
  "id, tx_template_id, template_code, journal_id, correlation_id, external_id, effective, " ++
    "description, metadata, reverses, created_at"

def entryColumns : String :=
  "id, transaction_id, journal_id, account_id, sequence, entry_type, currency, direction, " ++
    "layer, units, description, created_at"

def balanceColumns : String :=
  "account_id, journal_id, currency, layer, debit_total, credit_total, version, " ++
    "last_transaction_id, created_at, modified_at"

def accountColumns : String :=
  "id, code, name, normal_balance, description, metadata, created_at, modified_at"

namespace Statement

/-! ## Journals -/

def insertJournal (j : Journal) : Statement where
  text := "INSERT INTO tally_journals (id, name, code, description, created_at, modified_at) " ++
    "VALUES ($1, $2, $3, $4, $5, $6)"
  params := [.ofId j.id, .text j.name, .ofOption .text j.code, .ofOption .text j.description,
    .ofTimestamp j.createdAt, .ofTimestamp j.modifiedAt]

def findJournal (id : JournalId) : Statement where
  text := "SELECT id, name, code, description, created_at, modified_at FROM tally_journals " ++
    "WHERE id = $1"
  params := [.ofId id]

def updateJournal (j : Journal) : Statement where
  text := "UPDATE tally_journals SET name = $2, description = $3, modified_at = $4 WHERE id = $1"
  params := [.ofId j.id, .text j.name, .ofOption .text j.description, .ofTimestamp j.modifiedAt]

/-! ## Accounts -/

def insertAccount (a : Account) : Statement where
  text := "INSERT INTO tally_accounts (" ++ accountColumns ++
    ") VALUES ($1, $2, $3, $4, $5, $6, $7, $8)"
  params := [.ofId a.id, .text a.code, .text a.name, .text a.normalBalance.word,
    .ofOption .text a.description, .json (Metadata.toJson a.metadata), .ofTimestamp a.createdAt,
    .ofTimestamp a.modifiedAt]

def findAccount (id : AccountId) : Statement where
  text := "SELECT " ++ accountColumns ++ " FROM tally_accounts WHERE id = $1"
  params := [.ofId id]

def findAccountByCode (code : String) : Statement where
  text := "SELECT " ++ accountColumns ++ " FROM tally_accounts WHERE code = $1"
  params := [.text code]

def findAccounts (ids : List AccountId) : Statement where
  text := "SELECT " ++ accountColumns ++ " FROM tally_accounts WHERE id = ANY($1)"
  params := [.uuids (ids.map Id.uuid)]

def updateAccount (a : Account) : Statement where
  text := "UPDATE tally_accounts SET name = $2, description = $3, metadata = $4, " ++
    "modified_at = $5 WHERE id = $1"
  params := [.ofId a.id, .text a.name, .ofOption .text a.description,
    .json (Metadata.toJson a.metadata), .ofTimestamp a.modifiedAt]

/-! ## Templates -/

def insertTemplate (t : TxTemplate) : Statement where
  text := "INSERT INTO tally_tx_templates (id, code, definition, created_at) " ++
    "VALUES ($1, $2, $3, $4)"
  params := [.ofId t.id, .text t.code, .json t.toJson, .ofTimestamp t.createdAt]

def findTemplate (code : String) : Statement where
  text := "SELECT definition FROM tally_tx_templates WHERE code = $1"
  params := [.text code]

/-! ## Transactions -/

/-- Insert a transaction, apart from its entries. -/
def insertTransaction (t : Transaction) : Statement where
  text := "INSERT INTO tally_transactions ( " ++ transactionColumns ++
    " ) VALUES ($1, $2, $3, $4, $5, $6, $7, $8, $9, $10, $11)"
  params := [.ofId t.id, .ofId t.templateId, .text t.templateCode, .ofId t.journalId,
    .text t.correlationId, .ofOption .text t.externalId, .date t.effective,
    .ofOption .text t.description, .ofOption .json t.metadata, .ofOption .ofId t.reverses,
    .ofTimestamp t.createdAt]

def insertEntry (e : Entry) : Statement where
  text := "INSERT INTO tally_entries ( " ++ entryColumns ++
    " ) VALUES ($1, $2, $3, $4, $5, $6, $7, $8, $9, $10, $11, $12)"
  params := [.ofId e.id, .ofId e.transactionId, .ofId e.journalId, .ofId e.accountId,
    .ofWord32 e.sequence, .text e.entryType, .text e.currency.code, .text e.direction.word,
    .text e.layer.word, .ofUnits e.units, .ofOption .text e.description,
    .ofTimestamp e.createdAt]

def findTransaction (id : TransactionId) : Statement where
  text := "SELECT " ++ transactionColumns ++ " FROM tally_transactions WHERE id = $1"
  params := [.ofId id]

def findTransactionByExternalId (x : String) : Statement where
  text := "SELECT " ++ transactionColumns ++ " FROM tally_transactions WHERE external_id = $1"
  params := [.text x]

def loadEntries (id : TransactionId) : Statement where
  text := "SELECT " ++ entryColumns ++
    " FROM tally_entries WHERE transaction_id = $1 ORDER BY sequence ASC"
  params := [.ofId id]

/-- Select the entries of an account after a position. -/
def listAccountEntries (account : AccountId) (after : Option EntryCursor) (limit : UInt64) :
    Statement where
  text := "SELECT " ++ entryColumns ++ " FROM tally_entries WHERE account_id = $1 " ++
    "AND ($2::timestamptz IS NULL OR (created_at, id) > ($2, $3)) " ++
    "ORDER BY created_at ASC, id ASC LIMIT $4"
  params := [.ofId account, .ofOption (fun c => .ofTimestamp c.createdAt) after,
    .uuid ((after.map fun c => c.id.uuid).getD .nil), .ofLimit limit]

/-! ## Balances -/

def keyParams (k : BalanceKey) : List SqlValue :=
  [.ofId k.accountId, .ofId k.journalId, .text k.currency.code, .text k.layer.word]

/-- Insert a balance row that was never posted to, unless there is one. -/
def ensureBalance (k : BalanceKey) (now : Timestamp) : Statement where
  text := "INSERT INTO tally_balances (account_id, journal_id, currency, layer, created_at, " ++
    "modified_at) VALUES ($1, $2, $3, $4, $5, $5) " ++
    "ON CONFLICT (account_id, journal_id, currency, layer) DO NOTHING"
  params := keyParams k ++ [.ofTimestamp now]

/-- Select a balance row and keep others from changing it. -/
def lockBalance (k : BalanceKey) : Statement where
  text := "SELECT " ++ balanceColumns ++ " FROM tally_balances WHERE account_id = $1 " ++
    "AND journal_id = $2 AND currency = $3 AND layer = $4 FOR UPDATE"
  params := keyParams k

def updateBalance (k : BalanceKey) (b : BalanceSnapshot) : Statement where
  text := "UPDATE tally_balances SET debit_total = $5, credit_total = $6, version = $7, " ++
    "last_transaction_id = $8, created_at = $9, modified_at = $10 WHERE account_id = $1 " ++
    "AND journal_id = $2 AND currency = $3 AND layer = $4"
  params := keyParams k ++ [.ofUnits b.debitTotal, .ofUnits b.creditTotal, .ofWord64 b.version,
    .ofId b.lastTransactionId, .ofTimestamp b.createdAt, .ofTimestamp b.modifiedAt]

/-- Select the balance rows of an account in a journal and currency. -/
def loadBalances (account : AccountId) (journal : JournalId) (currency : Currency) :
    Statement where
  text := "SELECT " ++ balanceColumns ++ " FROM tally_balances WHERE account_id = $1 " ++
    "AND journal_id = $2 AND currency = $3 AND version > 0 ORDER BY layer"
  params := [.ofId account, .ofId journal, .text currency.code]

/-! ## Outbox -/

/-- The key of the lock that outbox records are written under. -/
def outboxLockKey : Int := 8386103194290184824

def lockOutbox : Statement where
  text := "SELECT pg_advisory_xact_lock($1)"
  params := [.int outboxLockKey]

/-- Select the number of the last outbox record. -/
def outboxHead : Statement where
  text := "SELECT COALESCE(MAX(sequence), 0) AS last FROM tally_outbox_events"
  params := []

def insertRecord (r : OutboxRecord) : Statement where
  text := "INSERT INTO tally_outbox_events (sequence, id, event_type, event_version, payload, " ++
    "recorded_at) VALUES ($1, $2, $3, $4, $5, $6)"
  params := [.ofWord64 r.sequence, .uuid r.id, .text r.eventType, .ofWord32 r.eventVersion,
    .json r.payload.toJson, .ofTimestamp r.recordedAt]

def loadOutboxAfter (after limit : UInt64) : Statement where
  text := "SELECT sequence, id, event_type, event_version, payload, recorded_at " ++
    "FROM tally_outbox_events WHERE sequence > $1 ORDER BY sequence ASC LIMIT $2"
  params := [.ofWord64 after, .ofLimit limit]

/-! ## Positions of consumers -/

def loadCursor (consumer : String) : Statement where
  text := "SELECT sequence FROM tally_outbox_cursors WHERE consumer = $1"
  params := [.text consumer]

def saveCursor (consumer : String) (sequence : UInt64) : Statement where
  text := "INSERT INTO tally_outbox_cursors (consumer, sequence) VALUES ($1, $2) " ++
    "ON CONFLICT (consumer) DO UPDATE SET sequence = EXCLUDED.sequence, updated_at = NOW()"
  params := [.text consumer, .ofWord64 sequence]

def resetCursor (consumer : String) : Statement where
  text := "DELETE FROM tally_outbox_cursors WHERE consumer = $1"
  params := [.text consumer]

end Statement

end DoubleEntry.Database
