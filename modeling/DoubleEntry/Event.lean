import DoubleEntry.Account
import DoubleEntry.Balance.Basic

/-!
# Events and outbox records

Every committed change is told by an event. The outbox is the list of such events in the order of
commits: an `OutboxRecord` is an event under its sequence number, with type, version and time taken
from the event itself, so that a consumer can route on them without looking into it.
-/

namespace DoubleEntry

/-- A committed change. -/
inductive LedgerEvent where
  | journalCreated (journal : Journal)
  | journalUpdated (journal : Journal) (fields : List String)
  | accountCreated (account : Account)
  | accountUpdated (account : Account) (fields : List String)
  | templateCreated (template : TxTemplate)
  | transactionCreated (transaction : Transaction)
  | balanceCreated (balance : BalanceSnapshot)
  | balanceUpdated (balance : BalanceSnapshot)

namespace LedgerEvent

/-- The event of a row just written: the first version is a creation. -/
def forBalance (b : BalanceSnapshot) : LedgerEvent :=
  if b.version = 1 then .balanceCreated b else .balanceUpdated b

def eventType : LedgerEvent → String
  | .journalCreated _ => "ledger.journal.created"
  | .journalUpdated _ _ => "ledger.journal.updated"
  | .accountCreated _ => "ledger.account.created"
  | .accountUpdated _ _ => "ledger.account.updated"
  | .templateCreated _ => "ledger.tx_template.created"
  | .transactionCreated _ => "ledger.transaction.created"
  | .balanceCreated _ => "ledger.balance.created"
  | .balanceUpdated _ => "ledger.balance.updated"

/-- The version of the form of every event. -/
def formVersion : UInt32 := 1

def occurredAt : LedgerEvent → Timestamp
  | .journalCreated j => j.modifiedAt
  | .journalUpdated j _ => j.modifiedAt
  | .accountCreated a => a.modifiedAt
  | .accountUpdated a _ => a.modifiedAt
  | .templateCreated t => t.createdAt
  | .transactionCreated t => t.createdAt
  | .balanceCreated b => b.modifiedAt
  | .balanceUpdated b => b.modifiedAt

/-- The amounts of an event have few enough fraction digits to be written. -/
def isWritable : LedgerEvent → Bool
  | .transactionCreated t => t.isWritable
  | .balanceCreated b => b.isWritable
  | .balanceUpdated b => b.isWritable
  | _ => true

end LedgerEvent

/-- The events of a posting: the transaction, then every row it touched in the order of keys. -/
def postingEvents (t : Transaction) (rows : List BalanceSnapshot) : List LedgerEvent :=
  .transactionCreated t :: rows.map .forBalance

/-- An event in the outbox. -/
structure OutboxRecord where
  id : Uuid
  sequence : UInt64
  eventType : String
  eventVersion : UInt32
  recordedAt : Timestamp
  payload : LedgerEvent

def OutboxRecord.ofEvent (id : Uuid) (sequence : UInt64) (e : LedgerEvent) : OutboxRecord :=
  ⟨id, sequence, e.eventType, LedgerEvent.formVersion, e.occurredAt, e⟩

/-- The records of events appended after a sequence number, and the last number assigned. -/
def recordsAfter {ε : Type} (recordId : Nat → Uuid) (last : UInt64) :
    List LedgerEvent → Except (Failure ε) (List OutboxRecord × UInt64)
  | [] => .ok ([], last)
  | e :: es => do
    let sequence ← nextCount last
    let (records, final) ← recordsAfter (fun i => recordId (i + 1)) sequence es
    pure (.ofEvent (recordId 0) sequence e :: records, final)

end DoubleEntry
