import DoubleEntry.Database.Session
import DoubleEntry.Wire.Event

/-!
# Reading rows

Every record of the ledger is read from the columns of a row, and a column that cannot be read is a
corrupt row. Columns are read in a fixed order, so the first that fails is the error. Whole numbers
are read into unsigned words bit by bit.
-/

namespace DoubleEntry.Database

/-! ## Columns -/

/-- Why a value does not have the type of its column. -/
def SqlValue.whyNot : SqlValue → String
  | .null => "unexpected null; try decoding as an `Option`"
  | .notANumber => NumericError.notANumber.message
  | _ => "mismatched types"

abbrev ColumnReader (α : Type) := SqlValue → Except (Failure String) α

/-- The value does not have the type of its column. -/
def SqlValue.refuse {α : Type} (v : SqlValue) : Except (Failure String) α :=
  .error (.error v.whyNot)

def asUuid : ColumnReader Uuid
  | .uuid u => .ok u
  | v => v.refuse

def asId {k : IdKind} : ColumnReader (Id k) := fun v => (asUuid v).map Id.mk

def asText : ColumnReader String
  | .text s => .ok s
  | v => v.refuse

def asJson : ColumnReader Json
  | .json j => .ok j
  | v => v.refuse

def asInt : ColumnReader Int
  | .int i => .ok i
  | v => v.refuse

/-- A column of whole numbers of 64 bits. -/
def asWord64 : ColumnReader UInt64 := fun v => (asInt v).map fun i => (Int64.ofInt i).toUInt64

/-- A column of whole numbers of 32 bits. -/
def asWord32 : ColumnReader UInt32 := fun v => (asInt v).map fun i => (Int32.ofInt i).toUInt32

def asDate : ColumnReader Date
  | .date d => .ok d
  | v => v.refuse

def asTimestamp : ColumnReader Timestamp
  | .timestamp t => .ok t
  | v => v.refuse

def asStored : ColumnReader Stored
  | .numeric n => n.toDecimal.mapError (Failure.map NumericError.message)
  | v => v.refuse

/-- A column that may be null. -/
def orNull {α : Type} (read : ColumnReader α) : ColumnReader (Option α)
  | .null => .ok none
  | v => (read v).map some

def Row.get {α : Type} (row : Row) (column : String) (read : ColumnReader α) : StoreResult α :=
  (read ((OrdMap.get? column row).getD .null)).mapError <| Failure.map fun why =>
    .corrupt s!"failed to read {column}: error occurred while decoding column \"{column}\": {why}"

/-- The error of a row whose columns make no record. -/
def corrupt {α : Type} (what : String) : StoreResult α := .error (.error (.corrupt what))

/-- A column of texts that stand for values. -/
def Row.parse {α : Type} (row : Row) (column : String) (read : String → Except ValueError α) :
    StoreResult α := do
  let text ← row.get column asText
  match read text with
  | .ok a => pure a
  | .error e => corrupt s!"bad {column} '{text}': {e.message}"

def Row.units (row : Row) (column : String) : StoreResult Units := do
  let s ← row.get column asStored
  match Units.ofStored s.amount s.zeros with
  | .ok u => pure u
  | .error e =>
    if s.isWritable then corrupt s!"{column}: {e.message}" else throw .overflow

def decodeOr {α : Type} (noun : String) (d : Decoder α) (j : Json) : StoreResult α :=
  match d j with
  | .ok a => .ok a
  | .error e => corrupt s!"{noun}: {e.message}"

/-! ## Records -/

def readJournal (row : Row) : StoreResult Journal := do
  let id ← row.get "id" asId
  let name ← row.get "name" asText
  let code ← row.get "code" (orNull asText)
  let description ← row.get "description" (orNull asText)
  let createdAt ← row.get "created_at" asTimestamp
  let modifiedAt ← row.get "modified_at" asTimestamp
  pure ⟨id, name, code, description, createdAt, modifiedAt⟩

def readAccount (row : Row) : StoreResult Account := do
  let metadata ← decodeOr "account metadata" Metadata.fromJson (← row.get "metadata" asJson)
  let id ← row.get "id" asId
  let code ← row.get "code" asText
  let name ← row.get "name" asText
  let normalBalance ← row.parse "normal_balance" Side.readNormalBalance
  let description ← row.get "description" (orNull asText)
  let createdAt ← row.get "created_at" asTimestamp
  let modifiedAt ← row.get "modified_at" asTimestamp
  pure ⟨id, code, name, normalBalance, description, metadata, createdAt, modifiedAt⟩

def readTemplate (row : Row) : StoreResult TxTemplate := do
  decodeOr "template definition" TxTemplate.fromJson (← row.get "definition" asJson)

/-- Read a transaction, apart from its entries. -/
def readTransaction (row : Row) : StoreResult Transaction := do
  let reverses ← row.get "reverses" (orNull asId)
  let effective ← row.get "effective" asDate
  let id ← row.get "id" asId
  let templateId ← row.get "tx_template_id" asId
  let templateCode ← row.get "template_code" asText
  let journalId ← row.get "journal_id" asId
  let correlationId ← row.get "correlation_id" asText
  let externalId ← row.get "external_id" (orNull asText)
  let description ← row.get "description" (orNull asText)
  let metadata ← row.get "metadata" (orNull asJson)
  let createdAt ← row.get "created_at" asTimestamp
  pure {
    id, templateId, templateCode, journalId, correlationId, externalId, effective, description,
    metadata, reverses, createdAt, entries := [] }

def readEntry (row : Row) : StoreResult Entry := do
  let id ← row.get "id" asId
  let transactionId ← row.get "transaction_id" asId
  let journalId ← row.get "journal_id" asId
  let accountId ← row.get "account_id" asId
  let sequence ← row.get "sequence" asWord32
  let entryType ← row.get "entry_type" asText
  let currency ← row.parse "currency" Currency.ofString
  let direction ← row.parse "direction" Side.readDirection
  let layer ← row.parse "layer" Layer.ofString
  let units ← row.units "units"
  let description ← row.get "description" (orNull asText)
  let createdAt ← row.get "created_at" asTimestamp
  pure {
    id, transactionId, journalId, accountId, sequence, entryType, currency, direction, layer,
    units, description, createdAt }

/-- Read a balance row that was posted to. -/
def readBalance (row : Row) : StoreResult BalanceSnapshot := do
  let last ← row.get "last_transaction_id" (orNull asId)
  match last with
  | none => corrupt "balance row without last_transaction_id"
  | some lastTransactionId =>
    let createdAt ← row.get "created_at" asTimestamp
    let accountId ← row.get "account_id" asId
    let journalId ← row.get "journal_id" asId
    let currency ← row.parse "currency" Currency.ofString
    let layer ← row.parse "layer" Layer.ofString
    let debitTotal ← row.units "debit_total"
    let creditTotal ← row.units "credit_total"
    let version ← row.get "version" asWord64
    let modifiedAt ← row.get "modified_at" asTimestamp
    pure {
      accountId, journalId, currency, layer, debitTotal, creditTotal, version,
      lastTransactionId, createdAt, modifiedAt }

/-- Read an outbox record, whose type has to be that of its event. -/
def readRecord (row : Row) : StoreResult OutboxRecord := do
  let payload ← decodeOr "outbox payload" LedgerEvent.fromJson (← row.get "payload" asJson)
  let eventType ← row.get "event_type" asText
  if eventType ≠ payload.eventType then
    corrupt s!"outbox event_type '{eventType}' does not match payload '{payload.eventType}'"
  let id ← row.get "id" asUuid
  let sequence ← row.get "sequence" asWord64
  let eventVersion ← row.get "event_version" asWord32
  let recordedAt ← row.get "recorded_at" asTimestamp
  pure { id, sequence, eventType, eventVersion, recordedAt, payload }

end DoubleEntry.Database
