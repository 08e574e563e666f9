import DoubleEntry.Wire.Ledger

/-!
# JSON forms of events

An event is an object with its kind under `type` and what it carries under further members; it may
also be given as an array of the kind and the values. A record of the outbox holds its event under
`payload`.
-/

namespace DoubleEntry

namespace LedgerEvent

/-- The kinds of events. -/
inductive Kind where
  | journalCreated
  | journalUpdated
  | accountCreated
  | accountUpdated
  | templateCreated
  | transactionCreated
  | balanceCreated
  | balanceUpdated
deriving DecidableEq

/-- The kinds with their words and the names errors call them by. -/
def kinds : List (String × Kind) := [
  ("journal_created", .journalCreated),
  ("journal_updated", .journalUpdated),
  ("account_created", .accountCreated),
  ("account_updated", .accountUpdated),
  ("tx_template_created", .templateCreated),
  ("transaction_created", .transactionCreated),
  ("balance_created", .balanceCreated),
  ("balance_updated", .balanceUpdated)]

/-- How errors name the members of a kind. -/
def Kind.title : Kind → String
  | .journalCreated => "struct variant LedgerEvent::JournalCreated"
  | .journalUpdated => "struct variant LedgerEvent::JournalUpdated"
  | .accountCreated => "struct variant LedgerEvent::AccountCreated"
  | .accountUpdated => "struct variant LedgerEvent::AccountUpdated"
  | .templateCreated => "struct variant LedgerEvent::TxTemplateCreated"
  | .transactionCreated => "struct variant LedgerEvent::TransactionCreated"
  | .balanceCreated => "struct variant LedgerEvent::BalanceCreated"
  | .balanceUpdated => "struct variant LedgerEvent::BalanceUpdated"

def Kind.record : Kind → Record LedgerEvent
  | .journalCreated => .journalCreated <$> .required "journal" Journal.fromJson
  | .journalUpdated =>
    .journalUpdated <$> .required "journal" Journal.fromJson
      <*> .required "fields" (Decode.list Decode.string)
  | .accountCreated => .accountCreated <$> .required "account" Account.fromJson
  | .accountUpdated =>
    .accountUpdated <$> .required "account" Account.fromJson
      <*> .required "fields" (Decode.list Decode.string)
  | .templateCreated => .templateCreated <$> .required "tx_template" TxTemplate.fromJson
  | .transactionCreated => .transactionCreated <$> .required "transaction" Transaction.fromJson
  | .balanceCreated => .balanceCreated <$> .required "balance" BalanceSnapshot.fromJson
  | .balanceUpdated => .balanceUpdated <$> .required "balance" BalanceSnapshot.fromJson

def kindFromJson : Decoder Kind
  | .string s => Decode.variantNamed kinds s
  | j => Decode.mismatch j "variant identifier"

def title : String := "internally tagged enum LedgerEvent"

def toJson : LedgerEvent → Json
  | .journalCreated j =>
    .ofMembers [("type", .string "journal_created"), ("journal", j.toJson)]
  | .journalUpdated j fields =>
    .ofMembers [("type", .string "journal_updated"), ("journal", j.toJson),
      ("fields", .ofList .string fields)]
  | .accountCreated a =>
    .ofMembers [("type", .string "account_created"), ("account", a.toJson)]
  | .accountUpdated a fields =>
    .ofMembers [("type", .string "account_updated"), ("account", a.toJson),
      ("fields", .ofList .string fields)]
  | .templateCreated t =>
    .ofMembers [("type", .string "tx_template_created"), ("tx_template", t.toJson)]
  | .transactionCreated t =>
    .ofMembers [("type", .string "transaction_created"), ("transaction", t.toJson)]
  | .balanceCreated b =>
    .ofMembers [("type", .string "balance_created"), ("balance", b.toJson)]
  | .balanceUpdated b =>
    .ofMembers [("type", .string "balance_updated"), ("balance", b.toJson)]

def fromJson : Decoder LedgerEvent
  | .object ms =>
    match ms.lookup "type" with
    | none => .error (.missingField "type")
    | some t => do
      let kind ← kindFromJson t
      kind.record.ofMembers (ms.filter fun m => m.1 != "type")
  | .array [] => .error (.missingField "type")
  | .array (t :: items) => do
    let kind ← kindFromJson t
    kind.record.ofItems kind.title items
  | j => Decode.mismatch j title

end LedgerEvent

def OutboxRecord.toJson (r : OutboxRecord) : Json :=
  .ofMembers [
    ("id", .ofText r.id),
    ("sequence", .ofWord64 r.sequence),
    ("event_type", .string r.eventType),
    ("event_version", .ofWord32 r.eventVersion),
    ("recorded_at", .ofText r.recordedAt),
    ("payload", r.payload.toJson)]

def OutboxRecord.fromJson : Decoder OutboxRecord :=
  Record.decode "struct OutboxEvent" <|
    OutboxRecord.mk <$> .required "id" Uuid.fromJson
      <*> .required "sequence" Decode.word64
      <*> .required "event_type" Decode.string
      <*> .required "event_version" Decode.word32
      <*> .required "recorded_at" Timestamp.fromJson
      <*> .required "payload" LedgerEvent.fromJson

end DoubleEntry
