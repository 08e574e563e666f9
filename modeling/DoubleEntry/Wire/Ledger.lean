import DoubleEntry.Event
import DoubleEntry.Balance.Account
import DoubleEntry.Wire.Template

/-!
# JSON forms of the records of the ledger

Journals, accounts, transactions and balances, and what is handed in or derived for them. The
members of an object carry the names given here; a missing member and null are the same where a
value is optional.
-/

namespace DoubleEntry

/-! ## Journals -/

def Journal.toJson (j : Journal) : Json :=
  .ofMembers [
    ("id", .ofText j.id),
    ("name", .string j.name),
    ("code", .ofOption .string j.code),
    ("description", .ofOption .string j.description),
    ("created_at", .ofText j.createdAt),
    ("modified_at", .ofText j.modifiedAt)]

def Journal.fromJson : Decoder Journal :=
  Record.decode "struct Journal" <|
    Journal.mk <$> .required "id" Id.fromJson
      <*> .required "name" Decode.string
      <*> .optional "code" Decode.string
      <*> .optional "description" Decode.string
      <*> .required "created_at" Timestamp.fromJson
      <*> .required "modified_at" Timestamp.fromJson

def NewJournal.toJson (j : NewJournal) : Json :=
  .ofMembers [
    ("id", .ofText j.id),
    ("name", .string j.name),
    ("code", .ofOption .string j.code),
    ("description", .ofOption .string j.description)]

def NewJournal.fromJson : Decoder NewJournal :=
  Record.decode "struct NewJournal" <|
    NewJournal.mk <$> .required "id" Id.fromJson
      <*> .required "name" Decode.string
      <*> .optional "code" Decode.string
      <*> .optional "description" Decode.string

def JournalUpdate.toJson (u : JournalUpdate) : Json :=
  .ofMembers [
    ("name", .ofOption .string u.name),
    ("description", .ofOption .string u.description)]

def JournalUpdate.fromJson : Decoder JournalUpdate :=
  Record.decode "struct JournalUpdate" <|
    JournalUpdate.mk <$> .optional "name" Decode.string
      <*> .optional "description" Decode.string

/-! ## Accounts -/

def Metadata.toJson (m : Metadata) : Json := .object m.rows

def Metadata.fromJson : Decoder Metadata := Decode.members Decode.any

def Account.toJson (a : Account) : Json :=
  .ofMembers [
    ("id", .ofText a.id),
    ("code", .string a.code),
    ("name", .string a.name),
    ("normal_balance", .ofText a.normalBalance),
    ("description", .ofOption .string a.description),
    ("metadata", Metadata.toJson a.metadata),
    ("created_at", .ofText a.createdAt),
    ("modified_at", .ofText a.modifiedAt)]

def Account.fromJson : Decoder Account :=
  Record.decode "struct Account" <|
    Account.mk <$> .required "id" Id.fromJson
      <*> .required "code" Decode.string
      <*> .required "name" Decode.string
      <*> .required "normal_balance" Side.fromJson
      <*> .optional "description" Decode.string
      <*> .required "metadata" Metadata.fromJson
      <*> .required "created_at" Timestamp.fromJson
      <*> .required "modified_at" Timestamp.fromJson

def NewAccount.toJson (a : NewAccount) : Json :=
  .ofMembers [
    ("id", .ofText a.id),
    ("code", .string a.code),
    ("name", .string a.name),
    ("normal_balance", .ofText a.normalBalance),
    ("description", .ofOption .string a.description),
    ("metadata", Metadata.toJson a.metadata)]

def NewAccount.fromJson : Decoder NewAccount :=
  Record.decode "struct NewAccount" <|
    NewAccount.mk <$> .required "id" Id.fromJson
      <*> .required "code" Decode.string
      <*> .required "name" Decode.string
      <*> .required "normal_balance" Side.fromJson
      <*> .optional "description" Decode.string
      <*> .required "metadata" Metadata.fromJson

def AccountUpdate.toJson (u : AccountUpdate) : Json :=
  .ofMembers [
    ("name", .ofOption .string u.name),
    ("description", .ofOption .string u.description),
    ("metadata", .ofOption Metadata.toJson u.metadata)]

def AccountUpdate.fromJson : Decoder AccountUpdate :=
  Record.decode "struct AccountUpdate" <|
    AccountUpdate.mk <$> .optional "name" Decode.string
      <*> .optional "description" Decode.string
      <*> .optional "metadata" Metadata.fromJson

/-! ## Resolved postings -/

def ResolvedHeader.toJson (h : ResolvedHeader) : Json :=
  .ofMembers [
    ("journal_id", .ofText h.journalId),
    ("effective", .ofText h.effective),
    ("correlation_id", .ofOption .string h.correlationId),
    ("external_id", .ofOption .string h.externalId),
    ("description", .ofOption .string h.description),
    ("metadata", .orNull h.metadata)]

def ResolvedHeader.fromJson : Decoder ResolvedHeader :=
  Record.decode "struct ResolvedHeader" <|
    ResolvedHeader.mk <$> .required "journal_id" Id.fromJson
      <*> .required "effective" Date.fromJson
      <*> .optional "correlation_id" Decode.string
      <*> .optional "external_id" Decode.string
      <*> .optional "description" Decode.string
      <*> .optional "metadata" Decode.any

def ResolvedEntry.toJson (e : ResolvedEntry) : Json :=
  .ofMembers [
    ("entry_type", .string e.entryType),
    ("account_id", .ofText e.accountId),
    ("currency", .ofText e.currency),
    ("direction", .ofText e.direction),
    ("layer", .ofText e.layer),
    ("units", .ofText e.units),
    ("description", .ofOption .string e.description)]

def ResolvedEntry.fromJson : Decoder ResolvedEntry :=
  Record.decode "struct ResolvedEntry" <|
    ResolvedEntry.mk <$> .required "entry_type" Decode.string
      <*> .required "account_id" Id.fromJson
      <*> .required "currency" Currency.fromJson
      <*> .required "direction" Side.fromJson
      <*> .required "layer" Layer.fromJson
      <*> .required "units" Units.fromJson
      <*> .optional "description" Decode.string

/-! ## Transactions -/

def Json.ofWord32 (n : UInt32) : Json := .ofNat n.toNat

def Json.ofWord64 (n : UInt64) : Json := .ofNat n.toNat

def Entry.toJson (e : Entry) : Json :=
  .ofMembers [
    ("id", .ofText e.id),
    ("transaction_id", .ofText e.transactionId),
    ("journal_id", .ofText e.journalId),
    ("account_id", .ofText e.accountId),
    ("sequence", .ofWord32 e.sequence),
    ("entry_type", .string e.entryType),
    ("currency", .ofText e.currency),
    ("direction", .ofText e.direction),
    ("layer", .ofText e.layer),
    ("units", .ofText e.units),
    ("description", .ofOption .string e.description),
    ("created_at", .ofText e.createdAt)]

def Entry.fromJson : Decoder Entry :=
  Record.decode "struct Entry" <|
    Entry.mk <$> .required "id" Id.fromJson
      <*> .required "transaction_id" Id.fromJson
      <*> .required "journal_id" Id.fromJson
      <*> .required "account_id" Id.fromJson
      <*> .required "sequence" Decode.word32
      <*> .required "entry_type" Decode.string
      <*> .required "currency" Currency.fromJson
      <*> .required "direction" Side.fromJson
      <*> .required "layer" Layer.fromJson
      <*> .required "units" Units.fromJson
      <*> .optional "description" Decode.string
      <*> .required "created_at" Timestamp.fromJson

/-- Encode a position in the entries of an account. -/
def EntryCursor.toJson (c : EntryCursor) : Json :=
  .ofMembers [("created_at", .ofText c.createdAt), ("id", .ofText c.id)]

/-- Decode a position in the entries of an account. -/
def EntryCursor.fromJson : Decoder EntryCursor :=
  Record.decode "struct EntryCursor" <|
    EntryCursor.mk <$> .required "created_at" Timestamp.fromJson
      <*> .required "id" Id.fromJson

def Transaction.toJson (t : Transaction) : Json :=
  .ofMembers [
    ("id", .ofText t.id),
    ("tx_template_id", .ofText t.templateId),
    ("template_code", .string t.templateCode),
    ("journal_id", .ofText t.journalId),
    ("correlation_id", .string t.correlationId),
    ("external_id", .ofOption .string t.externalId),
    ("effective", .ofText t.effective),
    ("description", .ofOption .string t.description),
    ("metadata", .orNull t.metadata),
    ("reverses", .ofOption .ofText t.reverses),
    ("created_at", .ofText t.createdAt),
    ("entries", .ofList Entry.toJson t.entries)]

def Transaction.fromJson : Decoder Transaction :=
  Record.decode "struct Transaction" <|
    Transaction.mk <$> .required "id" Id.fromJson
      <*> .required "tx_template_id" Id.fromJson
      <*> .required "template_code" Decode.string
      <*> .required "journal_id" Id.fromJson
      <*> .required "correlation_id" Decode.string
      <*> .optional "external_id" Decode.string
      <*> .required "effective" Date.fromJson
      <*> .optional "description" Decode.string
      <*> .optional "metadata" Decode.any
      <*> .optional "reverses" Id.fromJson
      <*> .required "created_at" Timestamp.fromJson
      <*> .required "entries" (Decode.list Entry.fromJson)

/-! ## Balances -/

def BalanceKey.toJson (k : BalanceKey) : Json :=
  .ofMembers [
    ("account_id", .ofText k.accountId),
    ("journal_id", .ofText k.journalId),
    ("currency", .ofText k.currency),
    ("layer", .ofText k.layer)]

def BalanceKey.fromJson : Decoder BalanceKey :=
  Record.decode "struct BalanceKey" <|
    BalanceKey.mk <$> .required "account_id" Id.fromJson
      <*> .required "journal_id" Id.fromJson
      <*> .required "currency" Currency.fromJson
      <*> .required "layer" Layer.fromJson

def BalanceSnapshot.toJson (b : BalanceSnapshot) : Json :=
  .ofMembers [
    ("account_id", .ofText b.accountId),
    ("journal_id", .ofText b.journalId),
    ("currency", .ofText b.currency),
    ("layer", .ofText b.layer),
    ("debit_total", .ofText b.debitTotal),
    ("credit_total", .ofText b.creditTotal),
    ("version", .ofWord64 b.version),
    ("last_transaction_id", .ofText b.lastTransactionId),
    ("created_at", .ofText b.createdAt),
    ("modified_at", .ofText b.modifiedAt)]

def BalanceSnapshot.fromJson : Decoder BalanceSnapshot :=
  Record.decode "struct BalanceSnapshot" <|
    BalanceSnapshot.mk <$> .required "account_id" Id.fromJson
      <*> .required "journal_id" Id.fromJson
      <*> .required "currency" Currency.fromJson
      <*> .required "layer" Layer.fromJson
      <*> .required "debit_total" Units.fromJson
      <*> .required "credit_total" Units.fromJson
      <*> .required "version" Decode.word64
      <*> .required "last_transaction_id" Id.fromJson
      <*> .required "created_at" Timestamp.fromJson
      <*> .required "modified_at" Timestamp.fromJson

def BalanceDelta.toJson (d : BalanceDelta) : Json :=
  .ofMembers [("key", d.key.toJson), ("debit", .ofText d.debit), ("credit", .ofText d.credit)]

def BalanceDelta.fromJson : Decoder BalanceDelta :=
  Record.decode "struct BalanceDelta" <|
    BalanceDelta.mk <$> .required "key" BalanceKey.fromJson
      <*> .required "debit" Units.fromJson
      <*> .required "credit" Units.fromJson

def LayerBalance.toJson (b : LayerBalance) : Json :=
  .ofMembers [
    ("debit_total", .ofText b.debitTotal),
    ("credit_total", .ofText b.creditTotal),
    ("normal_balance", .ofText b.normalBalance),
    ("version", .ofWord64 b.version)]

def LayerBalance.fromJson : Decoder LayerBalance :=
  Record.decode "struct LayerBalance" <|
    LayerBalance.mk <$> .required "debit_total" Units.fromJson
      <*> .required "credit_total" Units.fromJson
      <*> .required "normal_balance" Decimal.fromJson
      <*> .required "version" Decode.word64

def AccountBalance.toJson (b : AccountBalance) : Json :=
  .ofMembers [
    ("account_id", .ofText b.accountId),
    ("journal_id", .ofText b.journalId),
    ("currency", .ofText b.currency),
    ("normal_balance_side", .ofText b.side),
    ("pending", b.pending.toJson),
    ("settled", b.settled.toJson)]

def AccountBalance.fromJson : Decoder AccountBalance :=
  Record.decode "struct AccountBalance" <|
    AccountBalance.mk <$> .required "account_id" Id.fromJson
      <*> .required "journal_id" Id.fromJson
      <*> .required "currency" Currency.fromJson
      <*> .required "normal_balance_side" Side.fromJson
      <*> .required "pending" LayerBalance.fromJson
      <*> .required "settled" LayerBalance.fromJson

end DoubleEntry
