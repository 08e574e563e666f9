import DoubleEntry.Balance.Account
import DoubleEntry.Engine.Error
import DoubleEntry.Store.Call
import DoubleEntry.Template.Create

/-!
# The ledger

Every operation looks up what it refers to, runs the checks that follow from templates and
parameters alone, and hands finished records to the store, which commits them together with
balances and outbox records. So an operation that fails a check has written nothing.

**Posting once.** A posting whose external identifier is stored already answers with the stored
transaction. If another posting with the identifier commits first, the loser looks the winner up
and answers with it.
-/

namespace DoubleEntry.Ledger

abbrev Action := Prog EngineError

/-- Make a store call. -/
def ask (c : StoreCall) : Action c.Reply := Prog.ask .ofStore c

/-- What a lookup found. -/
def found {α : Type} (what : String) : Option α → Action α
  | some a => pure a
  | none => .fail (.notFound what)

/-! ## Journals -/

def createJournal (new : NewJournal) (now : Timestamp) : Action Journal := do
  let journal ← Prog.ofExcept .ofValue (Journal.create new now)
  let _ ← ask (.createJournal journal)
  pure journal

def findJournal (id : JournalId) : Action Journal := do
  found s!"journal {id}" (← ask (.findJournal id))

/-- Change a journal; where nothing changes, nothing is written. -/
def updateJournal (id : JournalId) (u : JournalUpdate) (now : Timestamp) : Action Journal := do
  let journal ← findJournal id
  let (journal, fields) ← Prog.ofExcept .ofValue (journal.update u now)
  if fields.isEmpty then pure journal
  else
    let _ ← ask (.updateJournal journal fields)
    pure journal

/-! ## Accounts -/

def createAccount (new : NewAccount) (now : Timestamp) : Action Account := do
  let account ← Prog.ofExcept .ofValue (Account.create new now)
  let _ ← ask (.createAccount account)
  pure account

def findAccount (id : AccountId) : Action Account := do
  found s!"account {id}" (← ask (.findAccount id))

def findAccountByCode (code : String) : Action Account := do
  found s!"account code '{code}'" (← ask (.findAccountByCode code))

/-- Change an account; where nothing changes, nothing is written. -/
def updateAccount (id : AccountId) (u : AccountUpdate) (now : Timestamp) : Action Account := do
  let account ← findAccount id
  let (account, fields) ← Prog.ofExcept .ofValue (account.update u now)
  if fields.isEmpty then pure account
  else
    let _ ← ask (.updateAccount account fields)
    pure account

/-! ## Templates -/

def createTemplate (new : NewTxTemplate) (now : Timestamp) : Action TxTemplate := do
  let template ← Prog.ofExcept .ofPosting (new.create now)
  let _ ← ask (.createTemplate template)
  pure template

def findTemplate (code : String) : Action TxTemplate := do
  found s!"transaction template '{code}'" (← ask (.findTemplate code))

/-! ## Posting -/

/-- Commit a transaction; where its external identifier is taken by now, the transaction that
holds it. -/
def commit (t : Transaction) : Action Transaction := do
  match ← Prog.attempt (.commitTransaction t) with
  | .ok committed => pure committed.transaction
  | .error (.duplicateExternalId what) =>
    match ← ask (.findTransactionByExternalId (t.externalId.getD "")) with
    | some winner => pure winner
    | none => .fail (.duplicateExternalId what)
  | .error e => .fail (.ofStore e)

/-- Identifiers in ascending order, each once. -/
def distinctIds (ids : List AccountId) : List AccountId :=
  (OrdMap.ofList (ids.map fun id => (id, ()))).keys

/-- Every account is stored; the first that is not is the failure. -/
def ensureAccounts (ids : List AccountId) : Action Unit := do
  let wanted := distinctIds ids
  let accounts ← ask (.findAccounts wanted)
  match wanted.find? fun id => !accounts.any fun a => a.id == id with
  | some missing => .fail (.notFound s!"account {missing}")
  | none => pure ()

/-- The stored transaction with the external identifier of a header. -/
def alreadyPosted (externalId : Option String) : Action (Option Transaction) :=
  match externalId with
  | none => pure none
  | some x => ask (.findTransactionByExternalId x)

/-- Post a transaction that is not stored yet, from a resolved header. -/
def postNew (template : TxTemplate) (header : ResolvedHeader) (params : Params) (stamp : Stamp) :
    Action Transaction := do
  let _ ← findJournal header.journalId
  let entries ← Prog.ofExcept .ofPosting (template.materializeEntries params)
  ensureAccounts (entries.map ResolvedEntry.accountId)
  let t ← Prog.ofExcept .ofPosting (Transaction.assemble template header entries stamp)
  commit t

def post (templateCode : String) (supplied : Params) (stamp : Stamp) : Action Transaction := do
  match ← ask (.findTemplate templateCode) with
  | none => .fail (.templateNotFound templateCode)
  | some template =>
    let bound ← Prog.ofExcept .ofPosting (template.bindParams supplied)
    let header ← Prog.ofExcept .ofPosting (template.resolveHeader bound.params)
    match ← alreadyPosted header.externalId with
    | some stored => pure stored
    | none => postNew template header bound.params stamp

def findTransaction (id : TransactionId) : Action Transaction := do
  found s!"transaction {id}" (← ask (.findTransaction id))

def findTransactionByExternalId (x : String) : Action Transaction := do
  found s!"transaction with external id '{x}'" (← ask (.findTransactionByExternalId x))

def void (id : TransactionId) (stamp : Stamp) : Action Transaction := do
  let target ← findTransaction id
  commit (target.reversal stamp)

/-! ## Balances and entries -/

/-- What an account holds in a journal and currency. -/
def accountBalance (accountId : AccountId) (journalId : JournalId) (currency : Currency) :
    Action AccountBalance := do
  let account ← findAccount accountId
  let rows ← ask (.loadBalances accountId journalId currency)
  pure (.ofSnapshots accountId journalId currency account.normalBalance rows)

/-- One page of the entries of an account. -/
structure EntryPage where
  entries : List Entry
  /-- Where the next page starts; nothing once a page was not full. -/
  next : Option EntryCursor

def EntryPage.ofEntries (entries : List Entry) (limit : UInt64) : EntryPage :=
  ⟨entries, if entries.length = limit.toNat then entries.getLast?.map Entry.cursor else none⟩

/-- The entries of an account after a position, oldest first. -/
def listAccountEntries (accountId : AccountId) (after : Option EntryCursor) (limit : UInt64) :
    Action EntryPage := do
  let _ ← findAccount accountId
  let entries ← ask (.listAccountEntries accountId after limit)
  pure (.ofEntries entries limit)

/-! ## Outbox -/

def outboxAfter (after limit : UInt64) : Action (List OutboxRecord) :=
  ask (.loadOutboxAfter after limit)

end DoubleEntry.Ledger
