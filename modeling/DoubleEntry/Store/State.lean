import DoubleEntry.Store.Call

/-!
# A store in memory

The tables of the ledger as one value, and the changes that write them. A `Change` writes one table
after the other in place: what it has written stays, also where it goes on to fail. So a change has
to make all its checks before its first write, and the outbox records that tell of it come last.
`StoreState.run` answers a call by making its change.
-/

namespace DoubleEntry

/-- Where an entry stands in the histories of all accounts. -/
structure HistoryKey where
  accountId : AccountId
  cursor : EntryCursor
deriving DecidableEq

instance : Ord HistoryKey :=
  ⟨fun a b => (compare a.accountId b.accountId).then (compare a.cursor b.cursor)⟩

instance : Std.TransOrd HistoryKey :=
  inferInstanceAs <| Std.TransCmp (compareLex (compareOn HistoryKey.accountId)
    (compareOn HistoryKey.cursor))

instance : Std.LawfulEqOrd HistoryKey where
  eq_of_compare {a b} h := by
    obtain ⟨haccount, hcursor⟩ := Ordering.then_eq_eq.mp h
    cases a; cases b
    cases Std.LawfulEqOrd.eq_of_compare haccount
    cases Std.LawfulEqOrd.eq_of_compare hcursor
    rfl

def Entry.historyKey (e : Entry) : HistoryKey := ⟨e.accountId, e.cursor⟩

/-- The tables of the ledger. -/
structure StoreState where
  journals : OrdMap JournalId Journal
  journalCodes : NameMap JournalId
  accounts : OrdMap AccountId Account
  accountCodes : NameMap AccountId
  templates : NameMap TxTemplate
  transactions : OrdMap TransactionId Transaction
  externalIds : NameMap TransactionId
  /-- The transaction that voids another, under the one voided. -/
  voided : OrdMap TransactionId TransactionId
  balances : OrdMap BalanceKey BalanceSnapshot
  accountEntries : OrdMap HistoryKey Entry
  /-- The record with number `n` at index `n - 1`. -/
  outbox : List OutboxRecord

namespace StoreState

def empty : StoreState := ⟨∅, ∅, ∅, ∅, ∅, ∅, ∅, ∅, ∅, ∅, []⟩

def lastSequence (s : StoreState) : UInt64 := UInt64.ofNat s.outbox.length

/-! ## Lookups -/

def accountByCode (s : StoreState) (code : String) : Option Account :=
  (s.accountCodes.get? code).bind fun id => s.accounts.get? id

def transactionByExternalId (s : StoreState) (x : String) : Option Transaction :=
  (s.externalIds.get? x).bind fun id => s.transactions.get? id

/-- A position comes after a cursor, if there is one. -/
def isAfter (c : EntryCursor) : Option EntryCursor → Bool
  | none => true
  | some after => compare after c == .lt

/-- The entries of an account after a cursor, by time and then identifier. -/
def entriesAfter (s : StoreState) (account : AccountId) (after : Option EntryCursor) :
    List Entry :=
  OrdMap.values (s.accountEntries.filter fun p =>
    p.1.accountId == account && isAfter p.1.cursor after)

/-- The rows of an account in a journal and currency, layer by layer. -/
def balanceRows (s : StoreState) (account : AccountId) (journal : JournalId)
    (currency : Currency) : List BalanceSnapshot :=
  Layer.all.filterMap fun layer => s.balances.get? ⟨account, journal, currency, layer⟩

def recordsFrom (s : StoreState) (after limit : UInt64) : List OutboxRecord :=
  (s.outbox.drop after.toNat).take limit.toNat

end StoreState

/-! ## Changes in place -/

/-- A change under way: what it has written stays written, however it ends. -/
abbrev Change := EStateM (Failure StoreError) StoreState

namespace Change

def refuse {α : Type} (e : StoreError) : Change α := throw (.error e)

/-- Refuse the change if the tables are in its way. -/
def refuseIf (stands : StoreState → Bool) (e : StoreError) : Change Unit := do
  if stands (← get) then refuse e

/-- Go on with a result, or end with its failure. -/
def ofResult {α : Type} : Except (Failure StoreError) α → Change α
  | .ok a => pure a
  | .error f => throw f

def read {α : Type} (f : StoreState → α) : Change α := do
  let s ← get
  pure (f s)

def putRecord (r : OutboxRecord) : Change Unit :=
  modify fun s => { s with outbox := s.outbox ++ [r] }

/-- Append the records of events one by one, numbered on from `last`; the answer is the number of
the last one. -/
def appendFrom (recordId : Nat → Uuid) (last : UInt64) : List LedgerEvent → Change UInt64
  | [] => pure last
  | e :: es => do
    let sequence ← ofResult (nextCount last)
    putRecord (.ofEvent (recordId 0) sequence e)
    appendFrom (fun i => recordId (i + 1)) sequence es

/-- Append the records of events to the outbox. -/
def append (m : Moment) (events : List LedgerEvent) : Change UInt64 := do
  appendFrom m.recordId (← get).lastSequence events

/-! ## Journals -/

def putJournal (j : Journal) : Change Unit :=
  modify fun s => { s with journals := s.journals.put j.id j }

/-- Take the code of a new journal, if it has one that is not taken. -/
def takeJournalCode (j : Journal) : Change Unit := do
  match j.code with
  | none => pure ()
  | some code =>
    refuseIf (fun s => s.journalCodes.contains code) (.duplicateCode s!"journal code '{code}'")
    modify fun s => { s with journalCodes := s.journalCodes.put code j.id }

def createJournal (m : Moment) (j : Journal) : Change UInt64 := do
  refuseIf (fun s => s.journals.contains j.id) (.duplicateCode s!"journal id {j.id}")
  takeJournalCode j
  putJournal j
  append m [.journalCreated j]

/-- Store a changed journal; `fields` names what changed. -/
def updateJournal (m : Moment) (j : Journal) (fields : List String) : Change UInt64 := do
  refuseIf (fun s => !s.journals.contains j.id) (.notFound s!"journal {j.id}")
  putJournal j
  append m [.journalUpdated j fields]

/-! ## Accounts -/

def putAccount (a : Account) : Change Unit :=
  modify fun s => { s with accounts := s.accounts.put a.id a }

def putAccountCode (a : Account) : Change Unit :=
  modify fun s => { s with accountCodes := s.accountCodes.put a.code a.id }

def createAccount (m : Moment) (a : Account) : Change UInt64 := do
  refuseIf (fun s => s.accountCodes.contains a.code) (.duplicateCode s!"account code '{a.code}'")
  refuseIf (fun s => s.accounts.contains a.id) (.duplicateCode s!"account id {a.id}")
  putAccountCode a
  putAccount a
  append m [.accountCreated a]

/-- Store a changed account; `fields` names what changed. -/
def updateAccount (m : Moment) (a : Account) (fields : List String) : Change UInt64 := do
  refuseIf (fun s => !s.accounts.contains a.id) (.notFound s!"account {a.id}")
  putAccount a
  append m [.accountUpdated a fields]

/-! ## Templates -/

def putTemplate (t : TxTemplate) : Change Unit :=
  modify fun s => { s with templates := s.templates.put t.code t }

def createTemplate (m : Moment) (t : TxTemplate) : Change UInt64 := do
  refuseIf (fun s => s.templates.contains t.code) (.duplicateCode s!"tx template code '{t.code}'")
  putTemplate t
  append m [.templateCreated t]

/-! ## Transactions -/

/-- The external identifier of a transaction is not taken. -/
def checkExternalId (t : Transaction) : Change Unit :=
  match t.externalId with
  | none => pure ()
  | some x => refuseIf (fun s => s.externalIds.contains x) (.duplicateExternalId x)

/-- The transaction voided by another is stored and not voided yet. -/
def checkReverses (t : Transaction) : Change Unit :=
  match t.reverses with
  | none => pure ()
  | some target => do
    refuseIf (fun s => !s.transactions.contains target) (.notFound s!"transaction {target}")
    refuseIf (fun s => s.voided.contains target) (.alreadyVoided target)

def transactionDeltas (t : Transaction) : Change (List BalanceDelta) :=
  ofResult (Failure.lift (fun e => .invariant s!"balance delta: {e.message}") (deltas t.entries))

/-- The row of a key after a delta; nothing is written. -/
def nextBalance (now : Timestamp) (id : TransactionId) (d : BalanceDelta) :
    Change BalanceSnapshot := do
  let row := applyDelta ((← get).balances.get? d.key) d id now
  ofResult (row.mapError fun f => f.map fun e =>
    .invariant s!"balance {d.key.accountId}: {e.message}")

def putExternalId (t : Transaction) : Change Unit :=
  match t.externalId with
  | none => pure ()
  | some x => modify fun s => { s with externalIds := s.externalIds.put x t.id }

def putVoided (t : Transaction) : Change Unit :=
  match t.reverses with
  | none => pure ()
  | some target => modify fun s => { s with voided := s.voided.put target t.id }

def putBalance (b : BalanceSnapshot) : Change Unit :=
  modify fun s => { s with balances := s.balances.put b.key b }

/-- Store an entry in the history of its account. -/
def putEntry (e : Entry) : Change Unit :=
  modify fun s => { s with accountEntries := s.accountEntries.put e.historyKey e }

def putTransaction (t : Transaction) : Change Unit :=
  modify fun s => { s with transactions := s.transactions.put t.id t }

/-- Store a transaction with the rows it changes. -/
def commit (m : Moment) (t : Transaction) : Change CommittedPosting := do
  let ds ← transactionDeltas t
  checkExternalId t
  checkReverses t
  let rows ← ds.mapM (nextBalance m.now t.id)
  putExternalId t
  putVoided t
  rows.forM putBalance
  t.entries.forM putEntry
  putTransaction t
  let last ← append m (postingEvents t rows)
  pure ⟨t, rows, last⟩

/-! ## Calls -/

/-- The change that a call makes, with its reply. -/
def ofCall (m : Moment) : (c : StoreCall) → Change c.Reply
  | .createJournal j => createJournal m j
  | .findJournal id => read fun s => s.journals.get? id
  | .updateJournal j fields => updateJournal m j fields
  | .createAccount a => createAccount m a
  | .findAccount id => read fun s => s.accounts.get? id
  | .findAccountByCode code => read fun s => s.accountByCode code
  | .findAccounts ids => read fun s => ids.filterMap fun id => s.accounts.get? id
  | .updateAccount a fields => updateAccount m a fields
  | .createTemplate t => createTemplate m t
  | .findTemplate code => read fun s => s.templates.get? code
  | .commitTransaction t => commit m t
  | .findTransaction id => read fun s => s.transactions.get? id
  | .findTransactionByExternalId x => read fun s => s.transactionByExternalId x
  | .listAccountEntries account after limit =>
    read fun s => (s.entriesAfter account after).take limit.toNat
  | .loadBalances account journal currency => read fun s => s.balanceRows account journal currency
  | .loadOutboxAfter after limit => read fun s => s.recordsFrom after limit

end Change

/-- Answer a call at a moment by making its change. A change that runs past a counter is given up
together with what it wrote; one that fails otherwise keeps what it wrote. -/
def StoreState.run (m : Moment) : Backend StoreState := fun c s =>
  match (Change.ofCall m c).run s with
  | .ok reply s' => (.ok reply, s')
  | .error .overflow _ => (.error .overflow, s)
  | .error f s' => (.error f, s')

end DoubleEntry
