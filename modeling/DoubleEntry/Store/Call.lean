import DoubleEntry.Event

/-!
# Calls to a store

A store keeps the records of the ledger. It is spoken to in single calls, each of which is atomic:
a `StoreCall` together with the type of its `Reply`. Whoever runs a call supplies the `Moment`, that
is the time and the identifiers of the outbox records the call may write.

What the ledger does is a program that makes store calls one after the other and goes on with
their replies. A `Prog` spells out each call, so the calls of several programs can be interleaved
in any order; `Prog.run` runs one alone on a backend. A call that uses up a counter ends the
program.
-/

namespace DoubleEntry

/-- Why a store call fails. -/
inductive StoreError where
  | notFound (what : String)
  | duplicateCode (what : String)
  | duplicateExternalId (what : String)
  | alreadyVoided (id : TransactionId)
  /-- A race was lost, and nothing was written. -/
  | concurrency (what : String)
  /-- The change would break an invariant of the ledger, now as later. -/
  | invariant (what : String)
  | unavailable (what : String)
  /-- What is stored cannot be read. -/
  | corrupt (what : String)
deriving DecidableEq

def StoreError.message : StoreError → String
  | .notFound w => s!"not found: {w}"
  | .duplicateCode w => s!"duplicate code: {w}"
  | .duplicateExternalId w => s!"duplicate external id: {w}"
  | .alreadyVoided i => s!"transaction {i} is already voided"
  | .concurrency w => s!"concurrency conflict: {w}"
  | .invariant w => s!"ledger invariant violated: {w}"
  | .unavailable w => s!"storage unavailable: {w}"
  | .corrupt w => s!"corrupt row: {w}"

def StoreError.kind : StoreError → String
  | .notFound _ => "NotFound"
  | .duplicateCode _ => "DuplicateCode"
  | .duplicateExternalId _ => "DuplicateExternalId"
  | .alreadyVoided _ => "AlreadyVoided"
  | .concurrency _ => "Concurrency"
  | .invariant _ => "Invariant"
  | .unavailable _ => "Unavailable"
  | .corrupt _ => "Corrupt"

/-- What a committed posting changed. -/
structure CommittedPosting where
  transaction : Transaction
  /-- The rows touched, in the order of their keys. -/
  balances : List BalanceSnapshot
  /-- The number of the last outbox record written. -/
  lastSequence : UInt64

/-- A call to a store. -/
inductive StoreCall where
  | createJournal (journal : Journal)
  | findJournal (id : JournalId)
  | updateJournal (journal : Journal) (fields : List String)
  | createAccount (account : Account)
  | findAccount (id : AccountId)
  | findAccountByCode (code : String)
  | findAccounts (ids : List AccountId)
  | updateAccount (account : Account) (fields : List String)
  | createTemplate (template : TxTemplate)
  | findTemplate (code : String)
  | commitTransaction (transaction : Transaction)
  | findTransaction (id : TransactionId)
  | findTransactionByExternalId (externalId : String)
  | listAccountEntries (account : AccountId) (after : Option EntryCursor) (limit : UInt64)
  | loadBalances (account : AccountId) (journal : JournalId) (currency : Currency)
  | loadOutboxAfter (after : UInt64) (limit : UInt64)

/-- What a call is answered with: the number of the last outbox record for a change, rows for a
lookup. -/
def StoreCall.Reply : StoreCall → Type
  | .createJournal _ => UInt64
  | .findJournal _ => Option Journal
  | .updateJournal _ _ => UInt64
  | .createAccount _ => UInt64
  | .findAccount _ => Option Account
  | .findAccountByCode _ => Option Account
  | .findAccounts _ => List Account
  | .updateAccount _ _ => UInt64
  | .createTemplate _ => UInt64
  | .findTemplate _ => Option TxTemplate
  | .commitTransaction _ => CommittedPosting
  | .findTransaction _ => Option Transaction
  | .findTransactionByExternalId _ => Option Transaction
  | .listAccountEntries _ _ _ => List Entry
  | .loadBalances _ _ _ => List BalanceSnapshot
  | .loadOutboxAfter _ _ => List OutboxRecord

/-- The time of a call, and the identifiers of the outbox records it writes. -/
structure Moment where
  now : Timestamp
  recordId : Nat → Uuid

abbrev StoreResult := Except (Failure StoreError)

/-- How a store with states `σ` answers calls. -/
abbrev Backend (σ : Type) := (c : StoreCall) → σ → StoreResult c.Reply × σ

/-! ## Programs -/

/-- A program that comes out with an `α` or fails with an `ε`. -/
inductive Prog (ε α : Type) where
  | done (result : Except (Failure ε) α)
  | call (c : StoreCall) (next : Except StoreError c.Reply → Prog ε α)

namespace Prog

variable {ε α β : Type}

/-- Go on with the value a program comes out with. -/
protected def bind : Prog ε α → (α → Prog ε β) → Prog ε β
  | .done (.ok a), f => f a
  | .done (.error e), _ => .done (.error e)
  | .call c next, f => .call c fun reply => (next reply).bind f

instance : Monad (Prog ε) where
  pure a := .done (.ok a)
  bind := Prog.bind

def fail (e : ε) : Prog ε α := .done (.error (.error e))

/-- Go on with a value, or fail with a converted error. -/
def ofExcept {δ : Type} (f : δ → ε) : Except δ α → Prog ε α
  | .ok a => .done (.ok a)
  | .error e => fail (f e)

/-- Make a call and go on with whatever it comes out with. -/
def attempt (c : StoreCall) : Prog ε (Except StoreError c.Reply) :=
  .call c fun reply => .done (.ok reply)

/-- Make a call and go on with its reply, or fail with a converted error. -/
def ask (f : StoreError → ε) (c : StoreCall) : Prog ε c.Reply :=
  .call c (ofExcept f)

def run {σ : Type} (backend : Backend σ) : Prog ε α → σ → Except (Failure ε) α × σ
  | .done result, s => (result, s)
  | .call c next, s =>
    match backend c s with
    | (.ok reply, s') => (next (.ok reply)).run backend s'
    | (.error (.error e), s') => (next (.error e)).run backend s'
    | (.error .overflow, s') => (.error .overflow, s')

end Prog

end DoubleEntry
