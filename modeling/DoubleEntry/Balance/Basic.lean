import DoubleEntry.Decimal.Difference
import DoubleEntry.Primitive
import DoubleEntry.Transaction

/-!
# Running balances

A balance row holds what was ever debited and credited under one `BalanceKey`: an account, a
journal, a currency and a layer. The totals only grow. A transaction changes them by one
`BalanceDelta` for every key its entries touch (`deltas`), and `applyDelta` adds a delta to a row
or to nothing.
-/

namespace DoubleEntry

/-! ## Rows -/

/-- What a balance row belongs to, ordered by account, journal, currency and layer. -/
structure BalanceKey where
  accountId : AccountId
  journalId : JournalId
  currency : Currency
  layer : Layer
deriving DecidableEq

instance : Ord BalanceKey :=
  ⟨fun a b =>
    (compare a.accountId b.accountId).then ((compare a.journalId b.journalId).then
      ((compare a.currency b.currency).then (compare a.layer b.layer)))⟩

instance : Std.TransOrd BalanceKey :=
  inferInstanceAs <| Std.TransCmp (compareLex (compareOn BalanceKey.accountId)
    (compareLex (compareOn BalanceKey.journalId)
      (compareLex (compareOn BalanceKey.currency) (compareOn BalanceKey.layer))))

instance : Std.LawfulEqOrd BalanceKey where
  eq_of_compare {a b} h := by
    obtain ⟨haccount, hrest⟩ := Ordering.then_eq_eq.mp h
    obtain ⟨hjournal, hrest⟩ := Ordering.then_eq_eq.mp hrest
    obtain ⟨hcurrency, hlayer⟩ := Ordering.then_eq_eq.mp hrest
    cases a; cases b
    cases Std.LawfulEqOrd.eq_of_compare haccount
    cases Std.LawfulEqOrd.eq_of_compare hjournal
    cases Std.LawfulEqOrd.eq_of_compare hcurrency
    cases Std.LawfulEqOrd.eq_of_compare hlayer
    rfl

/-- A balance row. -/
structure BalanceSnapshot where
  accountId : AccountId
  journalId : JournalId
  currency : Currency
  layer : Layer
  debitTotal : Units
  creditTotal : Units
  /-- The number of transactions that touched the row. -/
  version : UInt64
  lastTransactionId : TransactionId
  createdAt : Timestamp
  modifiedAt : Timestamp
deriving DecidableEq

def BalanceSnapshot.key (b : BalanceSnapshot) : BalanceKey :=
  ⟨b.accountId, b.journalId, b.currency, b.layer⟩

/-! ## The signed balance -/

/-- Debits less credits for the debit side, credits less debits for the credit side. -/
def signedNormalBalance (side : Side) (debits credits : Units) : Decimal :=
  match side with
  | .debit => debits.amount.minus credits.amount debits.nonneg credits.nonneg
  | .credit => credits.amount.minus debits.amount credits.nonneg debits.nonneg

def BalanceSnapshot.normalBalance (b : BalanceSnapshot) (side : Side) : Decimal :=
  signedNormalBalance side b.debitTotal b.creditTotal

/-- The totals of a row have few enough fraction digits to be written. -/
def BalanceSnapshot.isWritable (b : BalanceSnapshot) : Bool :=
  b.debitTotal.isWritable && b.creditTotal.isWritable

/-! ## Deltas -/

/-- What one transaction adds under one key. -/
structure BalanceDelta where
  key : BalanceKey
  debit : Units
  credit : Units
deriving DecidableEq

def Entry.balanceKey (e : Entry) : BalanceKey :=
  ⟨e.accountId, e.journalId, e.currency, e.layer⟩

namespace BalanceDelta

/-- Nothing added under a key. -/
def zero (key : BalanceKey) : BalanceDelta := ⟨key, .zero, .zero⟩

def add (d : BalanceDelta) (side : Side) (units : Units) : Except ValueError BalanceDelta :=
  match side with
  | .debit => (d.debit.add units).map fun u => { d with debit := u }
  | .credit => (d.credit.add units).map fun u => { d with credit := u }

end BalanceDelta

def addEntry (deltas : OrdMap BalanceKey BalanceDelta) (e : Entry) :
    Except ValueError (OrdMap BalanceKey BalanceDelta) :=
  let key := e.balanceKey
  (((deltas.get? key).getD (.zero key)).add e.direction e.units).map fun d => deltas.put key d

/-- The deltas of entries, one for every key touched, in the order of the keys. -/
def deltas (entries : List Entry) : Except ValueError (List BalanceDelta) :=
  (entries.foldlM addEntry ∅).map OrdMap.values

/-! ## Applying a delta -/

/-- The row after a delta of a transaction, starting from nothing where there is no row yet; `add`
adds an amount to a total. -/
def applyDeltaBy (add : Units → Units → Except ValueError Units)
    (current : Option BalanceSnapshot) (delta : BalanceDelta) (transactionId : TransactionId)
    (now : Timestamp) : Except (Failure ValueError) BalanceSnapshot := do
  let debits := (current.map BalanceSnapshot.debitTotal).getD .zero
  let credits := (current.map BalanceSnapshot.creditTotal).getD .zero
  let debitTotal ← Failure.lift id (add debits delta.debit)
  let creditTotal ← Failure.lift id (add credits delta.credit)
  let version ← nextCount ((current.map BalanceSnapshot.version).getD 0)
  pure {
    accountId := delta.key.accountId
    journalId := delta.key.journalId
    currency := delta.key.currency
    layer := delta.key.layer
    debitTotal := debitTotal
    creditTotal := creditTotal
    version := version
    lastTransactionId := transactionId
    createdAt := (current.map BalanceSnapshot.createdAt).getD now
    modifiedAt := now }

/-- The row after a delta of a transaction. -/
def applyDelta (current : Option BalanceSnapshot) (delta : BalanceDelta)
    (transactionId : TransactionId) (now : Timestamp) :
    Except (Failure ValueError) BalanceSnapshot :=
  applyDeltaBy Units.add current delta transactionId now

end DoubleEntry
