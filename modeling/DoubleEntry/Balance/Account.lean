import DoubleEntry.Balance.Basic
import DoubleEntry.Power

/-!
# The balance of an account

What an account holds in one journal and currency, layer by layer; a layer without a row reads as
zero. `available` answers what counts up to a layer: the settled layer alone, or the pending one on
top of it.
-/

namespace DoubleEntry

/-- What one layer holds. -/
structure LayerBalance where
  debitTotal : Units
  creditTotal : Units
  normalBalance : Decimal
  /-- Zero while nothing was posted to the layer. -/
  version : UInt64
deriving DecidableEq

namespace LayerBalance

/-- Nothing posted. -/
def zero : LayerBalance := ⟨.zero, .zero, .zero, 0⟩

/-- What a row holds for an account of the given side. -/
def ofSnapshot (side : Side) (b : BalanceSnapshot) : LayerBalance :=
  ⟨b.debitTotal, b.creditTotal, b.normalBalance side, b.version⟩

/-- The sum of two versions, at most the last one. -/
def addVersions (a b : UInt64) : UInt64 := UInt64.ofNat (min (a.toNat + b.toNat) (pow2 64 - 1))

/-- Two layers together; the version counts the postings to both. -/
def rollup (a b : LayerBalance) (side : Side) : Except ValueError LayerBalance := do
  let debitTotal ← a.debitTotal.add b.debitTotal
  let creditTotal ← a.creditTotal.add b.creditTotal
  pure ⟨debitTotal, creditTotal, signedNormalBalance side debitTotal creditTotal,
    addVersions a.version b.version⟩

end LayerBalance

/-- What an account holds in a journal and currency. -/
structure AccountBalance where
  accountId : AccountId
  journalId : JournalId
  currency : Currency
  side : Side
  pending : LayerBalance
  settled : LayerBalance
deriving DecidableEq

namespace AccountBalance

def empty (accountId : AccountId) (journalId : JournalId) (currency : Currency) (side : Side) :
    AccountBalance :=
  ⟨accountId, journalId, currency, side, .zero, .zero⟩

/-- Take over the row of one layer; rows of other accounts, journals or currencies change
nothing. -/
def absorb (a : AccountBalance) (b : BalanceSnapshot) : AccountBalance :=
  if b.accountId = a.accountId ∧ b.journalId = a.journalId ∧ b.currency = a.currency then
    match b.layer with
    | .pending => { a with pending := .ofSnapshot a.side b }
    | .settled => { a with settled := .ofSnapshot a.side b }
  else a

def ofSnapshots (accountId : AccountId) (journalId : JournalId) (currency : Currency)
    (side : Side) (rows : List BalanceSnapshot) : AccountBalance :=
  rows.foldl absorb (empty accountId journalId currency side)

/-- What is available when amounts up to a layer count. -/
def available (a : AccountBalance) (layer : Layer) : Except ValueError LayerBalance :=
  match layer with
  | .settled => .ok a.settled
  | .pending => a.settled.rollup a.pending a.side

end AccountBalance

end DoubleEntry
