import DoubleEntry.OrdMap
import DoubleEntry.PostingError

/-!
# Debits against credits

The legs of a posting have to balance by currency and layer. `sumLegs` adds them up in the order
given, each to its side of its `Bucket`; `checkBalanced` then compares the two sides as numbers,
bucket after bucket in ascending order, and reports the first that differs.
-/

namespace DoubleEntry

/-- An amount on one side of one currency and layer. -/
structure Leg where
  currency : Currency
  layer : Layer
  side : Side
  units : Decimal
deriving DecidableEq

/-- What legs are balanced within: a currency and a layer, ordered by currency first. -/
structure Bucket where
  currency : Currency
  layer : Layer
deriving DecidableEq

instance : Ord Bucket :=
  ⟨fun a b => (compare a.currency b.currency).then (compare a.layer b.layer)⟩

instance : Std.TransOrd Bucket :=
  inferInstanceAs <| Std.TransCmp (compareLex (compareOn Bucket.currency) (compareOn Bucket.layer))

instance : Std.LawfulEqOrd Bucket where
  eq_of_compare {a b} h := by
    obtain ⟨hcurrency, hlayer⟩ := Ordering.then_eq_eq.mp h
    cases a; cases b
    cases Std.LawfulEqOrd.eq_of_compare hcurrency
    cases Std.LawfulEqOrd.eq_of_compare hlayer
    rfl

def Leg.bucket (leg : Leg) : Bucket := ⟨leg.currency, leg.layer⟩

/-- The sums of the two sides of a bucket. -/
structure SideTotals where
  debits : Decimal
  credits : Decimal
deriving DecidableEq

namespace SideTotals

def zero : SideTotals := ⟨.zero, .zero⟩

/-- Add an amount to one side, if the sum fits. -/
def add (t : SideTotals) (side : Side) (units : Decimal) : Option SideTotals :=
  match side with
  | .debit => (t.debits.add units).map fun d => ⟨d, t.credits⟩
  | .credit => (t.credits.add units).map fun c => ⟨t.debits, c⟩

def balanced (t : SideTotals) : Bool := t.debits.same t.credits

end SideTotals

def addLeg (totals : OrdMap Bucket SideTotals) (leg : Leg) :
    Except PostingError (OrdMap Bucket SideTotals) :=
  match ((totals.get? leg.bucket).getD .zero).add leg.side leg.units with
  | some t => .ok (totals.put leg.bucket t)
  | none => .error (.invalidValue s!"{leg.currency}/{leg.layer} total overflows")

def sumLegs (legs : List Leg) : Except PostingError (OrdMap Bucket SideTotals) :=
  legs.foldlM addLeg ∅

/-- The failure of a bucket whose sides differ. -/
def unbalancedBucket (b : Bucket) (t : SideTotals) : PostingError :=
  .unbalanced b.currency b.layer t.debits t.credits

/-- The first bucket whose sides differ, as a failure. -/
def checkTotals : List (Bucket × SideTotals) → Except PostingError Unit
  | [] => .ok ()
  | (b, t) :: rest => if t.balanced then checkTotals rest else .error (unbalancedBucket b t)

/-- Debits equal credits in every currency and layer. -/
def checkBalanced (legs : List Leg) : Except PostingError Unit :=
  (sumLegs legs).bind fun totals => checkTotals totals.rows

end DoubleEntry
