import DoubleEntry.Posting.Resolve
import DoubleEntry.Power

/-!
# Transactions and their entries

A transaction is a committed posting: a header with its entries, numbered from one, all of one
transaction, journal and time. `assemble` makes it from what a template resolved to, `reversal`
books every entry again on the opposite side. Both take the time and the fresh identifiers from a
`Stamp`.
-/

namespace DoubleEntry

/-! ## Records -/

/-- One leg of a transaction. -/
structure Entry where
  id : EntryId
  transactionId : TransactionId
  journalId : JournalId
  accountId : AccountId
  sequence : UInt32
  entryType : String
  currency : Currency
  direction : Side
  layer : Layer
  units : Units
  description : Option String
  createdAt : Timestamp
deriving DecidableEq

/-- What an entry weighs in the balance check. -/
def Entry.leg (e : Entry) : Leg := ⟨e.currency, e.layer, e.direction, e.units.amount⟩

/-- A position in the entries of an account: the time of an entry, then its identifier. -/
structure EntryCursor where
  createdAt : Timestamp
  id : EntryId
deriving DecidableEq

instance : Ord EntryCursor :=
  ⟨fun a b => (compare a.createdAt b.createdAt).then (compare a.id b.id)⟩

instance : Std.TransOrd EntryCursor :=
  inferInstanceAs <| Std.TransCmp (compareLex (compareOn EntryCursor.createdAt)
    (compareOn EntryCursor.id))

instance : Std.LawfulEqOrd EntryCursor where
  eq_of_compare {a b} h := by
    obtain ⟨hcreated, hid⟩ := Ordering.then_eq_eq.mp h
    cases a; cases b
    cases Std.LawfulEqOrd.eq_of_compare hcreated
    cases Std.LawfulEqOrd.eq_of_compare hid
    rfl

def Entry.cursor (e : Entry) : EntryCursor := ⟨e.createdAt, e.id⟩

/-- A committed posting. -/
structure Transaction where
  id : TransactionId
  templateId : TemplateId
  templateCode : String
  journalId : JournalId
  correlationId : String
  externalId : Option String
  effective : Date
  description : Option String
  metadata : Option Json
  /-- The transaction that this one voids. -/
  reverses : Option TransactionId
  createdAt : Timestamp
  entries : List Entry

/-- The amounts of a transaction have few enough fraction digits to be written. -/
def Transaction.isWritable (t : Transaction) : Bool := t.entries.all fun e => e.units.isWritable

/-- The time of a transaction and the identifiers made for it; entries count from zero. -/
structure Stamp where
  now : Timestamp
  transactionId : TransactionId
  entryId : Nat → EntryId

/-! ## Assembling -/

def entrySequence (index : Nat) : Except PostingError UInt32 :=
  if index + 1 < pow2 32 then .ok (UInt32.ofNat (index + 1))
  else .error (.invalidTemplate s!"entry index {index} exceeds the per-transaction limit")

/-- The entry made from the resolved entry at an index. -/
def assembleEntry (journalId : JournalId) (stamp : Stamp) (e : ResolvedEntry) (index : Nat) :
    Except PostingError Entry := do
  let sequence ← entrySequence index
  pure {
    id := stamp.entryId index
    transactionId := stamp.transactionId
    journalId := journalId
    accountId := e.accountId
    sequence := sequence
    entryType := e.entryType
    currency := e.currency
    direction := e.direction
    layer := e.layer
    units := e.units
    description := e.description
    createdAt := stamp.now }

namespace Transaction

/-- The transaction of a resolved header and its entries. -/
def assemble (template : TxTemplate) (header : ResolvedHeader) (entries : List ResolvedEntry)
    (stamp : Stamp) : Except PostingError Transaction := do
  let entries ← entries.zipIdx.mapM fun (e, i) => assembleEntry header.journalId stamp e i
  pure {
    id := stamp.transactionId
    templateId := template.id
    templateCode := template.code
    journalId := header.journalId
    correlationId := header.correlationId.getD (toString stamp.transactionId)
    externalId := header.externalId
    effective := header.effective
    description := header.description
    metadata := header.metadata
    reverses := none
    createdAt := stamp.now
    entries := entries }

/-! ## Reversing -/

/-- What the type of a counter entry ends in. -/
def voidSuffix : String := "_VOID"

/-- The entry that undoes the entry at an index. -/
def counterEntry (stamp : Stamp) (e : Entry) (index : Nat) : Entry :=
  { e with
    id := stamp.entryId index
    transactionId := stamp.transactionId
    entryType := e.entryType ++ voidSuffix
    direction := e.direction.opposite
    createdAt := stamp.now }

/-- The transaction that voids `t`. -/
def reversal (t : Transaction) (stamp : Stamp) : Transaction :=
  { t with
    id := stamp.transactionId
    externalId := none
    reverses := some t.id
    createdAt := stamp.now
    entries := t.entries.zipIdx.map fun (e, i) => counterEntry stamp e i }

end Transaction

end DoubleEntry
