import DoubleEntry.Posting.Balanced
import DoubleEntry.Template.Basic

/-!
# Resolving a template under parameters

Under bound parameters a template resolves to a header and to a list of entries that balance. Both
are pure: nothing is looked up and nothing is written.
-/

namespace DoubleEntry

/-- A header with the values of its fields. -/
structure ResolvedHeader where
  journalId : JournalId
  effective : Date
  correlationId : Option String
  externalId : Option String
  description : Option String
  metadata : Option Json

/-- An entry with the values of its fields. -/
structure ResolvedEntry where
  entryType : String
  accountId : AccountId
  currency : Currency
  direction : Side
  layer : Layer
  units : Units
  description : Option String

/-- What an entry weighs in the balance check. -/
def ResolvedEntry.leg (e : ResolvedEntry) : Leg :=
  ⟨e.currency, e.layer, e.direction, e.units.amount⟩

/-! ## Fields of an entry -/

/-- The currency of the entry at an index. -/
def resolveCurrency (e : Expr) (index : Nat) (params : Params) : Except PostingError Currency := do
  let slot := Slot.entryCurrency index
  let text ← e.valueIn slot params
  match Currency.ofString text with
  | .ok c => pure c
  | .error err => throw (.invalidValue s!"{slot.name}: {err.message}")

/-- The amount of the entry at an index. -/
def resolveUnits (e : Expr) (index : Nat) (params : Params) : Except PostingError Units := do
  let amount ← e.valueIn (.entryUnits index) params
  match Units.ofDecimal amount with
  | .ok u => pure u
  | .error _ => throw (.negativeUnits index amount)

def resolveEntry (e : EntryTemplate) (index : Nat) (params : Params) :
    Except PostingError ResolvedEntry := do
  let accountId ← e.accountId.valueIn (.entryAccount index) params
  let currency ← resolveCurrency e.currency index params
  let units ← resolveUnits e.units index params
  let description ← optionalValueIn e.description (.entryDescription index) params
  pure ⟨e.entryType, ⟨accountId⟩, currency, e.direction, e.layer, units, description⟩

/-! ## Header and entries -/

namespace TxTemplate

def bindParams (t : TxTemplate) (supplied : Params) : Except PostingError BoundParams :=
  bind t.params supplied

def resolveHeader (t : TxTemplate) (params : Params) : Except PostingError ResolvedHeader := do
  let h := t.transaction
  let journalId ← h.journalId.valueIn .journalId params
  let effective ← h.effective.valueIn .effective params
  let correlationId ← optionalValueIn h.correlationId .correlationId params
  let externalId ← optionalValueIn h.externalId .externalId params
  let description ← optionalValueIn h.description .description params
  let metadata ← optionalValueIn h.metadata .metadata params
  pure ⟨⟨journalId⟩, effective, correlationId, externalId, description, metadata⟩

/-- The entries under bound parameters, which balance. -/
def materializeEntries (t : TxTemplate) (params : Params) :
    Except PostingError (List ResolvedEntry) := do
  let entries ← t.entries.zipIdx.mapM fun (e, i) => resolveEntry e i params
  checkBalanced (entries.map ResolvedEntry.leg)
  pure entries

end TxTemplate

end DoubleEntry
