import DoubleEntry.Calendar.Timestamp
import DoubleEntry.Expr.Basic
import DoubleEntry.Param.Definition

/-!
# Transaction templates

A template is the blueprint of a posting: declared parameters, the fields of a header and a list of
entries. Header and entries have the same shape whether their fields are source texts, as handed
in, or parsed expressions, as kept.

Every field of a template that holds an expression is a slot: it has a name for errors, a data type
that its expression has to come out with, and the reading of a value of that type.
-/

namespace DoubleEntry

/-! ## Templates -/

/-- The fields of a header: source texts or expressions. -/
structure HeaderFields (ε : Type) where
  journalId : ε
  effective : ε
  correlationId : Option ε
  externalId : Option ε
  description : Option ε
  metadata : Option ε

/-- The fields of an entry: source texts or expressions. -/
structure EntryFields (ε : Type) where
  entryType : String
  accountId : ε
  currency : ε
  direction : Side
  layer : Layer
  units : ε
  description : Option ε

abbrev HeaderTemplate := HeaderFields Expr

abbrev EntryTemplate := EntryFields Expr

/-- A template that can post. -/
structure TxTemplate where
  id : TemplateId
  code : String
  description : Option String
  params : List ParamDefinition
  transaction : HeaderTemplate
  entries : List EntryTemplate
  metadata : Option Json
  createdAt : Timestamp

/-- A template as it is handed in. -/
structure NewTxTemplate where
  id : TemplateId
  code : String
  description : Option String
  params : List NewParamDefinition
  transaction : HeaderFields String
  entries : List (EntryFields String)
  metadata : Option Json

/-! ## Slots -/

/-- A field that takes values read as `α`. -/
structure Slot (α : Type) where
  name : String
  expected : DataType
  value? : ParamValue → Option α

namespace Slot

/-! ## Slots by data type -/

def uuid (name : String) : Slot Uuid where
  name := name
  expected := .uuid
  value?
    | .uuid u => some u
    | _ => none

def date (name : String) : Slot Date where
  name := name
  expected := .date
  value?
    | .date d => some d
    | _ => none

def string (name : String) : Slot String where
  name := name
  expected := .string
  value?
    | .string s => some s
    | _ => none

def decimal (name : String) : Slot Decimal where
  name := name
  expected := .decimal
  value?
    | .decimal d => some d
    | _ => none

def json (name : String) : Slot Json where
  name := name
  expected := .json
  value?
    | .json j => some j
    | _ => none

/-! ## The slots of a header -/

def journalId : Slot Uuid := uuid "transaction.journal_id"

def effective : Slot Date := date "transaction.effective"

def correlationId : Slot String := string "transaction.correlation_id"

/-- The caller's own identifier, unique among transactions. -/
def externalId : Slot String := string "transaction.external_id"

def description : Slot String := string "transaction.description"

def metadata : Slot Json := json "transaction.metadata"

/-! ## The slots of an entry -/

/-- The name of a field of the entry at an index. -/
def entryField (index : Nat) (field : String) : String := s!"entries[{index}].{field}"

def entryAccount (index : Nat) : Slot Uuid := uuid (entryField index "account_id")

def entryCurrency (index : Nat) : Slot String := string (entryField index "currency")

def entryUnits (index : Nat) : Slot Decimal := decimal (entryField index "units")

def entryDescription (index : Nat) : Slot String := string (entryField index "description")

end Slot

/-! ## Evaluation in a slot -/

def Expr.valueIn {α : Type} (e : Expr) (slot : Slot α) (params : Params) :
    Except PostingError α := do
  let v ← e.evaluate slot.name slot.expected params
  match slot.value? v with
  | some a => pure a
  | none => throw (.typeMismatch slot.name slot.expected v.dataType)

def optionalValueIn {α : Type} (e : Option Expr) (slot : Slot α) (params : Params) :
    Except PostingError (Option α) :=
  e.mapM fun e => e.valueIn slot params

end DoubleEntry
