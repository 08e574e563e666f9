import DoubleEntry.Posting.Balanced
import DoubleEntry.Template.Basic

/-!
# Creating a template

`NewTxTemplate.create` parses every source text of a template and then checks all that can be
checked without parameter values (`TxTemplate.validate`):

* every expression has a type that its slot takes, and refers to declared parameters only;
* literal currencies are currency codes, and literal amounts are not negative;
* where currency and amount of every entry are literals, the entries balance.

So a template that exists is one that can post.
-/

namespace DoubleEntry

/-! ## Parsing -/

def HeaderFields.parse (h : HeaderFields String) : Except PostingError HeaderTemplate := do
  let journalId ← Expr.ofString h.journalId
  let effective ← Expr.ofString h.effective
  let correlationId ← h.correlationId.mapM Expr.ofString
  let externalId ← h.externalId.mapM Expr.ofString
  let description ← h.description.mapM Expr.ofString
  let metadata ← h.metadata.mapM Expr.ofString
  pure ⟨journalId, effective, correlationId, externalId, description, metadata⟩

def EntryFields.parse (e : EntryFields String) : Except PostingError EntryTemplate := do
  let entryType := Text.trim e.entryType
  if entryType.isEmpty then throw (.invalidTemplate "entry_type cannot be empty")
  let accountId ← Expr.ofString e.accountId
  let currency ← Expr.ofString e.currency
  let units ← Expr.ofString e.units
  let description ← e.description.mapM Expr.ofString
  pure ⟨entryType, accountId, currency, e.direction, e.layer, units, description⟩

/-- Check declarations one after the other; a name is declared once. -/
def defineParams (seen : List String) :
    List NewParamDefinition → Except PostingError (List ParamDefinition)
  | [] => pure []
  | p :: ps => do
    if seen.contains p.name then
      throw (.invalidTemplate s!"duplicate parameter '{p.name}'")
    let d ← p.define
    let ds ← defineParams (p.name :: seen) ps
    pure (d :: ds)

/-! ## Static checks -/

/-- The data type an expression comes out with, in a slot of the given name. -/
def Expr.staticType (e : Expr) (params : List ParamDefinition) (slotName : String) :
    Except PostingError DataType :=
  match e with
  | .literal v => .ok v.dataType
  | .param name =>
    match params.find? fun d => d.name == name with
    | some d => .ok d.dataType
    | none => .error (.invalidTemplate s!"{slotName} references undeclared parameter '{name}'")

/-- An expression fits its slot whatever values are bound. -/
def checkSlot {α : Type} (params : List ParamDefinition) (e : Expr) (slot : Slot α) :
    Except PostingError Unit := do
  let found ← e.staticType params slot.name
  if !found.assignableTo slot.expected then
    throw (.invalidTemplate
      s!"{slot.name} expects {slot.expected}, expression '{e}' is {found}")

def checkOptionalSlot {α : Type} (params : List ParamDefinition) (e : Option Expr)
    (slot : Slot α) : Except PostingError Unit :=
  match e with
  | some e => checkSlot params e slot
  | none => .ok ()

/-- Every expression of a header fits its slot. -/
def checkHeader (params : List ParamDefinition) (h : HeaderTemplate) :
    Except PostingError Unit := do
  checkSlot params h.journalId .journalId
  checkSlot params h.effective .effective
  checkOptionalSlot params h.correlationId .correlationId
  checkOptionalSlot params h.externalId .externalId
  checkOptionalSlot params h.description .description
  checkOptionalSlot params h.metadata .metadata

/-- Every expression of the entry at an index fits its slot. -/
def checkEntry (params : List ParamDefinition) (e : EntryTemplate) (index : Nat) :
    Except PostingError Unit := do
  checkSlot params e.accountId (.entryAccount index)
  checkSlot params e.currency (.entryCurrency index)
  checkSlot params e.units (.entryUnits index)
  checkOptionalSlot params e.description (.entryDescription index)

/-! ## Literal entries -/

/-- The currency of the entry at an index, if it is a literal. -/
def literalCurrency? (e : Expr) (index : Nat) : Except PostingError (Option Currency) :=
  match e.literal? with
  | some (.string s) =>
    match Currency.ofString s with
    | .ok c => .ok (some c)
    | .error err =>
      .error (.invalidTemplate s!"{(Slot.entryCurrency index).name}: {err.message}")
  | _ => .ok none

def literalAmount? (e : Expr) : Option Decimal :=
  match e.literal? with
  | some (.decimal d) => some d
  | some (.integer i) => some (Decimal.ofInt64 i)
  | _ => none

/-- The amount of the entry at an index, if it is a literal. -/
def literalUnits? (e : Expr) (index : Nat) : Except PostingError (Option Decimal) :=
  match literalAmount? e with
  | some d =>
    if d.isNegative then
      .error (.invalidTemplate s!"{(Slot.entryUnits index).name} is negative")
    else .ok (some d)
  | none => .ok none

/-- The leg that the entry at an index always posts, if currency and amount are literals. -/
def literalLeg? (e : EntryTemplate) (index : Nat) : Except PostingError (Option Leg) := do
  let currency ← literalCurrency? e.currency index
  let units ← literalUnits? e.units index
  match currency, units with
  | some c, some u => pure (some ⟨c, e.layer, e.direction, u⟩)
  | _, _ => pure none

/-- Literal currencies and amounts are usable, and entries that are all literal balance. -/
def checkLiterals (entries : List EntryTemplate) : Except PostingError Unit := do
  let legs ← entries.zipIdx.mapM fun (e, i) => literalLeg? e i
  match legs.mapM id with
  | none => pure ()
  | some legs =>
    match checkBalanced legs with
    | .ok () => pure ()
    | .error err => throw (.invalidTemplate s!"entries can never balance: {err.message}")

/-- All that can be checked without parameter values. -/
def TxTemplate.validate (t : TxTemplate) : Except PostingError Unit := do
  checkHeader t.params t.transaction
  t.entries.zipIdx.forM fun (e, i) => checkEntry t.params e i
  checkLiterals t.entries

/-! ## Creation -/

namespace NewTxTemplate

/-- Parse a template without checking it as a whole. -/
def parse (new : NewTxTemplate) (now : Timestamp) : Except PostingError TxTemplate := do
  let code := Text.trim new.code
  if code.isEmpty then throw (.invalidTemplate "template code cannot be empty")
  let params ← defineParams [] new.params
  let transaction ← new.transaction.parse
  if new.entries.isEmpty then
    throw (.invalidTemplate "template must declare at least one entry")
  let entries ← new.entries.mapM EntryFields.parse
  pure ⟨new.id, code, new.description, params, transaction, entries, new.metadata, now⟩

def create (new : NewTxTemplate) (now : Timestamp) : Except PostingError TxTemplate := do
  let t ← new.parse now
  t.validate
  pure t

end NewTxTemplate

end DoubleEntry
