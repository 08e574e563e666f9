import DoubleEntry.Journal
import DoubleEntry.Json.Basic
import DoubleEntry.Primitive

/-!
# Accounts

An account takes part in postings. Identifier, code and normal side are fixed when it is created;
name, description and metadata may change later.
-/

namespace DoubleEntry

/-- Free values under names. -/
abbrev Metadata := NameMap Json

/-- Equality up to the sign of zero doubles. -/
def Metadata.same (m n : Metadata) : Bool := Json.sameMembers m.rows n.rows

/-- A participant of the ledger. -/
structure Account where
  id : AccountId
  code : String
  name : String
  normalBalance : Side
  description : Option String
  metadata : Metadata
  createdAt : Timestamp
  modifiedAt : Timestamp

/-- An account as it is handed in. -/
structure NewAccount where
  id : AccountId
  code : String
  name : String
  normalBalance : Side
  description : Option String
  metadata : Metadata

/-- What to change of an account; metadata are replaced as a whole. -/
structure AccountUpdate where
  name : Option String
  description : Option String
  metadata : Option Metadata

/-- The metadata after an update, and the field's name if they differ. -/
def replaceMetadata (old : Metadata) (new : Option Metadata) : Metadata × List String :=
  match new with
  | none => (old, [])
  | some m => if m.same old then (old, []) else (m, ["metadata"])

namespace Account

def create (new : NewAccount) (now : Timestamp) : Except ValueError Account := do
  let code := Text.trim new.code
  if code.isEmpty then throw (.validation "account code cannot be empty")
  let name := Text.trim new.name
  if name.isEmpty then throw (.validation "account name cannot be empty")
  pure ⟨new.id, code, name, new.normalBalance, new.description, new.metadata, now, now⟩

/-- Change an account at a time; the names of the changed fields come with it. -/
def update (a : Account) (u : AccountUpdate) (now : Timestamp) :
    Except ValueError (Account × List String) := do
  let (name, nameChange) ← replaceName "account" a.name u.name
  let (description, descriptionChange) := replaceOptional "description" a.description u.description
  let (metadata, metadataChange) := replaceMetadata a.metadata u.metadata
  let fields := nameChange ++ descriptionChange ++ metadataChange
  let modifiedAt := if fields.isEmpty then a.modifiedAt else now
  pure ({ a with
    name := name
    description := description
    metadata := metadata
    modifiedAt := modifiedAt }, fields)

end Account

end DoubleEntry
