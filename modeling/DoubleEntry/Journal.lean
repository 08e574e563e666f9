import DoubleEntry.Calendar.Timestamp
import DoubleEntry.Primitive
import DoubleEntry.Text.Basic

/-!
# Journals

A journal is a named partition of the ledger that transactions post into. Its name and description
may change later (`update`), which reports the names of the fields that did.
-/

namespace DoubleEntry

/-! ## Changed fields -/

/-- A stored value and what it is to become: the new value, and the field's name if the two
differ. -/
def replaceText (field old new : String) : String × List String :=
  if new = old then (old, []) else (new, [field])

/-- `replaceText` for a text that may be absent before; without a new text nothing changes. -/
def replaceOptional (field : String) (old new : Option String) : Option String × List String :=
  match new with
  | none => (old, [])
  | some text => if old = some text then (old, []) else (some text, [field])

/-- The name a new one is replaced by, with blanks around it removed. -/
def replaceName (noun old : String) (new : Option String) :
    Except ValueError (String × List String) :=
  match new with
  | none => .ok (old, [])
  | some text =>
    if (Text.trim text).isEmpty then .error (.validation s!"{noun} name cannot be empty")
    else .ok (replaceText "name" old (Text.trim text))

/-! ## Journals -/

/-- A named partition of the ledger. -/
structure Journal where
  id : JournalId
  name : String
  /-- Unique where there is one. -/
  code : Option String
  description : Option String
  createdAt : Timestamp
  modifiedAt : Timestamp
deriving DecidableEq

/-- A journal as it is handed in. -/
structure NewJournal where
  id : JournalId
  name : String
  code : Option String
  description : Option String
deriving DecidableEq

/-- What to change of a journal. -/
structure JournalUpdate where
  name : Option String
  description : Option String
deriving DecidableEq

/-- The code of a new journal, with blanks around it removed. -/
def journalCode (code : Option String) : Except ValueError (Option String) :=
  match code with
  | none => .ok none
  | some text =>
    if (Text.trim text).isEmpty then .error (.validation "journal code cannot be blank")
    else .ok (some (Text.trim text))

namespace Journal

def create (new : NewJournal) (now : Timestamp) : Except ValueError Journal := do
  let name := Text.trim new.name
  if name.isEmpty then throw (.validation "journal name cannot be empty")
  let code ← journalCode new.code
  pure ⟨new.id, name, code, new.description, now, now⟩

/-- Change a journal at a time; the names of the changed fields come with it. -/
def update (j : Journal) (u : JournalUpdate) (now : Timestamp) :
    Except ValueError (Journal × List String) := do
  let (name, nameChange) ← replaceName "journal" j.name u.name
  let (description, descriptionChange) := replaceOptional "description" j.description u.description
  let fields := nameChange ++ descriptionChange
  let modifiedAt := if fields.isEmpty then j.modifiedAt else now
  pure ({ j with name := name, description := description, modifiedAt := modifiedAt }, fields)

end Journal

end DoubleEntry
