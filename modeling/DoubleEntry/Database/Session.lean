import DoubleEntry.Database.Numeric
import DoubleEntry.Store.Call

/-!
# Sessions with a relational database

What the database store does is a `Session`: commands sent one after the other, each going on with
whatever the database answers. `Session.inTransaction` wraps a session in a database transaction:
it is committed if it comes out with a value, and rolled back if anything fails after it began.
-/

namespace DoubleEntry.Database

/-! ## Values and statements -/

/-- A value bound to a parameter of a statement, or found in a column. -/
inductive SqlValue where
  | null
  | uuid (u : Uuid)
  | uuids (us : List Uuid)
  | text (s : String)
  | json (j : Json)
  | int (i : Int)
  | date (d : Date)
  | timestamp (t : Timestamp)
  | numeric (n : Numeric)
  /-- A numeric value that is no number. -/
  | notANumber

/-- A statement with the values of its parameters. -/
structure Statement where
  text : String
  params : List SqlValue

/-- A row: values by column. -/
abbrev Row := NameMap SqlValue

/-- What a statement is answered with. -/
structure Answer where
  rows : List Row
  /-- The number of rows changed. -/
  affected : Nat

/-- Why a command fails. -/
inductive SessionFault where
  /-- The database reports an error; the constraint is empty where none is named. -/
  | reported (code message constraint : String)
  /-- The connection broke. -/
  | broken
  /-- There are no connections any more. -/
  | poolClosed
  /-- No connection became free in time. -/
  | poolTimedOut
deriving DecidableEq

/-- What is sent to the database. -/
inductive Command where
  | connect
  | begin
  | commit
  | rollback
  | statement (s : Statement)
  /-- Several statements without parameters at once. -/
  | script (text : String)

/-! ## Faults as store errors -/

/-- The store error for an error the database reports. -/
def reportedError (code constraint text : String) : StoreError :=
  if code = "23505" then
    if constraint = "tally_transactions_external_id_key" then .duplicateExternalId text
    else if constraint.endsWith "_code_key" then .duplicateCode text
    else .concurrency text
  else if code = "23503" then .notFound text
  else if code = "40001" ∨ code = "40P01" then .concurrency text
  else .unavailable text

def SessionFault.toStoreError (operation : String) : SessionFault → StoreError
  | .reported code message constraint =>
    reportedError code constraint s!"database error in {operation}: {message}"
  | .broken =>
    .unavailable (s!"sqlx error in {operation}: error communicating with database: " ++
      "expected to read 5 bytes, got 0 bytes at EOF")
  | .poolClosed => .unavailable s!"connection pool closed in {operation}"
  | .poolTimedOut => .unavailable s!"connection pool timed out in {operation}"

/-! ## Sessions -/

/-- Commands sent one after the other, coming out with an `α`. -/
inductive Session (α : Type) where
  | done (result : StoreResult α)
  | send (c : Command) (next : Except SessionFault Answer → Session α)

namespace Session

variable {α β : Type}

/-- Go on with whatever a session comes out with. -/
def andThen : Session α → (StoreResult α → Session β) → Session β
  | .done result, f => f result
  | .send c next, f => .send c fun answer => (next answer).andThen f

/-- Go on with the value a session comes out with. -/
protected def bind (s : Session α) (f : α → Session β) : Session β :=
  s.andThen fun result =>
    match result with
    | .ok a => f a
    | .error e => .done (.error e)

instance : Monad Session where
  pure a := .done (.ok a)
  bind := Session.bind

def fail (e : StoreError) : Session α := .done (.error (.error e))

/-- Send a command; `onFault` is the error where it fails. -/
def command (c : Command) (onFault : SessionFault → StoreError) : Session Answer :=
  .send c fun answer => .done (Failure.lift onFault answer)

/-- Execute a statement as an operation of the given name. -/
def execute (operation : String) (s : Statement) : Session Answer :=
  command (.statement s) (SessionFault.toStoreError operation)

/-- Query the first row, if there is one. -/
def queryOptional (operation : String) (s : Statement) : Session (Option Row) := do
  pure (← execute operation s).rows.head?

/-- Query the first row, which has to be there. -/
def queryOne (operation : String) (s : Statement) : Session Row := do
  match ← queryOptional operation s with
  | some row => pure row
  | none => fail (.notFound s!"unexpected row not found in {operation}")

def queryAll (operation : String) (s : Statement) : Session (List Row) := do
  pure (← execute operation s).rows

/-- Roll back, whatever becomes of it, and fail. -/
def rollBack (f : Failure StoreError) : Session α :=
  .send .rollback fun _ => .done (.error f)

/-- Commit what a session did, or roll it back. -/
def close (result : StoreResult α) : Session α :=
  match result with
  | .error f => rollBack f
  | .ok a => .send .commit fun answer =>
    match answer with
    | .ok _ => .done (.ok a)
    | .error fault => rollBack (.error (fault.toStoreError "commit_transaction"))

def inTransaction (body : Session α) : Session α :=
  .send .begin fun answer =>
    match answer with
    | .ok _ => body.andThen close
    | .error fault => fail (fault.toStoreError "begin_transaction")

end Session

end DoubleEntry.Database
