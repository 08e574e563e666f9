import DoubleEntry.Database.Script
import DoubleEntry.Database.Statements
import DoubleEntry.Wire.Error

/-!
# JSON forms of scripts and statements

A script says in JSON what a database answers with: `rows` of values by column, the number of rows
`affected`, an `error`, or `drop` for a connection that breaks; null is the plain answer. The name
of a column tells the type of its values. Instants are kept to the microsecond, and a JSON value as
its text.
-/

namespace DoubleEntry.Database

/-! ## Values -/

/-- The value that is read back from the text of a value: reading a double may miss it by its last
digit. -/
def throughText (j : Json) : Json :=
  match Json.read j.chars with
  | .ok k => k
  | .error _ => j

def SqlValue.numericFromJson : Decoder SqlValue := fun j => do
  let text ← Decode.string j
  if text = "NaN" then pure .notANumber
  else match Numeric.read? text.toList with
    | some n => pure (.numeric n)
    | none => throw (.invalidValue j.describe "a number")

/-- Decode the value of a column that is not null. -/
def SqlValue.columnFromJson (column : String) : Decoder SqlValue := fun j =>
  match column with
  | "id" | "account_id" | "journal_id" | "transaction_id" | "tx_template_id" | "reverses"
  | "last_transaction_id" => .uuid <$> Uuid.fromJson j
  | "sequence" | "version" | "last" | "event_version" => .int <$> Decode.int64 j
  | "created_at" | "modified_at" | "recorded_at" => .ofTimestamp <$> Timestamp.fromJson j
  | "effective" => .date <$> Date.fromJson j
  | "metadata" | "definition" | "payload" => pure (.json (throughText j))
  | "units" | "debit_total" | "credit_total" => numericFromJson j
  | _ => .text <$> Decode.string j

def SqlValue.fromJson (column : String) : Decoder SqlValue := fun j =>
  (Decode.optional (columnFromJson column) j).map fun v => v.getD .null

def SqlValue.toJson : SqlValue → Json
  | .null | .notANumber => .null
  | .uuid u => .ofText u
  | .uuids us => .ofList .ofText us
  | .text s => .string s
  | .json j => throughText j
  | .int i => .ofInt i
  | .date d => .ofText d
  | .timestamp t => .ofText t
  | .numeric n => .ofText n

/-- Encode a statement as its text and the bound values. -/
def Statement.toJson (s : Statement) : Json :=
  .array [.string s.text, .ofList SqlValue.toJson s.params]

/-! ## Answers -/

def SessionFault.fromJson : Decoder SessionFault := fun j => do
  let code ← Decode.member "code" Decode.string j
  let message ← Decode.member "message" Decode.string j
  let constraint ← Decode.member "constraint" (Decode.optional Decode.string) j
  pure (.reported code message (constraint.getD ""))

def Row.fromJson : Decoder Row := fun j => do
  let members ← Decode.members Decode.any j
  let columns ← members.rows.mapM fun (column, v) => do
    pure (column, ← SqlValue.fromJson column v)
  pure (.ofList columns)

/-- Decode the answer to a statement, given by one of its members. -/
def replyFromJson : Decoder (Except SessionFault Answer) := fun j => do
  let error ← Decode.member "error" (Decode.optional SessionFault.fromJson) j
  let drop ← Decode.member "drop" (Decode.optional Decode.bool) j
  let rows ← Decode.member "rows" (Decode.optional (Decode.list Row.fromJson)) j
  let affected ← Decode.member "affected" (Decode.optional Decode.word64) j
  match error, drop, rows with
  | some f, _, _ => pure (.error f)
  | none, some true, _ => pure (.error .broken)
  | none, _, some rows => pure (.ok ⟨rows, rows.length⟩)
  | none, _, none => pure (.ok ⟨[], (affected.map UInt64.toNat).getD 1⟩)

/-- Decode a script; every part of it may be missing. -/
def Script.fromJson : Decoder Script := fun j => do
  let fault (name : String) := Decode.member name (Decode.optional SessionFault.fromJson) j
  let answers ← Decode.member "db" (Decode.optional (Decode.list replyFromJson)) j
  pure ⟨answers.getD [], ← fault "begin_error", ← fault "commit_error", ← fault "migrate_error",
    ← fault "startup_error"⟩

end DoubleEntry.Database
