import DoubleEntry.Store.Call
import DoubleEntry.Wire.Ledger

/-!
# JSON forms of errors

An error is an object with the name of its kind under `kind`, and what the kind carries: mostly a
`text`, else the members named here. Amounts in errors are texts read to the last digit.
-/

namespace DoubleEntry

/-- Decode a member of an object; a missing one counts as null. -/
def Decode.member {α : Type} (name : String) (d : Decoder α) : Decoder α := fun j =>
  d ((j.get? name).getD .null)

/-- Decode a decimal from its digits, to the last of them. -/
def Decimal.fromDigits : Decoder Decimal :=
  Decode.parsed (fun s => readExact s.toList) Decimal.ReadError.message expectation

def Decode.errorText : Decoder String := Decode.member "text" Decode.string

/-- An error of a kind that there is not. -/
def Decode.unknownKind {α : Type} (kind : String) : Except DecodeError α :=
  .error (.custom s!"unknown kind '{kind}'")

def ValueError.fromJson : Decoder ValueError := fun j => do
  let text := Decode.errorText j
  match ← Decode.member "kind" Decode.string j with
  | "InvalidCurrency" => .invalidCurrency <$> text
  | "InvalidUnits" => .invalidUnits <$> text
  | "UnitsOverflow" =>
    .unitsOverflow <$> Decode.member "total" Decimal.fromDigits j
      <*> Decode.member "added" Decimal.fromDigits j
  | "InvalidId" => .invalidId <$> text
  | "Validation" => .validation <$> text
  | kind => Decode.unknownKind kind

def PostingError.fromJson : Decoder PostingError := fun j => do
  let text := Decode.errorText j
  let expected := Decode.member "expected" DataType.fromJson j
  let found := Decode.member "found" DataType.fromJson j
  match ← Decode.member "kind" Decode.string j with
  | "InvalidTemplate" => .invalidTemplate <$> text
  | "MissingParameter" => .missingParameter <$> text
  | "InvalidParameterType" => .invalidParameterType <$> text <*> expected <*> found
  | "UnboundParameter" => .unboundParameter <$> text
  | "TypeMismatch" => .typeMismatch <$> text <*> expected <*> found
  | "UnbalancedTransaction" =>
    .unbalanced <$> Decode.member "currency" Currency.fromJson j
      <*> Decode.member "layer" Layer.fromJson j
      <*> Decode.member "debits" Decimal.fromDigits j
      <*> Decode.member "credits" Decimal.fromDigits j
  | "NegativeUnits" =>
    (fun n d => .negativeUnits n.toNat d) <$> Decode.member "entry" Decode.word64 j
      <*> Decode.member "units" Decimal.fromDigits j
  | "InvalidValue" => .invalidValue <$> text
  | "Domain" => .value <$> Decode.member "inner" ValueError.fromJson j
  | kind => Decode.unknownKind kind

def StoreError.fromJson : Decoder StoreError := fun j => do
  let text := Decode.errorText j
  match ← Decode.member "kind" Decode.string j with
  | "NotFound" => .notFound <$> text
  | "DuplicateCode" => .duplicateCode <$> text
  | "DuplicateExternalId" => .duplicateExternalId <$> text
  | "AlreadyVoided" => .alreadyVoided <$> Decode.member "id" Id.fromJson j
  | "Concurrency" => .concurrency <$> text
  | "Invariant" => .invariant <$> text
  | "Unavailable" => .unavailable <$> text
  | "Corrupt" => .corrupt <$> text
  | kind => Decode.unknownKind kind

end DoubleEntry
