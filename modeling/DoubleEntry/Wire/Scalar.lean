import DoubleEntry.Expr.Reader
import DoubleEntry.Json.Decode

/-!
# JSON forms of single values

Decimals, amounts, currencies, identifiers, dates and times are strings; enumerations are their
upper-case words; an expression is its canonical text; a parameter value is an object of its type
and the value.
-/

namespace DoubleEntry

/-! ## Texts -/

/-- Encode a value that has a written form. -/
def Json.ofText {α : Type} [ToString α] (a : α) : Json := .string (toString a)

/-- A value that may be missing; a missing one is null. -/
def Json.orNull (j : Option Json) : Json := j.getD .null

def Uuid.fromJson : Decoder Uuid :=
  Decode.parsed (fun s => Uuid.read s.toList) (fun e => s!"UUID parsing failed: {e.message}")
    "a formatted UUID string"

def Id.fromJson {k : IdKind} : Decoder (Id k) := fun j => (Uuid.fromJson j).map Id.mk

def Date.fromJson : Decoder Date :=
  Decode.parsed (fun s => Date.readSpaced s.toList) CalendarError.message "a formatted date string"

def Timestamp.fromJson : Decoder Timestamp :=
  Decode.parsed (fun s => Timestamp.readSpaced s.toList) CalendarError.message
    "an RFC 3339 formatted date and time string"

/-! ## Amounts -/

/-- What errors expect in the place of a decimal. -/
def Decimal.expectation : String := "a Decimal type representing a fixed-point number"

/-- A decimal read from a value of the right kind. -/
def Decimal.orInvalid (j : Json) : Option Decimal → Except DecodeError Decimal
  | some d => .ok d
  | none => .error (.invalidValue j.describe expectation)

/-- Decode a decimal: a text, or a number with its shortest digits. -/
def Decimal.fromJson : Decoder Decimal
  | .string s => orInvalid (.string s) (readLenient s.toList)
  | .number (.whole i) => orInvalid (.number (.whole i)) (ofInt? i)
  | .number (.real x) => orInvalid (.number (.real x)) (readRounded x.plainChars)
  | j => Decode.mismatch j expectation

/-- An error of a value that has the right form. -/
def Decode.orRefused {α : Type} : Except ValueError α → Except DecodeError α
  | .ok a => .ok a
  | .error e => .error (.custom e.message)

def Units.fromJson : Decoder Units := fun j => do
  Decode.orRefused (Units.ofDecimal (← Decimal.fromJson j))

def Currency.fromJson : Decoder Currency := fun j => do
  Decode.orRefused (Currency.ofString (← Decode.string j))

/-! ## Enumerations -/

def Side.fromJson : Decoder Side := Decode.variant Side.words

def Layer.fromJson : Decoder Layer := Decode.variant Layer.words

def DataType.words : List (String × DataType) := all.map fun t => (t.word, t)

def DataType.fromJson : Decoder DataType := Decode.variant DataType.words

/-! ## Parameters and expressions -/

namespace ParamValue

def contentToJson : ParamValue → Json
  | .string s => .string s
  | .integer i => .ofInt i.toInt
  | .decimal d => .ofText d
  | .boolean b => .bool b
  | .uuid u => .ofText u
  | .date d => .ofText d
  | .timestamp t => .ofText t
  | .json j => j

def toJson (v : ParamValue) : Json :=
  .ofMembers [("type", .ofText v.dataType), ("value", v.contentToJson)]

def contentFromJson (t : DataType) : Decoder ParamValue := fun j =>
  match t with
  | .string => (Decode.string j).map .string
  | .integer => (Decode.int64 j).map fun i => .integer (Int64.ofInt i)
  | .decimal => (Decimal.fromJson j).map .decimal
  | .boolean => (Decode.bool j).map .boolean
  | .uuid => (Uuid.fromJson j).map .uuid
  | .date => (Date.fromJson j).map .date
  | .timestamp => (Timestamp.fromJson j).map .timestamp
  | .json => .ok (.json j)

/-- How errors name a value with its type. -/
def title : String := "adjacently tagged enum ParamValue"

def fromJson : Decoder ParamValue
  | .object ms =>
    match ms.lookup "type" with
    | none => .error (.missingField "type")
    | some t => do
      let t ← DataType.fromJson t
      match ms.lookup "value" with
      | none => throw (.missingField "value")
      | some v => contentFromJson t v
  | .array [] => .error (.invalidLength 0 title)
  | .array [t] => do
    discard (DataType.fromJson t)
    throw (.invalidLength 1 title)
  | .array (t :: v :: rest) => do
    let t ← DataType.fromJson t
    let v ← contentFromJson t v
    if rest.isEmpty then pure v
    else throw (.invalidLength (rest.length + 2) "fewer elements in array")
  | j => Decode.mismatch j title

end ParamValue

def Params.toJson (p : Params) : Json := .object (p.rows.map fun (k, v) => (k, v.toJson))

def Params.fromJson : Decoder Params := Decode.members ParamValue.fromJson

def Expr.fromJson : Decoder Expr := fun j => do
  match Expr.ofString (← Decode.string j) with
  | .ok e => pure e
  | .error e => throw (.custom e.message)

end DoubleEntry
