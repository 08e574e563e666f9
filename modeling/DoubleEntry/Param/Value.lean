import DoubleEntry.Calendar.Reader
import DoubleEntry.Decimal.Text
import DoubleEntry.Primitive
import DoubleEntry.Json.Basic
import DoubleEntry.OrdMap

/-!
# Typed parameter values

A template declares parameters of eight data types and a caller supplies values for them. A value
fills a slot of its own type, and a whole number also a decimal slot (`assignableTo`). A supplied
value is converted to the declared type by `coerceTo`, which also parses texts.
-/

namespace DoubleEntry

/-! ## Data types -/

/-- The type of a parameter or of a slot in a template. -/
inductive DataType where
  | string
  | integer
  | decimal
  | boolean
  | uuid
  | date
  | timestamp
  | json
deriving DecidableEq, Repr

namespace DataType

def word : DataType → String
  | .string => "STRING"
  | .integer => "INTEGER"
  | .decimal => "DECIMAL"
  | .boolean => "BOOLEAN"
  | .uuid => "UUID"
  | .date => "DATE"
  | .timestamp => "TIMESTAMP"
  | .json => "JSON"

/-- All data types, in order. -/
def all : List DataType :=
  [.string, .integer, .decimal, .boolean, .uuid, .date, .timestamp, .json]

instance : ToString DataType := ⟨word⟩

/-- A value of type `t` can fill a slot of type `slot`. -/
def assignableTo (t slot : DataType) : Bool :=
  t == slot || (t == .integer && slot == .decimal)

end DataType

/-! ## Values -/

/-- A value with its data type. -/
inductive ParamValue where
  | string (s : String)
  | integer (i : Int64)
  | decimal (d : Decimal)
  | boolean (b : Bool)
  | uuid (u : Uuid)
  | date (d : Date)
  | timestamp (t : Timestamp)
  | json (j : Json)

/-- A 64-bit whole number is within the bound of a coefficient. -/
theorem Decimal.natAbs_toInt_lt (i : Int64) : i.toInt.natAbs < Decimal.bound := by
  have := i.toInt_lt
  have := i.le_toInt
  simp only [bound, pow2_96]
  omega

def Decimal.ofInt64 (i : Int64) : Decimal :=
  ofCoeff i.toInt 0 (natAbs_toInt_lt i) (Nat.zero_le _)

namespace ParamValue

def dataType : ParamValue → DataType
  | .string _ => .string
  | .integer _ => .integer
  | .decimal _ => .decimal
  | .boolean _ => .boolean
  | .uuid _ => .uuid
  | .date _ => .date
  | .timestamp _ => .timestamp
  | .json _ => .json

/-- The two values are of one type and denote the same: decimals compare as numbers. -/
def same : ParamValue → ParamValue → Bool
  | .string a, .string b => a == b
  | .integer a, .integer b => a == b
  | .decimal a, .decimal b => a.same b
  | .boolean a, .boolean b => a == b
  | .uuid a, .uuid b => a == b
  | .date a, .date b => a == b
  | .timestamp a, .timestamp b => a == b
  | .json a, .json b => a.same b
  | _, _ => false

/-- Parse a text, blanks around it apart, into a value of a scalar type. -/
def parse? (text : String) (t : DataType) : Option ParamValue :=
  let cs := Text.trimChars text.toList
  match t with
  | .uuid => (Uuid.read cs).toOption.map .uuid
  | .decimal => (Decimal.readExact cs).toOption.map .decimal
  | .integer => (Text.readInt64 cs).toOption.map fun i => .integer (Int64.ofInt i)
  | .date => (Date.read cs).toOption.map .date
  | .timestamp => (Timestamp.readStrict cs).toOption.map .timestamp
  | .string | .boolean | .json => none

/-- Convert a supplied value to a declared type: values of that type stay, whole numbers widen to
decimals, and texts are parsed. -/
def coerceTo (v : ParamValue) (t : DataType) : Option ParamValue :=
  if v.dataType = t then some v
  else
    match v, t with
    | .integer i, .decimal => some (.decimal (Decimal.ofInt64 i))
    | .string s, t => parse? s t
    | _, _ => none

/-- A value for a slot it can fill: a whole number in a decimal slot widens. -/
def widenTo (v : ParamValue) (slot : DataType) : ParamValue :=
  match v, slot with
  | .integer i, .decimal => .decimal (Decimal.ofInt64 i)
  | v, _ => v

def ofId {k : IdKind} (i : Id k) : ParamValue := .uuid i.uuid

end ParamValue

abbrev Params := NameMap ParamValue

end DoubleEntry
