import DoubleEntry.Json.Basic
import DoubleEntry.PostingError

/-!
# Template expressions

An expression is a literal or a reference to a bound parameter. `evaluate` resolves it for a slot
and refuses a value that the slot does not take.

In the canonical text, strings stand in single quotes; numbers and truth values as they are; the
other literals as a constructor with a quoted argument. A decimal without fraction digits is written
with its constructor, since its digits alone would denote a whole number.
-/

namespace DoubleEntry

/-- A literal, or a reference to a parameter. -/
inductive Expr where
  | literal (v : ParamValue)
  | param (name : String)

namespace Expr

def literal? : Expr → Option ParamValue
  | .literal v => some v
  | .param _ => none

/-- Equal references, or literals that denote the same. -/
def same : Expr → Expr → Bool
  | .literal a, .literal b => a.same b
  | .param a, .param b => a == b
  | _, _ => false

/-- The value of an expression under bound parameters. -/
def resolve (e : Expr) (params : Params) : Except PostingError ParamValue :=
  match e with
  | .literal v => .ok v
  | .param name =>
    match params.get? name with
    | some v => .ok v
    | none => .error (.unboundParameter name)

/-- The value of an expression in a slot of the expected type. -/
def evaluate (e : Expr) (slot : String) (expected : DataType) (params : Params) :
    Except PostingError ParamValue := do
  let v ← e.resolve params
  if v.dataType.assignableTo expected then pure (v.widenTo expected)
  else throw (.typeMismatch slot expected v.dataType)

/-! ## The canonical text -/

/-- What references start with. -/
def paramLead : String := "params."

def escapeChar (c : Char) : List Char :=
  if c = '\\' then ['\\', '\\']
  else if c = '\'' then ['\\', '\'']
  else if c = '\n' then ['\\', 'n']
  else if c = '\t' then ['\\', 't']
  else [c]

def quoteChars (cs : List Char) : List Char := '\'' :: (cs.flatMap escapeChar ++ ['\''])

def applyChars (word : String) (argument : List Char) : List Char :=
  word.toList ++ '(' :: (quoteChars argument ++ [')'])

def literalChars : ParamValue → List Char
  | .string s => quoteChars s.toList
  | .integer i => Text.intChars i.toInt
  | .decimal d => if d.scale = 0 then applyChars "decimal" d.chars else d.chars
  | .boolean true => "true".toList
  | .boolean false => "false".toList
  | .uuid u => applyChars "uuid" u.chars
  | .date d => applyChars "date" d.chars
  | .timestamp t => applyChars "timestamp" t.chars
  | .json j => applyChars "json" j.chars

def chars : Expr → List Char
  | .literal v => literalChars v
  | .param name => paramLead.toList ++ name.toList

instance : ToString Expr := ⟨fun e => String.ofList e.chars⟩

end Expr

end DoubleEntry
