import DoubleEntry.Expr.Basic
import DoubleEntry.Json.Reader

/-!
# Reading expressions

After trimming, a text that starts with `params.` is a reference. Anything else is one literal:

* a string in single or double quotes, with the escapes `\\ \' \" \n \t`;
* digits, with a minus sign in front and at most one point: a whole number or a decimal;
* `true` or `false`;
* `uuid`, `date`, `timestamp`, `decimal` or `json`, with a quoted text in parentheses.

`Expr.ofString` reports every refusal as an invalid template that shows the trimmed text.
-/

namespace DoubleEntry.Expr

/-! ## Errors -/

/-- Why a text is not an expression. -/
inductive ReadError where
  | empty
  | badParameterName
  | trailingInput
  | unexpected (c : Char)
  | unexpectedEnd
  | expectedQuote
  | unterminatedString
  | unterminatedEscape
  | unknownEscape (c : Char)
  | unknownWord (word : String)
  | expectedClose
  | unknownConstructor (word : String)
  | badInteger (e : Text.IntegerError)
  | badDecimal (e : Decimal.ReadError)
  | badUuid (e : Uuid.ReadError)
  | badDate (e : CalendarError)
  | badTimestamp (e : CalendarError)
  | badJson (e : Json.ReadError) (source : List Char)

def ReadError.message : ReadError → String
  | .empty => "empty"
  | .badParameterName => "bad parameter name"
  | .trailingInput => "trailing input"
  | .unexpected c => s!"unexpected '{c}'"
  | .unexpectedEnd => "unexpected end"
  | .expectedQuote => "expected quote"
  | .unterminatedString => "unterminated string"
  | .unterminatedEscape => "unterminated escape"
  | .unknownEscape c => s!"unknown escape '\\{c}'"
  | .unknownWord w => s!"unknown word '{w}'"
  | .expectedClose => "expected ')'"
  | .unknownConstructor w => s!"unknown constructor '{w}'"
  | .badInteger e => s!"bad integer: {e.message}"
  | .badDecimal e => s!"bad decimal: {e.message}"
  | .badUuid e => s!"bad uuid: {e.message}"
  | .badDate e => s!"bad date: {e.message}"
  | .badTimestamp e => s!"bad timestamp: {e.message}"
  | .badJson e source => s!"bad json: {e.message source}"

/-! ## Quoted texts -/

def unescape? (c : Char) : Option Char :=
  if c = '\\' then some '\\'
  else if c = '\'' then some '\''
  else if c = '"' then some '"'
  else if c = 'n' then some '\n'
  else if c = 't' then some '\t'
  else none

/-- The characters up to the closing quote, and the rest of the text. -/
def readQuotedBody (quote : Char) : List Char → Except ReadError (List Char × List Char)
  | [] => .error .unterminatedString
  | c :: cs =>
    if c = quote then .ok ([], cs)
    else if c = '\\' then
      match cs with
      | [] => .error .unterminatedEscape
      | e :: cs =>
        match unescape? e with
        | none => .error (.unknownEscape e)
        | some x => (readQuotedBody quote cs).map fun (xs, rest) => (x :: xs, rest)
    else (readQuotedBody quote cs).map fun (xs, rest) => (c :: xs, rest)

/-- A quoted text; the character in front is the quote. -/
def readQuoted : List Char → Except ReadError (List Char × List Char)
  | [] => .error .expectedQuote
  | quote :: cs => readQuotedBody quote cs

/-! ## Numbers -/

/-- Digits and at most one point, whether there was a point, and the rest. -/
def takeNumber (point : Bool) : List Char → List Char × Bool × List Char
  | [] => ([], point, [])
  | c :: cs =>
    if c.isDigit then
      let (taken, seen, rest) := takeNumber point cs
      (c :: taken, seen, rest)
    else if c = '.' ∧ point = false then
      let (taken, seen, rest) := takeNumber true cs
      (c :: taken, seen, rest)
    else ([], point, c :: cs)

def numberValue (point : Bool) (cs : List Char) : Except ReadError ParamValue :=
  if point then
    match Decimal.readExact cs with
    | .ok d => .ok (.decimal d)
    | .error e => .error (.badDecimal e)
  else
    match Text.readInt64 cs with
    | .ok i => .ok (.integer (Int64.ofInt i))
    | .error e => .error (.badInteger e)

def readNumber (cs : List Char) : Except ReadError (ParamValue × List Char) :=
  let (sign, digits) := match cs with
    | '-' :: rest => (['-'], rest)
    | rest => ([], rest)
  let (taken, point, rest) := takeNumber false digits
  (numberValue point (sign ++ taken)).map (·, rest)

/-! ## Words -/

/-- The value of a constructor applied to a text. -/
def construct (word : String) (argument : List Char) : Except ReadError ParamValue :=
  match word with
  | "uuid" => match Uuid.read argument with
    | .ok u => .ok (.uuid u)
    | .error e => .error (.badUuid e)
  | "date" => match Date.read argument with
    | .ok d => .ok (.date d)
    | .error e => .error (.badDate e)
  | "timestamp" => match Timestamp.readStrict argument with
    | .ok t => .ok (.timestamp t)
    | .error e => .error (.badTimestamp e)
  | "decimal" => match Decimal.readExact argument with
    | .ok d => .ok (.decimal d)
    | .error e => .error (.badDecimal e)
  | "json" => match Json.read argument with
    | .ok j => .ok (.json j)
    | .error e => .error (.badJson e argument)
  | other => .error (.unknownConstructor other)

/-- A truth value, or a constructor with its argument. -/
def readWord (cs : List Char) : Except ReadError (ParamValue × List Char) :=
  let word := String.ofList (cs.takeWhile Text.continuesName)
  let rest := cs.dropWhile Text.continuesName
  if word = "true" then .ok (.boolean true, rest)
  else if word = "false" then .ok (.boolean false, rest)
  else
    match rest with
    | '(' :: rest =>
      match readQuoted rest with
      | .error e => .error e
      | .ok (argument, rest) =>
        match rest with
        | ')' :: rest => (construct word argument).map (·, rest)
        | _ => .error .expectedClose
    | _ => .error (.unknownWord word)

/-! ## Expressions -/

/-- A literal and the rest of the text. -/
def readLiteral : List Char → Except ReadError (ParamValue × List Char)
  | [] => .error .unexpectedEnd
  | c :: cs =>
    if c = '\'' ∨ c = '"' then
      (readQuoted (c :: cs)).map fun (s, rest) => (.string (String.ofList s), rest)
    else if c = '-' ∨ c.isDigit then readNumber (c :: cs)
    else if c.isAlpha then readWord (c :: cs)
    else .error (.unexpected c)

/-- The name after `params.`, if the text is a reference. -/
def referenceName? (cs : List Char) : Option (List Char) :=
  let lead := paramLead.toList
  if cs.take lead.length = lead then some (cs.drop lead.length) else none

def read (cs : List Char) : Except ReadError Expr :=
  if cs.isEmpty then .error .empty
  else
    match referenceName? cs with
    | some name =>
      if Text.isIdentifier name then .ok (.param (String.ofList name))
      else .error .badParameterName
    | none =>
      match readLiteral cs with
      | .error e => .error e
      | .ok (v, rest) => if rest.isEmpty then .ok (.literal v) else .error .trailingInput

def ofString (text : String) : Except PostingError Expr :=
  let source := Text.trimChars text.toList
  match read source with
  | .ok e => .ok e
  | .error e =>
    .error (.invalidTemplate s!"invalid expression '{String.ofList source}': {e.message}")

end DoubleEntry.Expr
