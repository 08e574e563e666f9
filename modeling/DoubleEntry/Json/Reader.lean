import DoubleEntry.Json.Basic
import DoubleEntry.Power
import DoubleEntry.Text.Basic

/-!
# Reading JSON text

`Json.read` accepts the JSON grammar with at most 127 open arrays and objects. An error names its
cause and the byte where it was noticed; `ReadError.message` turns the byte into a line and a
column, both in bytes, with lines counted from 1.

**Numbers.** A number without point and exponent that fits 64 bits is kept exactly (`-0` is the
double). For any other number the leading digits that fit 64 bits are taken as a whole number and
multiplied or divided by a power of ten, with one rounding in each step; the result can differ from
the nearest double in the last place.

The reader works on a cursor: the characters that are left, and the number of bytes passed. Nested
values are read by recursion on the depth that is left, so that every reader is total.
-/

namespace DoubleEntry.Json

/-! ## Errors -/

/-- What is wrong at some place of a JSON text. -/
inductive Fault where
  | endInValue
  | endInList
  | endInObject
  | endInString
  | expectedColon
  | expectedListCommaOrEnd
  | expectedObjectCommaOrEnd
  | expectedIdent
  | expectedValue
  | invalidEscape
  | invalidNumber
  | numberOutOfRange
  | controlCharacter
  | keyMustBeString
  | loneSurrogate
  | unexpectedEndOfHexEscape
  | trailingComma
  | trailingCharacters
  | tooDeep
deriving DecidableEq, Repr

def Fault.message : Fault → String
  | .endInValue => "EOF while parsing a value"
  | .endInList => "EOF while parsing a list"
  | .endInObject => "EOF while parsing an object"
  | .endInString => "EOF while parsing a string"
  | .expectedColon => "expected `:`"
  | .expectedListCommaOrEnd => "expected `,` or `]`"
  | .expectedObjectCommaOrEnd => "expected `,` or `\x7d`"
  | .expectedIdent => "expected ident"
  | .expectedValue => "expected value"
  | .invalidEscape => "invalid escape"
  | .invalidNumber => "invalid number"
  | .numberOutOfRange => "number out of range"
  | .controlCharacter => "control character (\\u0000-\\u001F) found while parsing a string"
  | .keyMustBeString => "key must be a string"
  | .loneSurrogate => "lone leading surrogate in hex escape"
  | .unexpectedEndOfHexEscape => "unexpected end of hex escape"
  | .trailingComma => "trailing comma"
  | .trailingCharacters => "trailing characters"
  | .tooDeep => "recursion limit exceeded"

/-- A fault, with the number of bytes of the text that lead up to it. -/
structure ReadError where
  fault : Fault
  bytes : Nat
deriving DecidableEq, Repr

/-- Line and column after the first `bytes` bytes of a text. -/
def lineColumn : List Char → Nat → Nat × Nat → Nat × Nat
  | [], _, (line, column) => (line, column)
  | c :: cs, bytes, (line, column) =>
    if bytes = 0 then (line, column)
    else if bytes < c.utf8Size then (line, column + bytes)
    else if c = '\n' then lineColumn cs (bytes - 1) (line + 1, 0)
    else lineColumn cs (bytes - c.utf8Size) (line, column + c.utf8Size)

/-- The wording of an error in a text. -/
def ReadError.message (e : ReadError) (source : List Char) : String :=
  let (line, column) := lineColumn source e.bytes (1, 0)
  s!"{e.fault.message} at line {line} column {column}"

/-! ## The cursor -/

/-- The characters that are left and the number of bytes passed. -/
structure Cursor where
  rest : List Char
  passed : Nat

/-- The outcome of reading something at a cursor. -/
abbrev Read (α : Type) := Except ReadError (α × Cursor)

namespace Cursor

/-- A cursor at the start of a text. -/
def start (cs : List Char) : Cursor := ⟨cs, 0⟩

def advance (c : Cursor) : Cursor :=
  match c.rest with
  | [] => c
  | x :: xs => ⟨xs, c.passed + x.utf8Size⟩

def fault {α : Type} (c : Cursor) (f : Fault) : Except ReadError α := .error ⟨f, c.passed⟩

/-- A fault in the byte in front: that byte counts as passed, if there is one. -/
def faultAhead {α : Type} (c : Cursor) (f : Fault) : Except ReadError α :=
  .error ⟨f, if c.rest.isEmpty then c.passed else c.passed + 1⟩

/-- JSON's blanks. -/
def isSpace (x : Char) : Bool := x == ' ' || x == '\n' || x == '\t' || x == '\r'

def skipSpaces (c : Cursor) : Cursor :=
  ⟨c.rest.dropWhile isSpace, c.passed + (c.rest.takeWhile isSpace).length⟩

end Cursor

/-! ## Words and strings -/

def readLetters (word : List Char) (c : Cursor) : Except ReadError Cursor :=
  match word with
  | [] => .ok c
  | w :: ws =>
    match c.rest with
    | [] => c.fault .endInValue
    | x :: _ => if x = w then readLetters ws c.advance else c.faultAhead .expectedIdent

def hexValue? (c : Char) : Option Nat :=
  if c.isDigit then some (c.toNat - '0'.toNat)
  else if 'a' ≤ c && c ≤ 'f' then some (c.toNat - 'a'.toNat + 10)
  else if 'A' ≤ c && c ≤ 'F' then some (c.toNat - 'A'.toNat + 10)
  else none

def readHex (c : Cursor) : Read Nat :=
  match c.rest with
  | a :: b :: d :: e :: rest =>
    match hexValue? a, hexValue? b, hexValue? d, hexValue? e with
    | some w, some x, some y, some z =>
      .ok (((w * 16 + x) * 16 + y) * 16 + z, ⟨rest, c.passed + 4⟩)
    | _, _, _, _ => .error ⟨.invalidEscape, c.passed + 4⟩
  | short =>
    if Text.byteLength short < 4 then .error ⟨.endInString, c.passed + Text.byteLength short⟩
    else .error ⟨.invalidEscape, c.passed + 4⟩

/-- The second half of a surrogate pair, as another escape. -/
def readLowSurrogate (high : Nat) (c : Cursor) : Read Char :=
  match c.rest with
  | [] => c.fault .endInString
  | '\\' :: _ =>
    let c := c.advance
    match c.rest with
    | [] => c.fault .endInString
    | 'u' :: _ =>
      match readHex c.advance with
      | .error e => .error e
      | .ok (low, c) =>
        if 0xDC00 ≤ low ∧ low ≤ 0xDFFF then
          .ok (Char.ofNat ((high - 0xD800) * 0x400 + (low - 0xDC00) + 0x10000), c)
        else c.fault .loneSurrogate
    | _ :: _ => c.faultAhead .unexpectedEndOfHexEscape
  | _ :: _ => c.faultAhead .unexpectedEndOfHexEscape

/-- The character of a `\u` escape. -/
def readUnicode (c : Cursor) : Read Char :=
  match readHex c with
  | .error e => .error e
  | .ok (n, c) =>
    if 0xDC00 ≤ n ∧ n ≤ 0xDFFF then c.fault .loneSurrogate
    else if 0xD800 ≤ n ∧ n ≤ 0xDBFF then readLowSurrogate n c
    else .ok (Char.ofNat n, c)

/-- The character of an escape, after its backslash. -/
def readEscape (c : Cursor) : Read Char :=
  match c.rest with
  | [] => c.fault .endInString
  | x :: _ =>
    let c' := c.advance
    match x with
    | '"' => .ok ('"', c')
    | '\\' => .ok ('\\', c')
    | '/' => .ok ('/', c')
    | 'b' => .ok (Char.ofNat 8, c')
    | 'f' => .ok (Char.ofNat 12, c')
    | 'n' => .ok ('\n', c')
    | 'r' => .ok ('\r', c')
    | 't' => .ok ('\t', c')
    | 'u' => readUnicode c'
    | _ => c.faultAhead .invalidEscape

/-- The characters of a string up to its closing quote, in front of those already `taken` in
reverse. Every turn passes a character, so `fuel` characters are enough for the text. -/
def readStringFrom (taken : List Char) : Nat → Cursor → Read String
  | 0, c => c.fault .endInString
  | fuel + 1, c =>
    match c.rest with
    | [] => c.fault .endInString
    | '"' :: _ => .ok (String.ofList taken.reverse, c.advance)
    | '\\' :: _ =>
      match readEscape c.advance with
      | .error e => .error e
      | .ok (x, c) => readStringFrom (x :: taken) fuel c
    | x :: _ =>
      if x.toNat < 32 then c.faultAhead .controlCharacter
      else readStringFrom (x :: taken) fuel c.advance

/-- A string, after its opening quote. -/
def readString (c : Cursor) : Read String := readStringFrom [] (c.rest.length + 1) c

/-! ## Numbers -/

/-- Digits as long as the number they make fits 64 bits; the number, the cursor, and how many
digits were taken. -/
def takeDigits (acc count : Nat) : List Char → Nat → Nat × Nat × Cursor
  | [], passed => (acc, count, ⟨[], passed⟩)
  | x :: xs, passed =>
    match Text.digitValue? x with
    | none => (acc, count, ⟨x :: xs, passed⟩)
    | some d =>
      if acc * 10 + d < pow2 64 then takeDigits (acc * 10 + d) (count + 1) xs (passed + 1)
      else (acc, count, ⟨x :: xs, passed⟩)

/-- All digits in front, and how many they are. -/
def skipDigits (c : Cursor) : Nat × Cursor :=
  let ds := c.rest.takeWhile Char.isDigit
  (ds.length, ⟨c.rest.drop ds.length, c.passed + ds.length⟩)

/-- The double for `significand * 10 ^ exponent`: the significand as a double, then one rounded
multiplication, or rounded divisions by at most `10 ^ 308` each. -/
def scaleDouble (x : Binary64) (exponent : Int) : Nat → Option Binary64
  | 0 => none
  | fuel + 1 =>
    if exponent.natAbs ≤ 308 then
      (Binary64.powerOfTen exponent.natAbs).bind fun p =>
        if 0 ≤ exponent then x.mul p else x.div p
    else if x.isZero then some x
    else if 0 ≤ exponent then none
    else
      ((Binary64.powerOfTen 308).bind fun p => x.div p).bind fun y =>
        scaleDouble y (exponent + 308) fuel

/-- A double from its parts, or a fault when it is too great. -/
def finishDouble (negative : Bool) (significand : Nat) (exponent : Int) (c : Cursor) :
    Read JsonNumber :=
  -- Five divisions take any significand to zero.
  match (Binary64.ofNat significand).bind fun x => scaleDouble x exponent 8 with
  | some y => .ok (.real (if negative then y.neg else y), c)
  | none => c.fault .numberOutOfRange

/-- Exponents of 32 bits are the greatest ones told apart. -/
def exponentLimit : Nat := pow2 31

/-- An exponent, after its `e`. -/
def readExponent (negative : Bool) (significand : Nat) (start : Int) (c : Cursor) :
    Read JsonNumber :=
  let (down, c) := match c.rest with
    | '+' :: _ => (false, c.advance)
    | '-' :: _ => (true, c.advance)
    | _ => (false, c)
  match c.rest with
  | [] => c.fault .endInValue
  | x :: _ =>
    if !x.isDigit then c.faultAhead .invalidNumber
    else
      let ds := c.rest.takeWhile Char.isDigit
      let n := Nat.ofDigitChars 10 ds 0
      let after := (skipDigits c).2
      if n < exponentLimit then
        finishDouble negative significand (if down then start - n else start + n) after
      else if significand ≠ 0 ∧ !down then
        -- The digit that makes the exponent too great is the last one passed.
        .error ⟨.numberOutOfRange, c.passed + overflowDigit ds⟩
      else .ok (.real { Binary64.zero with negative := negative }, after)
where
  /-- How many digits fit an exponent, and the one that does not. -/
  overflowDigit (ds : List Char) : Nat :=
    ((List.range ds.length).takeWhile fun i =>
      Nat.ofDigitChars 10 (ds.take (i + 1)) 0 < exponentLimit).length + 1

/-- The part after a whole part: nothing, an exponent, or a double as it stands. -/
def afterDigits (negative : Bool) (significand : Nat) (exponent : Int) (c : Cursor) :
    Read JsonNumber :=
  match c.rest with
  | 'e' :: _ | 'E' :: _ => readExponent negative significand exponent c.advance
  | _ => finishDouble negative significand exponent c

/-- Fraction digits, after the point. Digits past 64 bits are dropped. -/
def readFraction (negative : Bool) (significand : Nat) (exponent : Int) (c : Cursor) :
    Read JsonNumber :=
  let (m, count, d) := takeDigits significand 0 c.rest c.passed
  if count = 0 then
    match c.rest with
    | [] => c.fault .endInValue
    | x :: _ =>
      if x.isDigit then afterDigits negative m exponent (skipDigits d).2
      else c.faultAhead .invalidNumber
  else afterDigits negative m (exponent - count) (skipDigits d).2

/-- What follows the digits of a whole part that fits 64 bits. -/
def afterWhole (negative : Bool) (significand : Nat) (c : Cursor) : Read JsonNumber :=
  match c.rest with
  | '.' :: _ => readFraction negative significand 0 c.advance
  | 'e' :: _ | 'E' :: _ => readExponent negative significand 0 c.advance
  | _ =>
    if !negative then .ok (.whole significand, c)
    else if 0 < significand ∧ significand ≤ pow2 63 then .ok (.whole (-(significand : Int)), c)
    else finishDouble true significand 0 c

/-- What follows a whole part with `exponent` digits past 64 bits. -/
def afterLongWhole (negative : Bool) (significand exponent : Nat) (c : Cursor) :
    Read JsonNumber :=
  match c.rest with
  | '.' :: _ => readFraction negative significand exponent c.advance
  | _ => afterDigits negative significand exponent c

/-- A number, after its minus sign. -/
def readNumber (negative : Bool) (c : Cursor) : Read JsonNumber :=
  match c.rest with
  | [] => c.fault .endInValue
  | x :: _ =>
    if x = '0' then
      let c := c.advance
      match c.rest with
      | y :: _ => if y.isDigit then c.faultAhead .invalidNumber else afterWhole negative 0 c
      | [] => afterWhole negative 0 c
    else if x.isDigit then
      let (m, _, d) := takeDigits 0 0 c.rest c.passed
      match skipDigits d with
      | (0, _) => afterWhole negative m d
      | (extra, d) => afterLongWhole negative m extra d
    else c.faultAhead .invalidNumber

/-! ## Values -/

/-- The items of an array from the second one on, and the closing bracket. -/
def readItems (item : Cursor → Read Json) : Nat → Cursor → Read (List Json)
  | 0, c => c.fault .endInList
  | fuel + 1, c =>
    let c := c.skipSpaces
    match c.rest with
    | [] => c.faultAhead .endInList
    | ']' :: _ => .ok ([], c.advance)
    | ',' :: _ =>
      let c := c.advance.skipSpaces
      match c.rest with
      | [] => c.faultAhead .endInValue
      | ']' :: _ => c.faultAhead .trailingComma
      | _ :: _ =>
        match item c with
        | .error e => .error e
        | .ok (x, c) => (readItems item fuel c).map fun (xs, c) => (x :: xs, c)
    | _ :: _ => c.faultAhead .expectedListCommaOrEnd

/-- An array, after its opening bracket. -/
def readArray (item : Cursor → Read Json) (c : Cursor) : Read Json :=
  let c := c.skipSpaces
  match c.rest with
  | [] => c.faultAhead .endInList
  | ']' :: _ => .ok (.array [], c.advance)
  | _ :: _ =>
    match item c with
    | .error e => .error e
    | .ok (x, c) =>
      (readItems item (c.rest.length + 1) c).map fun (xs, c) => (.array (x :: xs), c)

/-- The value of a member, after its name. -/
def readMemberValue (item : Cursor → Read Json) (c : Cursor) : Read Json :=
  let c := c.skipSpaces
  match c.rest with
  | [] => c.faultAhead .endInObject
  | ':' :: _ => item c.advance
  | _ :: _ => c.faultAhead .expectedColon

/-- A member, after the opening quote of its name. -/
def readMember (item : Cursor → Read Json) (c : Cursor) : Read (String × Json) :=
  match readString c with
  | .error e => .error e
  | .ok (name, c) => (readMemberValue item c).map fun (v, c) => ((name, v), c)

/-- The members of an object from the second one on, and the closing brace. -/
def readMembers (item : Cursor → Read Json) : Nat → Cursor → Read (List (String × Json))
  | 0, c => c.fault .endInObject
  | fuel + 1, c =>
    let c := c.skipSpaces
    match c.rest with
    | [] => c.faultAhead .endInObject
    | '\x7d' :: _ => .ok ([], c.advance)
    | ',' :: _ =>
      let c := c.advance.skipSpaces
      match c.rest with
      | [] => c.faultAhead .endInValue
      | '"' :: _ =>
        match readMember item c.advance with
        | .error e => .error e
        | .ok (m, c) => (readMembers item fuel c).map fun (ms, c) => (m :: ms, c)
      | '\x7d' :: _ => c.faultAhead .trailingComma
      | _ :: _ => c.faultAhead .keyMustBeString
    | _ :: _ => c.faultAhead .expectedObjectCommaOrEnd

/-- An object, after its opening brace. -/
def readObject (item : Cursor → Read Json) (c : Cursor) : Read Json :=
  let c := c.skipSpaces
  match c.rest with
  | [] => c.faultAhead .endInObject
  | '\x7d' :: _ => .ok (.object [], c.advance)
  | '"' :: _ =>
    match readMember item c.advance with
    | .error e => .error e
    | .ok (m, c) =>
      (readMembers item (c.rest.length + 1) c).map fun (ms, c) => (ofMembers (m :: ms), c)
  | _ :: _ => c.faultAhead .keyMustBeString

/-- A word and the value it stands for. -/
def readWord (letters : List Char) (value : Json) (c : Cursor) : Read Json :=
  (readLetters letters c.advance).map fun c => (value, c)

/-- A value inside at most `depth` further arrays and objects. -/
def readValue : Nat → Cursor → Read Json
  | depth, c =>
    let c := c.skipSpaces
    match c.rest with
    | [] => c.faultAhead .endInValue
    | 'n' :: _ => readWord ['u', 'l', 'l'] .null c
    | 't' :: _ => readWord ['r', 'u', 'e'] (.bool true) c
    | 'f' :: _ => readWord ['a', 'l', 's', 'e'] (.bool false) c
    | '"' :: _ => (readString c.advance).map fun (s, c) => (.string s, c)
    | '-' :: _ => (readNumber true c.advance).map fun (n, c) => (.number n, c)
    | '[' :: _ =>
      match depth with
      | 0 => c.faultAhead .tooDeep
      | depth + 1 => readArray (readValue depth) c.advance
    | '\x7b' :: _ =>
      match depth with
      | 0 => c.faultAhead .tooDeep
      | depth + 1 => readObject (readValue depth) c.advance
    | x :: _ =>
      if x.isDigit then (readNumber false c).map fun (n, c) => (.number n, c)
      else c.faultAhead .expectedValue

/-- The most arrays and objects that may be open at once. -/
def maxDepth : Nat := 127

/-- Read a JSON text: one value with blanks around it. -/
def read (cs : List Char) : Except ReadError Json :=
  match readValue maxDepth (Cursor.start cs) with
  | .error e => .error e
  | .ok (v, c) =>
    let c := c.skipSpaces
    if c.rest.isEmpty then .ok v else c.faultAhead .trailingCharacters

end DoubleEntry.Json
