import DoubleEntry.Calendar.Timestamp
import DoubleEntry.Power
import DoubleEntry.Text.Basic

/-!
# Reading dates and instants

Three readers, from lax to strict. All report the first fault from left to right.

* `Date.read` takes a year (one to four digits, or a sign and any number of digits), a month and a
  day, with blanks allowed in front of each number; `Date.readSpaced` also allows blanks in front
  of the hyphens and at the end.
* `Timestamp.readStrict` takes the fixed-width form with an offset.
* `Timestamp.readSpaced` takes signed years, blanks between the parts, `UTC` for the offset, and
  an offset without its colon.

The parts share small scanners that return what they read and the rest of the text.
-/

namespace DoubleEntry

/-! ## Errors and scanners -/

/-- Why a text is not a date or an instant. -/
inductive CalendarError where
  | tooShort
  | invalid
  | outOfRange
  | impossible
  | tooLong
deriving DecidableEq, Repr

/-- The wording of a date or an instant that cannot be read. -/
def CalendarError.message : CalendarError → String
  | .tooShort => "premature end of input"
  | .invalid => "input contains invalid characters"
  | .outOfRange => "input is out of range"
  | .impossible => "no possible date and time matching input"
  | .tooLong => "trailing input"

namespace Calendar

/-- A scanner takes a value from the front of a text and returns it with the rest. -/
abbrev Scanner (α : Type) := List Char → Except CalendarError (α × List Char)

/-- Up to `most` further digits after the number `acc`. Numbers of 64 bits and more are out of
range. -/
def moreDigits (acc : Nat) : Nat → Scanner Nat
  | 0, cs => .ok (acc, cs)
  | _ + 1, [] => .ok (acc, [])
  | most + 1, c :: cs =>
    match Text.digitValue? c with
    | none => .ok (acc, c :: cs)
    | some d =>
      let next := acc * 10 + d
      if next < pow2 63 then moreDigits next most cs else .error .outOfRange

/-- A number of one to `most` digits. -/
def number (most : Nat) (cs : List Char) : Except CalendarError (Nat × List Char) :=
  match cs with
  | [] => .error .tooShort
  | c :: _ => if c.isDigit then moreDigits 0 most cs else .error .invalid

def literal (expected : Char) : Scanner Unit
  | [] => .error .tooShort
  | c :: cs => if c = expected then .ok ((), cs) else .error .invalid

/-- A number within bounds, with blanks in front. -/
def field (lo hi : Nat) (cs : List Char) : Except CalendarError (Nat × List Char) := do
  let (n, rest) ← number 2 (Text.trimStart cs)
  if lo ≤ n ∧ n ≤ hi then pure (n, rest) else throw .outOfRange

/-- A year within 32 bits: at most four digits, or a sign and any number of them. -/
def year (cs : List Char) : Except CalendarError (Int × List Char) := do
  let cs := Text.trimStart cs
  let (y, rest) ← match cs with
    | '-' :: digits => do
      let (n, rest) ← number digits.length digits
      pure (-(n : Int), rest)
    | '+' :: digits => do
      let (n, rest) ← number digits.length digits
      pure ((n : Int), rest)
    | digits => do
      let (n, rest) ← number 4 digits
      pure ((n : Int), rest)
  if -(pow2 31 : Int) ≤ y ∧ y < pow2 31 then pure (y, rest) else throw .outOfRange

/-- Drop blanks if the reader is a spaced one. -/
def blanks (spaced : Bool) (cs : List Char) : List Char :=
  if spaced then Text.trimStart cs else cs

/-- Year, month and day with hyphens between them. -/
def yearMonthDay (spaced : Bool) (cs : List Char) :
    Except CalendarError ((Int × Nat × Nat) × List Char) := do
  let (y, cs) ← year cs
  let (_, cs) ← literal '-' (blanks spaced cs)
  let (m, cs) ← field 1 12 cs
  let (_, cs) ← literal '-' (blanks spaced cs)
  let (d, cs) ← field 1 31 cs
  pure ((y, m, d), cs)

/-- The date, if the day exists. -/
def toDate (parts : Int × Nat × Nat) : Except CalendarError Date :=
  match Date.ofYmd? parts.1 parts.2.1 parts.2.2 with
  | some d => .ok d
  | none => .error .outOfRange

/-- Nothing is left. -/
def finish {α : Type} (value : α) : List Char → Except CalendarError α
  | [] => .ok value
  | _ :: _ => .error .tooLong

/-- Fraction digits after the point: nanoseconds from the first nine, the others dropped. -/
def fraction (cs : List Char) : Except CalendarError (Nat × List Char) := do
  let (n, rest) ← number 9 cs
  let digits := cs.length - rest.length
  pure (n * pow10 (9 - digits), rest.dropWhile Char.isDigit)

/-- A point and fraction digits, or nothing. -/
def optionalFraction : Scanner Nat
  | '.' :: cs => fraction cs
  | cs => .ok (0, cs)

/-- Two digits at once; a shorter text is premature. -/
def twoDigits : Scanner Nat
  | a :: b :: cs =>
    match Text.digitValue? a, Text.digitValue? b with
    | some x, some y => .ok (x * 10 + y, cs)
    | _, _ => .error .invalid
  | [a] => if 1 < a.utf8Size then .error .invalid else .error .tooShort
  | [] => .error .tooShort

def offsetMinutes (cs : List Char) : Except CalendarError (Nat × List Char) := do
  let (n, rest) ← twoDigits cs
  if n < 60 then pure (n, rest) else throw .outOfRange

/-- A zone offset in seconds: `Z`, or a sign, hours and minutes. `separator` reads what stands
between the two. -/
def offset (separator : Scanner Unit) : Scanner Int
  | [] => .error .tooShort
  | c :: cs =>
    if c = 'Z' ∨ c = 'z' then .ok (0, cs)
    else if c = '+' ∨ c = '-' ∨ c = '\u2212' then do
      let (h, cs) ← twoDigits cs
      let (_, cs) ← separator cs
      let (m, cs) ← offsetMinutes cs
      let seconds : Int := h * 3600 + m * 60
      pure (if c = '+' then seconds else -seconds, cs)
    else .error .invalid

def checkOffset (seconds : Int) : Except CalendarError Unit :=
  if seconds.natAbs < secondsPerDay then .ok () else .error .outOfRange

/-- Any number of colons and blanks. -/
def anySeparator (cs : List Char) : Except CalendarError (Unit × List Char) :=
  .ok ((), cs.dropWhile fun c => c == ':' || Text.isBlank c)

/-- The letter or the space between date and time. -/
def betweenDateAndTime : Scanner Unit
  | [] => .error .tooShort
  | c :: cs => if c = 'T' ∨ c = 't' ∨ c = ' ' then .ok ((), cs) else .error .invalid

/-- The instant of a local time at an offset. -/
def toInstant (date : Date) (clock : Nat × Nat × Nat) (nano : Nat) (offset : Int) :
    Except CalendarError Timestamp :=
  match Timestamp.ofClock? date clock.1 clock.2.1 clock.2.2 nano with
  | none => .error .outOfRange
  | some t =>
    match t.shift? (-offset) with
    | none => .error .impossible
    | some u => .ok u

end Calendar

open Calendar

/-! ## Dates -/

/-- Read a date; blanks may stand in front of the numbers only. -/
def Date.read (cs : List Char) : Except CalendarError Date := do
  let (parts, rest) ← yearMonthDay false cs
  finish () rest
  toDate parts

/-- Read a date; blanks may also stand in front of the hyphens and at the end. -/
def Date.readSpaced (cs : List Char) : Except CalendarError Date := do
  let (parts, rest) ← yearMonthDay true cs
  finish () (Text.trimStart rest)
  toDate parts

/-! ## Instants -/

/-- The number written by two digits at a position of the fixed part. -/
def Calendar.fixedTwo (cs : List Char) (i : Nat) : Except CalendarError Nat :=
  match cs[i]?.bind Text.digitValue?, cs[i + 1]?.bind Text.digitValue? with
  | some a, some b => .ok (a * 10 + b)
  | _, _ => .error .invalid

def Calendar.fixedChar (cs : List Char) (i : Nat) (allowed : List Char) :
    Except CalendarError Unit :=
  match cs[i]? with
  | some c => if c ∈ allowed then .ok () else .error .invalid
  | none => .error .invalid

/-- Read an instant in the fixed-width form `YYYY-MM-DDTHH:MM:SS`, an optional fraction, and an
offset. -/
def Timestamp.readStrict (cs : List Char) : Except CalendarError Timestamp := do
  if Text.byteLength cs < 19 then throw .tooShort
  let century ← fixedTwo cs 0
  let year ← fixedTwo cs 2
  fixedChar cs 4 ['-']
  let month ← fixedTwo cs 5
  fixedChar cs 7 ['-']
  let day ← fixedTwo cs 8
  let date ← toDate ((century * 100 + year : Nat), month, day)
  fixedChar cs 10 ['T', 't', ' ']
  let hour ← fixedTwo cs 11
  fixedChar cs 13 [':']
  let minute ← fixedTwo cs 14
  fixedChar cs 16 [':']
  let second ← fixedTwo cs 17
  let (nano, rest) ← optionalFraction (cs.drop 19)
  if 23 < hour ∨ 59 < minute ∨ 60 < second then throw .outOfRange
  let (zone, rest) ← offset (literal ':') rest
  finish () rest
  checkOffset zone
  toInstant date (hour, minute, second) nano zone

/-- `UTC` in any case, or an offset whose separator is optional. -/
def Calendar.spacedOffset (cs : List Char) : Except CalendarError (Int × List Char) :=
  if (cs.take 3).map Char.toUpper = ['U', 'T', 'C'] then .ok (0, cs.drop 3)
  else offset anySeparator cs

/-- Read an instant with blanks between its parts and signed years of any length. -/
def Timestamp.readSpaced (cs : List Char) : Except CalendarError Timestamp := do
  let (parts, cs) ← yearMonthDay true cs
  let (_, cs) ← betweenDateAndTime cs
  let (hour, cs) ← field 0 23 cs
  let (_, cs) ← literal ':' (Text.trimStart cs)
  let (minute, cs) ← field 0 59 cs
  let (_, cs) ← literal ':' (Text.trimStart cs)
  let (second, cs) ← field 0 60 cs
  let (nano, cs) ← optionalFraction cs
  let (zone, cs) ← spacedOffset (Text.trimStart cs)
  finish () (Text.trimStart cs)
  let date ← toDate parts
  checkOffset zone
  toInstant date (hour, minute, second) nano zone

end DoubleEntry
