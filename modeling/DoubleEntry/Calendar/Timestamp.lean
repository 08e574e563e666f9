import DoubleEntry.Text.Basic

/-!
# Dates and instants

A `Date` is a day of the proleptic Gregorian calendar in the years -262143 to 262142. Dates are
ordered as they follow each other. The written form is `YYYY-MM-DD`; years outside 0 to 9999 carry
a sign.

A `Timestamp` is a date, a second of that day in Coordinated Universal Time, and nanoseconds. A
leap second is the second before it with a thousand million nanoseconds or more, so the order of
timestamps (date, second, nanosecond) is the order of time. The written form has the fewest of 0,
3, 6 or 9 fraction digits that are exact.
-/

namespace DoubleEntry

/-! ## Dates -/

/-- A leap year has a 29th of February. -/
def isLeapYear (year : Int) : Bool :=
  year % 4 == 0 && (year % 100 != 0 || year % 400 == 0)

/-- The number of days in a month; zero for a month that does not exist. -/
def daysInMonth (year : Int) (month : Nat) : Nat :=
  match month with
  | 1 | 3 | 5 | 7 | 8 | 10 | 12 => 31
  | 4 | 6 | 9 | 11 => 30
  | 2 => if isLeapYear year then 29 else 28
  | _ => 0

/-- The year, month and day name a day within range. -/
def IsDate (year : Int) (month day : Nat) : Prop :=
  -262143 ≤ year ∧ year ≤ 262142 ∧ 1 ≤ day ∧ day ≤ daysInMonth year month

instance (year : Int) (month day : Nat) : Decidable (IsDate year month day) := by
  unfold IsDate; infer_instance

/-- A day of the calendar. -/
structure Date where
  year : Int
  month : Nat
  day : Nat
  isDate : IsDate year month day
deriving DecidableEq

namespace Date

/-- The day with this year, month and day of the month, if there is one. -/
def ofYmd? (year : Int) (month day : Nat) : Option Date :=
  if h : IsDate year month day then some ⟨year, month, day, h⟩ else none

instance : Ord Date :=
  ⟨fun a b => (compare a.year b.year).then ((compare a.month b.month).then (compare a.day b.day))⟩

instance : Std.TransOrd Date :=
  inferInstanceAs <| Std.TransCmp (compareLex (compareOn Date.year)
    (compareLex (compareOn Date.month) (compareOn Date.day)))

instance : Std.LawfulEqOrd Date where
  eq_of_compare {a b} h := by
    obtain ⟨hyear, hrest⟩ := Ordering.then_eq_eq.mp h
    obtain ⟨hmonth, hday⟩ := Ordering.then_eq_eq.mp hrest
    cases a; cases b
    cases Std.LawfulEqOrd.eq_of_compare hyear
    cases Std.LawfulEqOrd.eq_of_compare hmonth
    cases Std.LawfulEqOrd.eq_of_compare hday
    rfl

/-! ## Neighbours -/

/-- The following day, unless this is the last one. -/
def next? (d : Date) : Option Date :=
  (ofYmd? d.year d.month (d.day + 1)).or
    ((ofYmd? d.year (d.month + 1) 1).or (ofYmd? (d.year + 1) 1 1))

/-- The preceding day, unless this is the first one. -/
def prev? (d : Date) : Option Date :=
  if 1 < d.day then ofYmd? d.year d.month (d.day - 1)
  else if 1 < d.month then ofYmd? d.year (d.month - 1) (daysInMonth d.year (d.month - 1))
  else ofYmd? (d.year - 1) 12 31

/-! ## Writing dates -/

/-- Four digits at least, with a sign for a year outside 0 to 9999. -/
def yearChars (year : Int) : List Char :=
  let digits := Text.padZeros 4 (Text.natChars year.natAbs)
  if year < 0 then '-' :: digits
  else if 9999 < year then '+' :: digits
  else digits

/-- Two digits at least. -/
def twoChars (n : Nat) : List Char := Text.padZeros 2 (Text.natChars n)

/-- The written form. -/
def chars (d : Date) : List Char :=
  yearChars d.year ++ '-' :: (twoChars d.month ++ '-' :: twoChars d.day)

instance : ToString Date := ⟨fun d => String.ofList d.chars⟩

end Date

/-! ## Instants -/

def nanosPerSecond : Nat := 1000000000

/-- Seconds in a day, leap seconds apart. -/
def secondsPerDay : Nat := 86400

/-- An instant in Coordinated Universal Time. -/
structure Timestamp where
  date : Date
  second : Nat
  nano : Nat
  second_lt : second < secondsPerDay
  nano_lt : nano < 2 * nanosPerSecond
deriving DecidableEq

namespace Timestamp

instance : Ord Timestamp :=
  ⟨fun a b =>
    (compare a.date b.date).then ((compare a.second b.second).then (compare a.nano b.nano))⟩

instance : Std.TransOrd Timestamp :=
  inferInstanceAs <| Std.TransCmp (compareLex (compareOn Timestamp.date)
    (compareLex (compareOn Timestamp.second) (compareOn Timestamp.nano)))

instance : Std.LawfulEqOrd Timestamp where
  eq_of_compare {a b} h := by
    obtain ⟨hdate, hrest⟩ := Ordering.then_eq_eq.mp h
    obtain ⟨hsecond, hnano⟩ := Ordering.then_eq_eq.mp hrest
    cases a; cases b
    cases Std.LawfulEqOrd.eq_of_compare hdate
    cases Std.LawfulEqOrd.eq_of_compare hsecond
    cases Std.LawfulEqOrd.eq_of_compare hnano
    rfl

/-- The instant with these parts, if they are within bounds. -/
def make? (date : Date) (second nano : Nat) : Option Timestamp :=
  if hs : second < secondsPerDay then
    if hn : nano < 2 * nanosPerSecond then some ⟨date, second, nano, hs, hn⟩ else none
  else none

/-- The instant at a time of day; a leap second is second 60. -/
def ofClock? (date : Date) (hour minute second nano : Nat) : Option Timestamp :=
  if hour < 24 ∧ minute < 60 ∧ second ≤ 60 then
    if second = 60 then make? date (hour * 3600 + minute * 60 + 59) (nano + nanosPerSecond)
    else make? date (hour * 3600 + minute * 60 + second) nano
  else none

/-- The instant that many seconds later or earlier, for shifts of less than a day; a leap second
stays one. -/
def shift? (t : Timestamp) (seconds : Int) : Option Timestamp :=
  let s : Int := t.second + seconds
  if s < 0 then t.date.prev?.bind fun d => make? d (s + secondsPerDay).toNat t.nano
  else if (secondsPerDay : Int) ≤ s then
    t.date.next?.bind fun d => make? d (s - secondsPerDay).toNat t.nano
  else make? t.date s.toNat t.nano

/-! ## Microseconds -/

/-- The instant `carry` seconds after the given second of the day. -/
def carrySeconds (t : Timestamp) (carry nano : Nat) : Option Timestamp :=
  if t.second + carry < secondsPerDay then make? t.date (t.second + carry) nano
  else t.date.next?.bind fun d => make? d (t.second + carry - secondsPerDay) nano

/-- The last second of 1999 is over. -/
def isFrom2000 (t : Timestamp) : Bool := decide (2000 ≤ t.date.year)

/-- The instant to the microsecond, counted from the start of the year 2000 and truncated towards
it: a later instant goes down and an earlier one up. A leap second counts into the next one. -/
def toMicros (t : Timestamp) : Timestamp :=
  let plain := (t.carrySeconds (t.nano / nanosPerSecond) (t.nano % nanosPerSecond)).getD t
  let micros := if plain.isFrom2000 then plain.nano / 1000 else (plain.nano + 999) / 1000
  (plain.carrySeconds (micros / 1000000) (micros % 1000000 * 1000)).getD plain

/-! ## Writing instants -/

/-- The fraction digits with the point, in groups of three; nothing for a whole second. -/
def fractionChars (nano : Nat) : List Char :=
  if nano = 0 then []
  else if nano % 1000000 = 0 then '.' :: Text.padZeros 3 (Text.natChars (nano / 1000000))
  else if nano % 1000 = 0 then '.' :: Text.padZeros 6 (Text.natChars (nano / 1000))
  else '.' :: Text.padZeros 9 (Text.natChars nano)

/-- The written form, in Coordinated Universal Time. -/
def chars (t : Timestamp) : List Char :=
  let second := t.second % 60 + t.nano / nanosPerSecond
  t.date.chars ++ 'T' :: (Date.twoChars (t.second / 3600) ++ ':' ::
    (Date.twoChars (t.second / 60 % 60) ++ ':' :: (Date.twoChars second ++
      (fractionChars (t.nano % nanosPerSecond) ++ ['Z']))))

instance : ToString Timestamp := ⟨fun t => String.ofList t.chars⟩

end Timestamp

end DoubleEntry
