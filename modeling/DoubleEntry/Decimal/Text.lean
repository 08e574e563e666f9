import DoubleEntry.Decimal.Basic
import DoubleEntry.Power
import DoubleEntry.Text.Basic

/-!
# Decimals in text

The written form of a decimal is plain positional notation with exactly `scale` fraction digits: a
minus sign for a negative number or a signed zero, at least one digit in front of the point, and no
point at scale 0.

Two readers share one grammar: an optional sign, digits with at most one point, and `_` anywhere
after the first digit.

* `readExact` keeps every digit or refuses. The first thing wrong from left to right decides the
  error: a character out of place, a whole part beyond 96 bits (`tooManyDigits`), or a fraction
  digit that does not fit, or any character after the 28th one (`tooPrecise`).
* `readRounded` gives up the fraction digits that do not fit and rounds at the first of them, five
  upwards. A separator in front of that digit is passed over only where the digits before make a
  large number (`oneWord`); after a small one it counts as a zero.
* `readLenient` also accepts an exponent after such a number. A negative number that is rounded
  away when its point moves to the left leaves a signed zero.
-/

namespace DoubleEntry.Decimal

/-! ## The written form -/

/-- Put the point before the last `scale` digits. -/
def placePoint (digits : List Char) (scale : Nat) : List Char :=
  if scale = 0 then digits
  else
    digits.take (digits.length - scale) ++ '.' :: digits.drop (digits.length - scale)

/-- The characters of `± magnitude / 10 ^ scale`. -/
def charsOf (negative : Bool) (magnitude scale : Nat) : List Char :=
  let body := placePoint (Text.padZeros (scale + 1) (Text.natChars magnitude)) scale
  if negative then '-' :: body else body

def chars (d : Decimal) : List Char :=
  charsOf (d.isNegative || d.signedZero) d.coeff.natAbs d.scale

/-- The characters of a decimal with further zeros after its last fraction digit. -/
def charsWith (d : Decimal) (zeros : Nat) : List Char :=
  charsOf (d.isNegative || d.signedZero) (d.coeff.natAbs * pow10 zeros) (d.scale + zeros)

instance : ToString Decimal := ⟨fun d => String.ofList d.chars⟩

example : charsOf true 5 1 = ['-', '0', '.', '5'] := by decide
example : charsOf false 1000 2 = ['1', '0', '.', '0', '0'] := by decide
example : charsOf false 0 2 = ['0', '.', '0', '0'] := by decide

/-! ## Errors -/

/-- Why a text is not a decimal. -/
inductive ReadError where
  | empty
  | twoPoints
  | leadingSeparator
  | unknownCharacter
  | noDigits
  | tooManyDigits
  | tooPrecise
deriving DecidableEq, Repr

/-- The wording of a decimal that cannot be read. -/
def ReadError.message : ReadError → String
  | .empty => "Invalid decimal: empty"
  | .twoPoints => "Invalid decimal: two decimal points"
  | .leadingSeparator => "Invalid decimal: must start lead with a number"
  | .unknownCharacter => "Invalid decimal: unknown character"
  | .noDigits => "Invalid decimal: no digits found"
  | .tooManyDigits => "Invalid decimal: overflow from too many digits"
  | .tooPrecise => "Number has a high precision that can not be represented."

/-! ## The scanner -/

/-- What has been read so far: the magnitude of the digits, whether the point was passed and with
how many fraction digits, and whether there was a digit at all. -/
structure Scan where
  magnitude : Nat := 0
  point : Bool := false
  scale : Nat := 0
  hasDigit : Bool := false

/-- Where a scan stops: at the end of the text, or in front of a fraction digit too many. -/
inductive ScanEnd where
  | complete (s : Scan)
  | excess (s : Scan) (rest : List Char)

/-- The error for a character that cannot stand where it does. -/
def misplaced : Char → ReadError
  | '.' => .twoPoints
  | '_' => .leadingSeparator
  | _ => .unknownCharacter

/-- Take digits, separators and the point from the left. -/
def scan (s : Scan) : List Char → Except ReadError ScanEnd
  | [] => .ok (.complete s)
  | c :: cs =>
    if s.point && s.scale == maxScale then .ok (.excess s (c :: cs))
    else
      match Text.digitValue? c with
      | some d =>
        let next := s.magnitude * 10 + d
        if next < bound then
          scan { s with magnitude := next, hasDigit := true,
                        scale := if s.point then s.scale + 1 else 0 } cs
        else if s.point then .ok (.excess s (c :: cs))
        else .error .tooManyDigits
      | none =>
        if c == '.' && !s.point then scan { s with point := true } cs
        else if c == '_' && s.hasDigit then scan s cs
        else .error (misplaced c)

/-- The sign in front, and the rest. -/
def takeSign : List Char → Bool × List Char
  | '-' :: cs => (true, cs)
  | '+' :: cs => (false, cs)
  | cs => (false, cs)

def ofScan (negative : Bool) (s : Scan) : Except ReadError Decimal :=
  if !s.hasDigit then .error .noDigits
  else
    let coeff : Int := if negative then - (s.magnitude : Int) else (s.magnitude : Int)
    match make? coeff s.scale with
    | some d => .ok d
    | none => .error .tooPrecise

/-! ## The readers -/

/-- Read a decimal, keeping every digit. -/
def readExact (cs : List Char) : Except ReadError Decimal :=
  if cs.isEmpty then .error .empty
  else
    let (negative, digits) := takeSign cs
    match scan {} digits with
    | .error e => .error e
    | .ok (.complete s) => ofScan negative s
    | .ok (.excess _ _) => .error .tooPrecise

def isDigitTail (cs : List Char) : Bool := cs.all fun c => c.isDigit || c == '_'

/-- Round up by one at this scale; a coefficient that leaves its bounds gives up one more
fraction digit. -/
def roundUp (s : Scan) : Option Scan :=
  if s.magnitude + 1 < bound then some { s with magnitude := s.magnitude + 1 }
  else if s.scale == 0 then none
  else some { s with magnitude := (s.magnitude + 1 + 4) / 10, scale := s.scale - 1 }

/-- Below this magnitude one more digit always fits a word of 64 bits. -/
def oneWord : Nat := 1844674407370954906

/-- The first digit given up, where digits and separators are left over after the last digit kept.
A separator stands for a zero if the magnitude before the last digit is below `oneWord`, and is
passed over if it is not. -/
def excessDigit (magnitude : Nat) (rest : List Char) : Nat :=
  let rest := if magnitude / 10 < oneWord then rest else rest.dropWhile (· == '_')
  (rest.head?.bind Text.digitValue?).getD 0

/-- Read a decimal, rounding the fraction digits that do not fit at the first of them. -/
def readRounded (cs : List Char) : Option Decimal :=
  if cs.isEmpty then none
  else
    let (negative, digits) := takeSign cs
    match scan {} digits with
    | .error _ => none
    | .ok (.complete s) => (ofScan negative s).toOption
    | .ok (.excess s rest) =>
      if !isDigitTail rest then none
      else if 5 ≤ excessDigit s.magnitude rest then
        (roundUp s).bind fun r => (ofScan negative r).toOption
      else (ofScan negative s).toOption

/-! ## Exponents -/

/-- Split at the first `e` or `E`. -/
def splitExponent : List Char → Option (List Char × List Char)
  | [] => none
  | c :: cs =>
    if c == 'e' || c == 'E' then some ([], cs)
    else (splitExponent cs).map fun (base, exponent) => (c :: base, exponent)

/-- The magnitude at `digits` fraction digits, rounding at the first one given up, five upwards. -/
def magnitudeAt (d : Decimal) (digits : Nat) : Nat :=
  if d.scale ≤ digits then d.coeff.natAbs
  else
    let kept := d.coeff.natAbs / pow10 (d.scale - digits)
    let next := d.coeff.natAbs / pow10 (d.scale - digits - 1) % 10
    if 5 ≤ next then kept + 1 else kept

/-- Divide by `10 ^ n`: the point moves to the left, and digits past the 28th are rounded away. A
negative number of which nothing is left leaves a signed zero. -/
def shiftLeft (d : Decimal) (n : Nat) : Option Decimal :=
  if maxScale < n then none
  else if maxScale < d.scale + n then
    let magnitude := d.magnitudeAt (maxScale - n)
    if magnitude = 0 ∧ d.isNegative then minusZero? maxScale
    else make? (if d.isNegative then - (magnitude : Int) else (magnitude : Int)) maxScale
  else make? d.coeff (d.scale + n)

/-- Multiply by `10 ^ n`: the point moves to the right, through the fraction digits first. -/
def shiftRight (d : Decimal) (n : Nat) : Option Decimal :=
  if n ≤ d.scale then make? d.coeff (d.scale - n)
  else if maxScale < n then none
  else make? (d.coeff * pow10 (n - d.scale)) 0

def readScientific (cs : List Char) : Option Decimal := do
  let (base, exponent) ← splitExponent cs
  let d ← readRounded base
  match exponent with
  | '-' :: digits => shiftLeft d (← (Text.readWord 32 digits).toOption)
  | digits => shiftRight d (← (Text.readWord 32 digits).toOption)

/-- Read a decimal with or without an exponent, rounding digits that do not fit. -/
def readLenient (cs : List Char) : Option Decimal :=
  (readRounded cs).or (readScientific cs)

end DoubleEntry.Decimal
