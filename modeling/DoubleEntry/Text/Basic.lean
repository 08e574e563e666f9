import DoubleEntry.Power

/-!
# Text

What the ledger does with text, character by character. Sizes are counted in UTF-8 bytes. Case maps
and character classes are those of ASCII: a character outside it is no letter and keeps its case.

*Blank* is the Unicode property `White_Space`, given as the table `isBlank`; `trim` drops blanks at
both ends and nothing in between.

Numbers are written with the fewest digits (`Nat.toDigits 10`) and read by `readInt`, which takes
an optional sign and ASCII digits only and reports the first thing wrong from left to right: an
invalid character, or the digit with which the number leaves its bounds.
-/

namespace DoubleEntry.Text

/-! ## Sizes, letter case and names -/

def byteLength (cs : List Char) : Nat := cs.foldr (fun c n => c.utf8Size + n) 0

/-- ASCII letters in upper case; every other character unchanged. -/
def upperAscii (s : String) : String := String.ofList (s.toList.map Char.toUpper)

/-- ASCII letters in lower case; every other character unchanged. -/
def lowerAscii (s : String) : String := String.ofList (s.toList.map Char.toLower)

def startsName (c : Char) : Bool := c.isAlpha || c == '_'

/-- A letter, a digit or the underscore. -/
def continuesName (c : Char) : Bool := c.isAlphanum || c == '_'

/-- `[A-Za-z_][A-Za-z0-9_]*`. -/
def isIdentifier : List Char → Bool
  | [] => false
  | c :: cs => startsName c && cs.all continuesName

def joinWith (sep : String) : List String → String
  | [] => ""
  | [s] => s
  | s :: rest => s ++ sep ++ joinWith sep rest

/-! ## Blanks -/

/-- The characters with the Unicode property `White_Space`. -/
def isBlank (c : Char) : Bool :=
  let n := c.toNat
  (0x09 ≤ n && n ≤ 0x0D) || n == 0x20 || n == 0x85 || n == 0xA0 || n == 0x1680 ||
    (0x2000 ≤ n && n ≤ 0x200A) || n == 0x2028 || n == 0x2029 || n == 0x202F || n == 0x205F ||
    n == 0x3000

example : isBlank '\u0085' ∧ isBlank '\u00a0' ∧ isBlank '\u3000' := by decide
example : ¬ isBlank '\u200b' ∧ ¬ isBlank '\ufeff' := by decide

/-! ## Trimming -/

def trimStart (cs : List Char) : List Char := cs.dropWhile isBlank

def trimEnd (cs : List Char) : List Char := (cs.reverse.dropWhile isBlank).reverse

/-- Drop the blanks at both ends of a list of characters. -/
def trimChars (cs : List Char) : List Char := trimEnd (trimStart cs)

/-- Drop the blanks at both ends of a text. -/
def trim (s : String) : String := String.ofList (trimChars s.toList)

/-! ## Writing whole numbers -/

/-- The decimal digits of `n`, without leading zeros. -/
def natChars (n : Nat) : List Char := Nat.toDigits 10 n

/-- The decimal text of an integer: a minus sign in front of the digits of a negative one. -/
def intChars (i : Int) : List Char :=
  if i < 0 then '-' :: natChars i.natAbs else natChars i.natAbs

/-- Pad with zeros in front up to `width` characters. -/
def padZeros (width : Nat) (cs : List Char) : List Char :=
  List.replicate (width - cs.length) '0' ++ cs

/-! ## Reading whole numbers -/

def digitValue? (c : Char) : Option Nat :=
  if c.isDigit then some (c.toNat - '0'.toNat) else none

/-- Why a text is not a whole number within its bounds. -/
inductive IntegerError where
  | empty
  | invalidDigit
  | tooLarge
  | tooSmall
deriving DecidableEq, Repr

/-- The wording of a number that cannot be read. -/
def IntegerError.message : IntegerError → String
  | .empty => "cannot parse integer from empty string"
  | .invalidDigit => "invalid digit found in string"
  | .tooLarge => "number too large to fit in target type"
  | .tooSmall => "number too small to fit in target type"

/-- Accumulate digits upwards from `acc`, staying at or below `hi`. -/
def readUp (hi : Int) : Int → List Char → Except IntegerError Int
  | acc, [] => .ok acc
  | acc, c :: cs =>
    match digitValue? c with
    | none => .error .invalidDigit
    | some d =>
      let next := acc * 10 + (d : Int)
      if next ≤ hi then readUp hi next cs else .error .tooLarge

/-- Accumulate digits downwards from `acc`, staying at or above `lo`. -/
def readDown (lo : Int) : Int → List Char → Except IntegerError Int
  | acc, [] => .ok acc
  | acc, c :: cs =>
    match digitValue? c with
    | none => .error .invalidDigit
    | some d =>
      let next := acc * 10 - (d : Int)
      if lo ≤ next then readDown lo next cs else .error .tooSmall

/-- Read a whole number between `lo` and `hi`. A `+` may stand in front, and a `-` where `lo` is
negative; at least one digit follows. -/
def readInt (lo hi : Int) : List Char → Except IntegerError Int
  | [] => .error .empty
  | ['+'] => .error .invalidDigit
  | ['-'] => .error .invalidDigit
  | '+' :: cs => readUp hi 0 cs
  | '-' :: cs => if lo < 0 then readDown lo 0 cs else .error .invalidDigit
  | cs => readUp hi 0 cs

/-! ## The word sizes in use -/

def readInt64 (cs : List Char) : Except IntegerError Int :=
  readInt (-(pow2 63 : Int)) (pow2 63 - 1) cs

/-- Read an unsigned number of `bits` bits. -/
def readWord (bits : Nat) (cs : List Char) : Except IntegerError Nat :=
  (readInt 0 (pow2 bits - 1) cs).map Int.toNat

end DoubleEntry.Text
