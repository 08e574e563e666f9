import DoubleEntry.Binary64.Basic
import DoubleEntry.Binary64.Shortest
import DoubleEntry.OrdMap
import DoubleEntry.Power

/-!
# JSON values

Whole numbers that fit 64 bits are kept exactly; every other number is a double. `ofMembers` lists
the members of an object in ascending order of their names, and a name once; a table of values
cannot occur inside the type of these values, so the order is not part of the type.

Two values are `same` when they differ at most in the sign of a zero double.

The text of a value is compact: no blanks, members in the order of the object, doubles with the
fewest digits that read back, and in strings a short escape where there is one, `\u00xx` for the
other control characters, and every other character as it is.
-/

namespace DoubleEntry

/-- A JSON number: a whole number of 64 bits, or a double. -/
inductive JsonNumber where
  | whole (i : Int)
  | real (x : Binary64)
deriving DecidableEq, Repr

/-- A JSON value. -/
inductive Json where
  | null
  | bool (b : Bool)
  | number (n : JsonNumber)
  | string (s : String)
  | array (items : List Json)
  | object (members : List (String × Json))
deriving Inhabited

/-- Whole numbers JSON keeps exactly: the signed and the unsigned 64-bit ones. -/
def JsonNumber.isWhole (i : Int) : Bool := decide (-(pow2 63 : Int) ≤ i ∧ i < pow2 64)

/-- Equality of numbers; the two zero doubles are the same, a whole number and a double never. -/
def JsonNumber.same : JsonNumber → JsonNumber → Bool
  | .whole i, .whole j => i == j
  | .real x, .real y => x.same y
  | _, _ => false

namespace Json

/-! ## Objects -/

/-- The object with these members; a later value replaces an earlier one of its name. -/
def ofMembers (members : List (String × Json)) : Json := .object (OrdMap.ofList members).rows

/-- The member of an object; nothing for any other value. -/
def get? (j : Json) (name : String) : Option Json :=
  match j with
  | .object ms => ms.lookup name
  | _ => none

/-! ## Equality -/

mutual

/-- Equality up to the sign of zero doubles. -/
def same : Json → Json → Bool
  | .null, .null => true
  | .bool a, .bool b => a == b
  | .number a, .number b => a.same b
  | .string a, .string b => a == b
  | .array xs, .array ys => sameItems xs ys
  | .object xs, .object ys => sameMembers xs ys
  | _, _ => false

/-- `same` item by item. -/
def sameItems : List Json → List Json → Bool
  | [], [] => true
  | x :: xs, y :: ys => same x y && sameItems xs ys
  | _, _ => false

/-- `same` member by member, with equal names. -/
def sameMembers : List (String × Json) → List (String × Json) → Bool
  | [], [] => true
  | (k, x) :: xs, (l, y) :: ys => k == l && same x y && sameMembers xs ys
  | _, _ => false

end

/-! ## Shorthands -/

def ofInt (i : Int) : Json := .number (.whole i)

def ofNat (n : Nat) : Json := .number (.whole n)

/-- The value, or null. -/
def ofOption {α : Type} (f : α → Json) : Option α → Json
  | none => .null
  | some a => f a

def ofList {α : Type} (f : α → Json) (items : List α) : Json := .array (items.map f)

/-! ## The text of a value -/

def hexPair (n : Nat) : List Char := [Nat.digitChar (n / 16 % 16), Nat.digitChar (n % 16)]

def escapeChar (c : Char) : List Char :=
  if c = '"' then ['\\', '"']
  else if c = '\\' then ['\\', '\\']
  else if c = '\n' then ['\\', 'n']
  else if c = '\r' then ['\\', 'r']
  else if c = '\t' then ['\\', 't']
  else if c.toNat = 8 then ['\\', 'b']
  else if c.toNat = 12 then ['\\', 'f']
  else if c.toNat < 32 then '\\' :: 'u' :: '0' :: '0' :: hexPair c.toNat
  else [c]

def stringChars (s : String) : List Char := '"' :: (s.toList.flatMap escapeChar ++ ['"'])

def numberChars : JsonNumber → List Char
  | .whole i => Text.intChars i
  | .real x => x.jsonChars

mutual

def chars : Json → List Char
  | .null => "null".toList
  | .bool true => "true".toList
  | .bool false => "false".toList
  | .number n => numberChars n
  | .string s => stringChars s
  | .array [] => ['[', ']']
  | .array (x :: xs) => '[' :: (chars x ++ itemsChars xs)
  | .object [] => ['\x7b', '\x7d']
  | .object ((k, v) :: ms) => '\x7b' :: (stringChars k ++ ':' :: (chars v ++ membersChars ms))

/-- The items after the first one, and the closing bracket. -/
def itemsChars : List Json → List Char
  | [] => [']']
  | x :: xs => ',' :: (chars x ++ itemsChars xs)

/-- The members after the first one, and the closing brace. -/
def membersChars : List (String × Json) → List Char
  | [] => ['\x7d']
  | (k, v) :: ms => ',' :: (stringChars k ++ ':' :: (chars v ++ membersChars ms))

end

def text (j : Json) : String := String.ofList j.chars

end Json

end DoubleEntry
