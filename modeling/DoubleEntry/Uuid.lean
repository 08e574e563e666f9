import DoubleEntry.Text.Basic

/-!
# Universally unique identifiers

A `Uuid` is 128 bits, written as lower-case hexadecimal in groups of 8, 4, 4, 4 and 12 digits.
`read` accepts the written form in either case, the same in braces or after `urn:uuid:`, and 32
digits without hyphens. When a text is refused, the error names the first character that can stand
in no identifier, else what is wrong with the number or the sizes of the groups.
-/

namespace DoubleEntry

/-- A 128-bit identifier. -/
structure Uuid where
  bits : BitVec 128
deriving DecidableEq

namespace Uuid

instance : Ord Uuid := ⟨fun a b => compare a.bits.toNat b.bits.toNat⟩

instance : Std.TransOrd Uuid :=
  inferInstanceAs <| Std.TransCmp (compareOn fun u : Uuid => u.bits.toNat)

instance : Std.LawfulEqOrd Uuid where
  eq_of_compare {a b} h := by
    have hbits : a.bits.toNat = b.bits.toNat := Std.LawfulEqOrd.eq_of_compare h
    cases a; cases b
    exact congrArg Uuid.mk (BitVec.eq_of_toNat_eq hbits)

def nil : Uuid := ⟨0⟩

/-! ## Writing -/

/-- The lower-case hexadecimal digit of a number below 16. -/
def hexChar (n : Nat) : Char := Nat.digitChar n

/-- `count` hexadecimal digits of `n`, the last ones. -/
def hexChars (n : Nat) : Nat → List Char
  | 0 => []
  | count + 1 => hexChars (n / 16) count ++ [hexChar (n % 16)]

def chars (u : Uuid) : List Char :=
  let ds := hexChars u.bits.toNat 32
  ds.take 8 ++ '-' :: ((ds.drop 8).take 4 ++ '-' :: ((ds.drop 12).take 4 ++ '-' ::
    ((ds.drop 16).take 4 ++ '-' :: ds.drop 20)))

instance : ToString Uuid := ⟨fun u => String.ofList u.chars⟩

/-! ## Reading -/

/-- Why a text is not an identifier. Positions and lengths are in bytes; groups count from 0. -/
inductive ReadError where
  | character (found : Char) (position : Nat)
  | length (found : Nat)
  | groupCount (found : Nat)
  | groupLength (group expected found : Nat)
deriving DecidableEq, Repr

/-- The wording of an identifier that cannot be read. -/
def ReadError.message : ReadError → String
  | .character c i => s!"invalid character: found `{c}` at {i}"
  | .length n => s!"invalid length: found {n}"
  | .groupCount n => s!"invalid group count: expected 5, found {n}"
  | .groupLength g e n => s!"invalid group length in group {g}: expected {e}, found {n}"

/-- The value of a hexadecimal digit of either case. -/
def hexValue? (c : Char) : Option Nat :=
  if c.isDigit then some (c.toNat - '0'.toNat)
  else if 'a' ≤ c && c ≤ 'f' then some (c.toNat - 'a'.toNat + 10)
  else if 'A' ≤ c && c ≤ 'F' then some (c.toNat - 'A'.toNat + 10)
  else none

def hexNumber? : Nat → List Char → Option Nat
  | acc, [] => some acc
  | acc, c :: cs => (hexValue? c).bind fun d => hexNumber? (acc * 16 + d) cs

def readSimple (cs : List Char) : Option Uuid :=
  if cs.length = 32 then (hexNumber? 0 cs).map fun n => ⟨BitVec.ofNat 128 n⟩ else none

/-- Thirty-two digits with hyphens after the 8th, 12th, 16th and 20th. -/
def readHyphenated (cs : List Char) : Option Uuid :=
  if cs.length = 36 ∧ cs[8]? = some '-' ∧ cs[13]? = some '-' ∧ cs[18]? = some '-' ∧
      cs[23]? = some '-' then
    readSimple (cs.take 8 ++ (cs.drop 9).take 4 ++ (cs.drop 14).take 4 ++ (cs.drop 19).take 4 ++
      cs.drop 24)
  else none

/-- The text inside braces or after `urn:uuid:`, with the number of bytes stripped in front. -/
def unwrap (cs : List Char) : Option (List Char × Nat) :=
  match cs with
  | '{' :: rest => if rest.getLast? = some '}' then some (rest.dropLast, 1) else none
  | _ =>
    let lead := cs.take 9
    if lead.map Char.toLower = "urn:uuid:".toList then some (cs.drop 9, 9) else none

/-- Positions of the hyphens, or the first character that is neither a digit nor a hyphen. -/
def hyphens (position : Nat) : List Char → Except ReadError (List Nat)
  | [] => .ok []
  | c :: cs =>
    if c = '-' then (hyphens (position + 1) cs).map (position :: ·)
    else if (hexValue? c).isSome then hyphens (position + 1) cs
    else .error (.character c position)

/-- The first group whose end is not where it should be; the last group when all four are. -/
def firstBadGroup (total : Nat) (found : List Nat) : ReadError :=
  match found with
  | [a, b, c, d] =>
    if a ≠ 8 then .groupLength 0 8 a
    else if b ≠ 13 then .groupLength 1 4 (b - 9)
    else if c ≠ 18 then .groupLength 2 4 (c - 14)
    else if d ≠ 23 then .groupLength 3 4 (d - 19)
    else .groupLength 4 12 (total - 24)
  | _ => .groupCount (found.length + 1)

/-- What is wrong with a text that is no identifier. A text of 32 or 36 bytes is held to the form
without a wrapper, whatever it begins with. The 36 bytes inside a wrapper are an identifier of their
own, so positions count from their start; inside any other wrapper they count from the start of the
text. -/
def diagnose (cs : List Char) : ReadError :=
  let total := Text.byteLength cs
  if total = 0 ∨ 45 < total then .length total
  else
    let wrapped := if total = 32 ∨ total = 36 then none else unwrap cs
    let (body, offset) := match wrapped with
      | some (inner, stripped) => (inner, if Text.byteLength inner = 36 then 0 else stripped)
      | none => (cs, 0)
    match hyphens offset body with
    | .error e => e
    | .ok found =>
      if found.isEmpty ∧ wrapped.isNone ∧ total ≠ 36 then .length total
      else firstBadGroup total (found.map (· - offset))

def read (cs : List Char) : Except ReadError Uuid :=
  let body := match unwrap cs with
    | some (inner, _) => readHyphenated inner
    | none => (readHyphenated cs).or (readSimple cs)
  match body with
  | some u => .ok u
  | none => .error (diagnose cs)

end Uuid

end DoubleEntry
