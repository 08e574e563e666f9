import DoubleEntry.Json.Basic
import DoubleEntry.Power
import DoubleEntry.Text.Basic
import DoubleEntry.Text.Quoted

/-!
# Decoding JSON values

A `Decoder α` takes a JSON value to an `α` or says what does not fit. The readers of single values
come first; `Record` then reads the members of an object:

* the members present are read in the order of their names, and the first that does not fit is the
  error;
* then the first required member that is missing, in the order of declaration, is the error;
* members that are not declared are skipped.

A record may also be given as an array of its values in the order of declaration, all of them.
-/

namespace DoubleEntry

/-! ## Errors -/

/-- Why a JSON value does not fit. -/
inductive DecodeError where
  | invalidType (found expected : String)
  | invalidValue (found expected : String)
  | invalidLength (found : Nat) (expected : String)
  | unknownVariant (found : String) (expected : List String)
  | missingField (name : String)
  | custom (text : String)
deriving DecidableEq, Repr

namespace DecodeError

/-- Names in backquotes: one, one of two, or one of a list. -/
def oneOf : List String → String
  | [] => "nothing"
  | [a] => s!"`{a}`"
  | [a, b] => s!"`{a}` or `{b}`"
  | names => "one of " ++ Text.joinWith ", " (names.map fun n => s!"`{n}`")

/-- The wording of a value that does not fit. -/
def message : DecodeError → String
  | .invalidType f e => s!"invalid type: {f}, expected {e}"
  | .invalidValue f e => s!"invalid value: {f}, expected {e}"
  | .invalidLength n e => s!"invalid length {n}, expected {e}"
  | .unknownVariant f names => s!"unknown variant `{f}`, expected {oneOf names}"
  | .missingField n => s!"missing field `{n}`"
  | .custom t => t

end DecodeError

/-- How an error names the value it found. -/
def Json.describe : Json → String
  | .null => "null"
  | .bool true => "boolean `true`"
  | .bool false => "boolean `false`"
  | .number (.whole i) => s!"integer `{i}`"
  | .number (.real x) => s!"floating point `{String.ofList x.jsonChars}`"
  | .string s => s!"string {Text.quoted s}"
  | .array _ => "sequence"
  | .object _ => "map"

/-- A reader of JSON values. -/
abbrev Decoder (α : Type) := Json → Except DecodeError α

namespace Decode

/-! ## Single values -/

/-- A value of another kind than expected. -/
def mismatch {α : Type} (j : Json) (expected : String) : Except DecodeError α :=
  .error (.invalidType j.describe expected)

def any : Decoder Json := .ok

def string : Decoder String
  | .string s => .ok s
  | j => mismatch j "a string"

def bool : Decoder Bool
  | .bool b => .ok b
  | j => mismatch j "a boolean"

def integer (lo hi : Int) (expected : String) : Decoder Int
  | .number (.whole i) =>
    if lo ≤ i ∧ i ≤ hi then .ok i
    else .error (.invalidValue (Json.describe (.number (.whole i))) expected)
  | j => mismatch j expected

def int64 : Decoder Int := integer (-(pow2 63 : Int)) (pow2 63 - 1) "i64"

def word64 : Decoder UInt64 := fun j =>
  (integer 0 (pow2 64 - 1) "u64" j).map fun i => UInt64.ofNat i.toNat

def word32 : Decoder UInt32 := fun j =>
  (integer 0 (pow2 32 - 1) "u32" j).map fun i => UInt32.ofNat i.toNat

/-- Null, or a value. -/
def optional {α : Type} (d : Decoder α) : Decoder (Option α)
  | .null => .ok none
  | j => (d j).map some

def list {α : Type} (d : Decoder α) : Decoder (List α)
  | .array xs => xs.mapM d
  | j => mismatch j "a sequence"

def members {α : Type} (d : Decoder α) : Decoder (NameMap α)
  | .object ms => do
    let rows ← ms.mapM fun (k, v) => (d v).map (k, ·)
    pure (.ofList rows)
  | j => mismatch j "a map"

/-- A string read further by a reader with errors of its own. -/
def parsed {ε α : Type} (read : String → Except ε α) (message : ε → String)
    (expected : String) : Decoder α
  | .string s =>
    match read s with
    | .ok a => .ok a
    | .error e => .error (.custom (message e))
  | j => mismatch j expected

/-- One of several names, each standing for a value. -/
def variantNamed {α : Type} (names : List (String × α)) (s : String) : Except DecodeError α :=
  match names.lookup s with
  | some a => .ok a
  | none => .error (.unknownVariant s (names.map Prod.fst))

/-- One of several names, as a string or as the only member of an object with the value null. -/
def variant {α : Type} (names : List (String × α)) : Decoder α
  | .string s => variantNamed names s
  | .object [(s, v)] => do
    let a ← variantNamed names s
    match v with
    | .null => pure a
    | other => mismatch other "unit"
  | .object ms => .error (.invalidValue (Json.describe (.object ms)) "map with a single key")
  | j => mismatch j "string or map"

end Decode

/-! ## Records -/

/-- How the members of an object make up an `α`: the reading of one member, the assembly from all
of them, and the assembly from an array. -/
structure Record (α : Type) where
  size : Nat
  check : String → Json → Except DecodeError Unit
  build : (String → Option Json) → Except DecodeError α
  fromItems : String → Nat → List Json → Except DecodeError (α × List Json)

namespace Record

protected def pure {α : Type} (a : α) : Record α where
  size := 0
  check _ _ := .ok ()
  build _ := .ok a
  fromItems _ _ items := .ok (a, items)

/-- The members of one record and then those of another. -/
protected def seq {α β : Type} (f : Record (α → β)) (x : Record α) : Record β where
  size := f.size + x.size
  check name j := do f.check name j; x.check name j
  build get := do
    let g ← f.build get
    let a ← x.build get
    pure (g a)
  fromItems expected index items := do
    let (g, items) ← f.fromItems expected index items
    let (a, items) ← x.fromItems expected (index + f.size) items
    pure (g a, items)

instance : Applicative Record where
  pure := Record.pure
  seq f x := Record.seq f (x ())

/-- One member; `absent` stands for a missing one, if it may be missing. -/
def field {α : Type} (name : String) (d : Decoder α) (absent : Option α) : Record α where
  size := 1
  check k j := if k == name then discard (d j) else .ok ()
  build get :=
    match get name, absent with
    | some j, _ => d j
    | none, some a => .ok a
    | none, none => .error (.missingField name)
  fromItems expected index
    | [] => .error (.invalidLength index expected)
    | j :: items => (d j).map (·, items)

def required {α : Type} (name : String) (d : Decoder α) : Record α := field name d none

/-- A member that may be missing or null. -/
def optional {α : Type} (name : String) (d : Decoder α) : Record (Option α) :=
  field name (Decode.optional d) (some none)

/-- The name of a record in errors about its length. -/
def sizedName {α : Type} (r : Record α) (title : String) : String :=
  if r.size = 1 then s!"{title} with 1 element" else s!"{title} with {r.size} elements"

def ofMembers {α : Type} (r : Record α) (ms : List (String × Json)) : Except DecodeError α := do
  ms.forM fun (k, v) => r.check k v
  r.build fun name => ms.lookup name

def ofItems {α : Type} (r : Record α) (title : String) (items : List Json) :
    Except DecodeError α := do
  let (a, rest) ← r.fromItems (r.sizedName title) 0 items
  if rest.isEmpty then pure a
  else throw (.invalidLength items.length "fewer elements in array")

/-- Read a record from an object or an array. -/
def decode {α : Type} (title : String) (r : Record α) : Decoder α
  | .object ms => r.ofMembers ms
  | .array items => r.ofItems title items
  | j => Decode.mismatch j title

end Record

end DoubleEntry
