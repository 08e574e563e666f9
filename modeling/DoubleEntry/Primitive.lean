import DoubleEntry.Decimal.Text
import DoubleEntry.Power
import DoubleEntry.Text.Basic
import DoubleEntry.Uuid

/-!
# Primitive values

What a record is made of: identifiers, sides and layers, currencies and amounts, and counters. A
value that cannot be formed is refused with a `ValueError` before any posting is looked at.

* Each kind of record has identifiers of its own type, so that an account cannot stand where a
  journal is expected.
* Every entry stands on the debit or the credit `Side`; the side on which an account's balance
  counts as positive is its normal side. The `Layer` of an entry tells whether it is settled or
  pending.
* A `Currency` is a code of two to ten ASCII capitals and digits. `Units` are an amount that is not
  negative: entries carry no sign, and whether an amount raises or lowers a balance follows from
  the side it is posted to. An amount out of a table may be written with more zeros at its end than
  a decimal has room for; they are kept for its written form and count for nothing else.
* Versions and sequence numbers are 64-bit counters that have to grow. A step that would take one
  past its last value does not go on: that is an `overflow`, beside the errors a step answers with.
  The same goes for a number out of a table that outgrows a decimal on the way, or its written form.
-/

namespace DoubleEntry

/-! ## Values that cannot be formed -/

/-- Why a primitive value is refused. -/
inductive ValueError where
  | invalidCurrency (code : String)
  | invalidUnits (reason : String)
  | unitsOverflow (total added : Decimal)
  | invalidId (reason : String)
  | validation (reason : String)
deriving DecidableEq

def ValueError.message : ValueError → String
  | .invalidCurrency code => s!"invalid currency code '{code}'"
  | .invalidUnits reason => s!"invalid units: {reason}"
  | .unitsOverflow total added => s!"units overflow adding {added} to {total}"
  | .invalidId reason => s!"invalid identifier: {reason}"
  | .validation reason => s!"validation failed: {reason}"

def ValueError.kind : ValueError → String
  | .invalidCurrency _ => "InvalidCurrency"
  | .invalidUnits _ => "InvalidUnits"
  | .unitsOverflow _ _ => "UnitsOverflow"
  | .invalidId _ => "InvalidId"
  | .validation _ => "Validation"

/-! ## Identifiers -/

/-- The kinds of records with identifiers. -/
inductive IdKind where
  | journal
  | account
  | template
  | transaction
  | entry
deriving DecidableEq, Repr

/-- How errors call the identifiers of a kind. -/
def IdKind.title : IdKind → String
  | .journal => "JournalId"
  | .account => "AccountId"
  | .template => "TxTemplateId"
  | .transaction => "TransactionId"
  | .entry => "EntryId"

/-- An identifier of a record of kind `k`. -/
structure Id (k : IdKind) where
  uuid : Uuid
deriving DecidableEq

namespace Id

instance {k : IdKind} : Ord (Id k) := ⟨fun a b => compare a.uuid b.uuid⟩

instance {k : IdKind} : Std.TransOrd (Id k) :=
  inferInstanceAs <| Std.TransCmp (compareOn fun i : Id k => i.uuid)

instance {k : IdKind} : Std.LawfulEqOrd (Id k) where
  eq_of_compare {a b} h := by
    have huuid : a.uuid = b.uuid := Std.LawfulEqOrd.eq_of_compare h
    cases a; cases b
    exact congrArg Id.mk huuid

instance {k : IdKind} : ToString (Id k) := ⟨fun i => toString i.uuid⟩

/-- Read an identifier of kind `k`. -/
def ofString (k : IdKind) (text : String) : Except ValueError (Id k) :=
  match Uuid.read text.toList with
  | .ok u => .ok ⟨u⟩
  | .error e => .error (.invalidId s!"{k.title}: {e.message}")

end Id

abbrev JournalId := Id .journal

abbrev AccountId := Id .account

abbrev TemplateId := Id .template

abbrev TransactionId := Id .transaction

abbrev EntryId := Id .entry

/-! ## Sides and layers -/

/-- Debit or credit. -/
inductive Side where
  | debit
  | credit
deriving DecidableEq, Repr

/-- Stage of settlement; pending comes first. -/
inductive Layer where
  | pending
  | settled
deriving DecidableEq, Repr

/-- Read a word in any case, with blanks around it. -/
def readWordOf {α : Type} (noun : String) (words : List (String × α)) (text : String) :
    Except ValueError α :=
  let word := Text.upperAscii (Text.trim text)
  match words.lookup word with
  | some a => .ok a
  | none => .error (.validation s!"unknown {noun}: '{word}'")

namespace Side

def opposite : Side → Side
  | .debit => .credit
  | .credit => .debit

def word : Side → String
  | .debit => "DEBIT"
  | .credit => "CREDIT"

def words : List (String × Side) := [("DEBIT", .debit), ("CREDIT", .credit)]

instance : ToString Side := ⟨word⟩

def readDirection : String → Except ValueError Side := readWordOf "direction" words

def readNormalBalance : String → Except ValueError Side := readWordOf "normal balance" words

end Side

namespace Layer

def rank : Layer → Nat
  | .pending => 0
  | .settled => 1

instance : Ord Layer := ⟨fun a b => compare a.rank b.rank⟩

instance : Std.TransOrd Layer := inferInstanceAs <| Std.TransCmp (compareOn Layer.rank)

instance : Std.LawfulEqOrd Layer where
  eq_of_compare {a b} h := by
    cases a <;> cases b <;> first | rfl | exact absurd h (by decide)

def all : List Layer := [.pending, .settled]

def word : Layer → String
  | .pending => "PENDING"
  | .settled => "SETTLED"

def words : List (String × Layer) := [("PENDING", .pending), ("SETTLED", .settled)]

instance : ToString Layer := ⟨word⟩

def ofString : String → Except ValueError Layer := readWordOf "layer" words

end Layer

/-! ## Currencies -/

/-- Two to ten capitals and digits. -/
def IsCurrencyCode (code : String) : Prop :=
  2 ≤ code.toList.length ∧ code.toList.length ≤ 10 ∧
    (code.toList.all fun c => c.isUpper || c.isDigit) = true

instance (code : String) : Decidable (IsCurrencyCode code) := by
  unfold IsCurrencyCode; infer_instance

/-- A currency or asset code. -/
structure Currency where
  code : String
  isCode : IsCurrencyCode code
deriving DecidableEq

namespace Currency

instance : Ord Currency := ⟨fun a b => compare a.code b.code⟩

instance : Std.TransOrd Currency := inferInstanceAs <| Std.TransCmp (compareOn Currency.code)

instance : Std.LawfulEqOrd Currency where
  eq_of_compare {a b} h := by
    have hcode : a.code = b.code := Std.LawfulEqOrd.eq_of_compare h
    cases a; cases b
    cases hcode
    rfl

/-- The currency of a code in any case, with blanks around it. -/
def ofString (text : String) : Except ValueError Currency :=
  let code := Text.upperAscii (Text.trim text)
  if h : IsCurrencyCode code then .ok ⟨code, h⟩ else .error (.invalidCurrency (Text.trim text))

instance : ToString Currency := ⟨Currency.code⟩

end Currency

/-! ## Units -/

/-- An amount that is not negative. -/
structure Units where
  amount : Decimal
  nonneg : 0 ≤ amount.coeff
  /-- Zeros written after the last fraction digit of the amount. -/
  zeros : Nat := 0
deriving DecidableEq

namespace Units

def zero : Units := { amount := Decimal.zero, nonneg := by decide }

/-- The amount, unless it is negative. -/
def ofDecimal (d : Decimal) : Except ValueError Units :=
  if h : 0 ≤ d.coeff then .ok { amount := d, nonneg := h }
  else .error (.invalidUnits s!"cannot be negative: {d}")

/-- The amount, written with zeros after its last fraction digit, unless it is negative. -/
def ofStored (d : Decimal) (zeros : Nat) : Except ValueError Units :=
  if h : 0 ≤ d.coeff then .ok { amount := d, nonneg := h, zeros := zeros }
  else .error (.invalidUnits ("cannot be negative: " ++ String.ofList (d.charsWith zeros)))

/-- The amount written in a text, to the last digit. -/
def ofString (text : String) : Except ValueError Units :=
  match Decimal.readExact (Text.trimChars text.toList) with
  | .error e => .error (.invalidUnits s!"'{text}': {e.message}")
  | .ok d => ofDecimal d

def isZero (u : Units) : Bool := u.amount.isZero

/-- Compare amounts, whatever their scales. -/
def compare (a b : Units) : Ordering := a.amount.compare b.amount

/-- The sum of two amounts, if it fits. -/
def add (a b : Units) : Except ValueError Units :=
  match h : a.amount.add b.amount with
  | some d => .ok { amount := d, nonneg := Decimal.add_nonneg a.nonneg b.nonneg h }
  | none => .error (.unitsOverflow a.amount b.amount)

/-- The most fraction digits that an amount can be written with. -/
def maxWritten : Nat := 30

/-- The amount has few enough fraction digits to be written. -/
def isWritable (u : Units) : Bool := decide (u.amount.scale + u.zeros ≤ maxWritten)

def chars (u : Units) : List Char := u.amount.charsWith u.zeros

instance : ToString Units := ⟨fun u => String.ofList u.chars⟩

end Units

/-! ## Counters -/

/-- Why a step has no result: an error to answer with, or a number past its greatest value. -/
inductive Failure (ε : Type) where
  | error (e : ε)
  | overflow
deriving DecidableEq

def Failure.map {ε δ : Type} (f : ε → δ) : Failure ε → Failure δ
  | .error e => .error (f e)
  | .overflow => .overflow

/-- A step that fails with an error only. -/
def Failure.lift {ε δ α : Type} (f : ε → δ) : Except ε α → Except (Failure δ) α
  | .ok a => .ok a
  | .error e => .error (.error (f e))

def nextCount {ε : Type} (n : UInt64) : Except (Failure ε) UInt64 :=
  if n.toNat + 1 < pow2 64 then .ok (n + 1) else .error .overflow

end DoubleEntry
