import DoubleEntry.Database.Store
import DoubleEntry.Proofs.Calendar
import DoubleEntry.Proofs.Database.Amounts
import DoubleEntry.Proofs.Template.Stored

/-!
# What is bound and what is read

Values that are bound to a statement and found in a column again. A word of 64 bits is bound bit by
bit as a signed number, so from `2 ^ 63` on as a negative one (`ofWord64_of_le`). Instants are cut
to the microsecond, once and for all (`toMicros_toMicros`), and zeros lose their fraction digits.
What else a balance row holds is read as it was (`readLocked_of_balanceRow`).
-/

namespace DoubleEntry

/-! ## Instants -/

namespace Timestamp

/-- The instant with its leap second carried into the next one. -/
def carryLeap (t : Timestamp) : Option Timestamp :=
  t.carrySeconds (t.nano / nanosPerSecond) (t.nano % nanosPerSecond)

/-- The instant cut to the microsecond. -/
def cutMicros (t : Timestamp) : Option Timestamp :=
  let micros := if t.isFrom2000 then t.nano / 1000 else (t.nano + 999) / 1000
  t.carrySeconds (micros / 1000000) (micros % 1000000 * 1000)

theorem toMicros_eq (t : Timestamp) :
    t.toMicros = ((t.carryLeap.getD t).cutMicros).getD (t.carryLeap.getD t) := rfl

theorem nano_of_carrySeconds {t u : Timestamp} {carry nano : Nat}
    (h : t.carrySeconds carry nano = some u) : u.nano = nano := by
  unfold carrySeconds at h
  split at h
  · exact (Calendar.make?_eq_some h).2
  · obtain ⟨d, -, h⟩ := Option.bind_eq_some_iff.mp h
    exact (Calendar.make?_eq_some h).2

theorem carrySeconds_zero (t : Timestamp) : t.carrySeconds 0 t.nano = some t := by
  unfold carrySeconds
  rw [Nat.add_zero, if_pos t.second_lt]
  unfold make?
  rw [dif_pos t.second_lt, dif_pos t.nano_lt]

theorem carryLeap_of_lt {t : Timestamp} (h : t.nano < nanosPerSecond) : t.carryLeap = some t := by
  unfold carryLeap
  rw [Nat.div_eq_of_lt h, Nat.mod_eq_of_lt h, carrySeconds_zero]

/-- Whole microseconds stay. -/
theorem toMicros_of_whole {t : Timestamp} {k : Nat} (hk : k < 1000000) (h : t.nano = k * 1000) :
    t.toMicros = t := by
  have hlt : t.nano < nanosPerSecond := by
    unfold nanosPerSecond
    omega
  have hcut : t.cutMicros = some t := by
    unfold cutMicros
    have hmicros : (if t.isFrom2000 then t.nano / 1000 else (t.nano + 999) / 1000) = k := by
      split <;> omega
    dsimp only
    rw [hmicros, Nat.div_eq_of_lt hk, Nat.mod_eq_of_lt hk, ← h, carrySeconds_zero]
  rw [toMicros_eq, carryLeap_of_lt hlt, Option.getD_some, hcut, Option.getD_some]

/-- Cut times stay as they are, at the end of the calendar too, where there is no next day to carry
a leap second into. -/
theorem toMicros_toMicros (t : Timestamp) : t.toMicros.toMicros = t.toMicros := by
  cases hcut : (t.carryLeap.getD t).cutMicros with
  | some u =>
    have hu : t.toMicros = u := by rw [toMicros_eq, hcut, Option.getD_some]
    rw [hu]
    exact toMicros_of_whole (Nat.mod_lt _ (by decide)) (nano_of_carrySeconds hcut)
  | none =>
    have hplain : t.toMicros = t.carryLeap.getD t := by rw [toMicros_eq, hcut, Option.getD_none]
    cases hleap : t.carryLeap with
    | some p =>
      rw [hleap, Option.getD_some] at hcut hplain
      have hlt : p.nano < nanosPerSecond := by
        rw [nano_of_carrySeconds hleap]
        exact Nat.mod_lt _ (by decide)
      rw [hplain, toMicros_eq, carryLeap_of_lt hlt, Option.getD_some, hcut, Option.getD_none]
    | none =>
      rw [hleap, Option.getD_none] at hplain
      rw [hplain, hplain]

end Timestamp

/-! ## Words -/

theorem Layer.ofString_word (l : Layer) : Layer.ofString l.word = .ok l := by
  cases l <;> rfl

namespace Database

/-! ## Keys -/

/-- A key is told by the values that are bound for it. -/
theorem keyParams_inj {k k' : BalanceKey} (h : Statement.keyParams k = Statement.keyParams k') :
    k = k' := by
  obtain ⟨account, journal, currency, layer⟩ := k
  obtain ⟨account', journal', currency', layer'⟩ := k'
  simp only [Statement.keyParams, SqlValue.ofId, List.cons.injEq, SqlValue.uuid.injEq,
    SqlValue.text.injEq, and_true] at h
  obtain ⟨haccount, hjournal, hcurrency, hlayer⟩ := h
  have haccount' : account = account' := congrArg Id.mk haccount
  have hjournal' : journal = journal' := congrArg Id.mk hjournal
  have hcurrency' : currency = currency' := by
    cases currency
    cases currency'
    cases hcurrency
    rfl
  have hlayer' : layer = layer' := by
    have hread := layer.ofString_word
    rw [hlayer, layer'.ofString_word] at hread
    exact (Except.ok.inj hread).symm
  rw [haccount', hjournal', hcurrency', hlayer']

/-! ## Words -/

theorem ofWord64_of_lt {w : UInt64} (h : w.toNat < pow2 63) :
    SqlValue.ofWord64 w = .int w.toNat := by
  have hlt : 2 * w.toBitVec.toNat < 2 ^ 64 := by
    rw [pow2_63] at h
    have hnat : w.toBitVec.toNat = w.toNat := rfl
    omega
  exact congrArg SqlValue.int (BitVec.toInt_eq_toNat_of_lt hlt)

theorem ofWord64_of_le {w : UInt64} (h : pow2 63 ≤ w.toNat) :
    SqlValue.ofWord64 w = .int (w.toNat - pow2 64) := by
  have hle : ¬ 2 * w.toBitVec.toNat < 2 ^ 64 := by
    rw [pow2_63] at h
    have hnat : w.toBitVec.toNat = w.toNat := rfl
    omega
  have hint : w.toBitVec.toInt = w.toNat - pow2 64 := by
    rw [BitVec.toInt, if_neg hle]
    rfl
  exact congrArg SqlValue.int hint

/-- A word other than zero is bound as a number other than zero. -/
theorem asInt_ofWord64_ne_zero {w : UInt64} (h : w ≠ 0) :
    ∃ i, asInt (.ofWord64 w) = .ok i ∧ i ≠ 0 := by
  refine ⟨_, rfl, fun hzero => h ?_⟩
  have hbits : w.toBitVec = 0 := BitVec.eq_of_toInt_eq (hzero.trans BitVec.toInt_zero.symm)
  exact UInt64.toBitVec_inj.mp hbits

end Database

/-! ## Amounts -/

/-- An amount as it is read: a zero without fraction digits. -/
def Units.asRead (u : Units) : Units := if u.isZero then .zero else u

namespace Database

theorem units_of_ofUnits {row : Row} {column : String} {u : Units} (hzeros : u.zeros = 0)
    (hcolumn : OrdMap.get? column row = some (.ofUnits u)) : row.units column = .ok u.asRead := by
  have hstored : row.get column asStored =
      .ok ⟨if u.isZero then .zero else u.amount, 0⟩ := by
    rw [Row.get, hcolumn, Option.getD_some]
    show Except.mapError _ (Except.mapError _ (Numeric.ofUnits u).toDecimal) = _
    rw [Numeric.toDecimal_ofUnits hzeros]
    rfl
  have hread : Units.ofStored (if u.isZero then .zero else u.amount) 0 = .ok u.asRead := by
    unfold Units.asRead
    cases u.isZero with
    | true => rfl
    | false =>
      rw [if_neg Bool.false_ne_true, if_neg Bool.false_ne_true, Units.ofStored, dif_pos u.nonneg]
      cases u
      cases hzeros
      rfl
  rw [Row.units, hstored, ok_bind]
  dsimp only
  rw [hread]
  rfl

end Database

/-! ## Balance rows -/

/-- A balance row as it is read. -/
def BalanceSnapshot.asRead (b : BalanceSnapshot) : BalanceSnapshot :=
  { b with
    debitTotal := b.debitTotal.asRead
    creditTotal := b.creditTotal.asRead
    createdAt := b.createdAt.toMicros
    modifiedAt := b.modifiedAt.toMicros }

namespace Database

/-- A row of the balances, as it was updated. -/
structure BalanceRow (b : BalanceSnapshot) (row : Row) : Prop where
  accountId : (Statement.updateBalance b.key b).Shows row 0 "account_id"
  journalId : (Statement.updateBalance b.key b).Shows row 1 "journal_id"
  currency : (Statement.updateBalance b.key b).Shows row 2 "currency"
  layer : (Statement.updateBalance b.key b).Shows row 3 "layer"
  debitTotal : (Statement.updateBalance b.key b).Shows row 4 "debit_total"
  creditTotal : (Statement.updateBalance b.key b).Shows row 5 "credit_total"
  version : (Statement.updateBalance b.key b).Shows row 6 "version"
  lastTransactionId : (Statement.updateBalance b.key b).Shows row 7 "last_transaction_id"
  createdAt : (Statement.updateBalance b.key b).Shows row 8 "created_at"
  modifiedAt : (Statement.updateBalance b.key b).Shows row 9 "modified_at"

/-- A row that was never posted to. -/
def FreshRow (row : Row) : Prop := OrdMap.get? "version" row = some (.int 0)

theorem parse_eq_ok {α : Type} {row : Row} {column text : String}
    {read : String → Except ValueError α} {a : α} (htext : row.get column asText = .ok text)
    (hread : read text = .ok a) : row.parse column read = .ok a := by
  rw [Row.parse, htext, ok_bind, hread]
  rfl

theorem readBalance_of_balanceRow {b : BalanceSnapshot} {row : Row} (h : BalanceRow b row)
    (hdebit : b.debitTotal.zeros = 0) (hcredit : b.creditTotal.zeros = 0) :
    readBalance row = .ok b.asRead := by
  have hlast : row.get "last_transaction_id" (orNull asId) = .ok (some b.lastTransactionId) :=
    h.lastTransactionId.get rfl rfl
  have hcreated : row.get "created_at" asTimestamp = .ok b.createdAt.toMicros :=
    h.createdAt.get rfl rfl
  have haccount : row.get "account_id" asId = .ok b.accountId := h.accountId.get rfl rfl
  have hjournal : row.get "journal_id" asId = .ok b.journalId := h.journalId.get rfl rfl
  have hcurrency : row.parse "currency" Currency.ofString = .ok b.currency :=
    parse_eq_ok (h.currency.get rfl rfl) b.currency.ofString_code
  have hlayer : row.parse "layer" Layer.ofString = .ok b.layer :=
    parse_eq_ok (h.layer.get rfl rfl) b.layer.ofString_word
  have hdebits : row.units "debit_total" = .ok b.debitTotal.asRead :=
    units_of_ofUnits hdebit h.debitTotal
  have hcredits : row.units "credit_total" = .ok b.creditTotal.asRead :=
    units_of_ofUnits hcredit h.creditTotal
  have hversion : row.get "version" asWord64 = .ok b.version :=
    h.version.get rfl (asWord64_ofWord64 _)
  have hmodified : row.get "modified_at" asTimestamp = .ok b.modifiedAt.toMicros :=
    h.modifiedAt.get rfl rfl
  simp only [readBalance, hlast, hcreated, haccount, hjournal, hcurrency, hlayer, hdebits,
    hcredits, hversion, hmodified, ok_bind]
  rfl

theorem readLocked_of_balanceRow {b : BalanceSnapshot} {row : Row} (h : BalanceRow b row)
    (hversion : b.version ≠ 0) (hdebit : b.debitTotal.zeros = 0)
    (hcredit : b.creditTotal.zeros = 0) : readLocked row = .ok (some b.asRead) := by
  obtain ⟨i, hi, hne⟩ := asInt_ofWord64_ne_zero hversion
  have hcolumn : row.get "version" asInt = .ok i := h.version.get rfl hi
  rw [readLocked, hcolumn, ok_bind, if_neg hne, readBalance_of_balanceRow h hdebit hcredit]
  rfl

theorem readLocked_of_freshRow {row : Row} (h : FreshRow row) : readLocked row = .ok none := by
  have hcolumn : row.get "version" asInt = .ok 0 := by
    rw [Row.get, show OrdMap.get? "version" row = _ from h]
    rfl
  rw [readLocked, hcolumn, ok_bind, if_pos rfl]
  rfl

end Database

end DoubleEntry
