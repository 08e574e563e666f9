import DoubleEntry.Proofs.Engine.WellFormed

/-!
# Rows of their own

Journals, accounts and templates are created with an identifier and, a journal maybe without it, a
code. The store in memory refuses to create a row whose code is taken, and a journal or account
whose identifier is. It finds templates by their codes and does not look at the identifiers of
those it holds, so templates with different codes may share one.

Main statements: `RowKind.duplicatesIff_answer`, which rows are refused, and `RowKind.key_unique`,
what stored rows do not share.
-/

namespace DoubleEntry

open OrdMap

/-! ## Rows that are created -/

/-- A kind of rows that operations create. -/
inductive RowKind where
  | journal
  | account
  | template
deriving DecidableEq

namespace RowKind

def Row : RowKind → Type
  | .journal => Journal
  | .account => Account
  | .template => TxTemplate

/-- What the tables find a row by. -/
def Key : RowKind → Type
  | .journal => JournalId
  | .account => AccountId
  | .template => String

def uuid : (k : RowKind) → k.Row → Uuid
  | .journal, j => (Journal.id j).uuid
  | .account, a => (Account.id a).uuid
  | .template, t => (TxTemplate.id t).uuid

def code? : (k : RowKind) → k.Row → Option String
  | .journal, j => Journal.code j
  | .account, a => Account.code? a
  | .template, t => some (TxTemplate.code t)

def row? : (k : RowKind) → StoreState → k.Key → Option k.Row
  | .journal, s, id => s.journals.get? (κ := JournalId) id
  | .account, s, id => s.accounts.get? (κ := AccountId) id
  | .template, s, code => s.templates.get? (κ := String) code

/-- The call that stores a new row. -/
def create : (k : RowKind) → k.Row → StoreCall
  | .journal, j => .createJournal j
  | .account, a => .createAccount a
  | .template, t => .createTemplate t

/-- A stored row has the code of this one. -/
def SharesCode (k : RowKind) (s : StoreState) (row : k.Row) : Prop :=
  ∃ key other c, k.row? s key = some other ∧ k.code? other = some c ∧ k.code? row = some c

/-- A stored row has the identifier of this one. -/
def SharesId (k : RowKind) (s : StoreState) (row : k.Row) : Prop :=
  ∃ key other, k.row? s key = some other ∧ k.uuid other = k.uuid row

end RowKind

/-! ## Stored under what they are -/

/-- Rows are under their identifiers, templates under their codes, and the codes of journals and
accounts are indexed. -/
structure StoreState.Named (s : StoreState) : Prop where
  indexed : s.Indexed
  templates : ∀ code t, s.templates.get? code = some t → t.code = code

theorem named_interleave (asked : List (Ledger.Operation × Stamp)) (turns : List Turn) :
    (interleave asked turns).chronicle.state.Named :=
  ⟨(meets_rows_interleave asked turns).invariant,
    fun code t ht => ((closed_interleave asked turns).templates code t ht).1⟩

namespace Coded

variable {κ : IdKind} {α : Type} {id : α → Id κ} {code : α → Option String}
  {rows : OrdMap (Id κ) α} {codes : NameMap (Id κ)} {row : α}

theorem contains_id_iff (h : Coded id code rows codes) :
    rows.contains (id row) = true ↔ ∃ i other, rows.get? i = some other ∧
      (id other).uuid = (id row).uuid := by
  rw [contains_iff]
  constructor
  · rintro ⟨other, hother⟩
    exact ⟨_, other, hother, congrArg Id.uuid (h.row_id _ other hother)⟩
  · rintro ⟨i, other, hother, hid⟩
    have hi : i = id row := by
      rw [← h.row_id i other hother]
      exact congrArg Id.mk hid
    exact ⟨other, hi ▸ hother⟩

theorem contains_code_iff (h : Coded id code rows codes) {c : String} :
    codes.contains c = true ↔ ∃ i other, rows.get? i = some other ∧ code other = some c := by
  rw [contains_iff]
  exact exists_congr fun i => h.get?_iff

variable {i i' : Id κ} {other : α}

theorem key_eq_of_code (h : Coded id code rows codes) (hrow : rows.get? i = some row)
    (hother : rows.get? i' = some other) {c : String} (hc : code row = some c)
    (hc' : code other = some c) : i = i' :=
  Option.some.inj ((h.row_code i row c hrow hc).symm.trans (h.row_code i' other c hother hc'))

theorem key_eq_of_uuid (h : Coded id code rows codes) (hrow : rows.get? i = some row)
    (hother : rows.get? i' = some other) (huuid : (id row).uuid = (id other).uuid) : i = i' := by
  rw [← h.row_id i row hrow, ← h.row_id i' other hother]
  exact congrArg Id.mk huuid

end Coded

/-! ## Duplicates -/

/-- The result is a refusal exactly on a condition, and then one of a duplicate. -/
structure DuplicatesIff {α : Type} (r : StoreResult α) (condition : Prop) : Prop where
  refused : (∃ e, r = .error (.error e)) ↔ condition
  duplicate : ∀ e, r = .error (.error e) → ∃ what, e = .duplicateCode what

namespace DuplicatesIff

open StoreState (refuseIf)

variable {α β : Type}

theorem congr {r : StoreResult α} {condition condition' : Prop} (h : DuplicatesIff r condition)
    (hiff : condition ↔ condition') : DuplicatesIff r condition' :=
  ⟨h.refused.trans hiff, h.duplicate⟩

theorem refuseIf_bind {stands : Bool} {what : String} {f : Unit → StoreResult α} {condition : Prop}
    (h : DuplicatesIff (f ()) condition) :
    DuplicatesIff (refuseIf stands (.duplicateCode what) >>= f) (stands = true ∨ condition) := by
  cases stands with
  | true =>
    refine ⟨iff_of_true ⟨_, rfl⟩ (.inl rfl), fun e he => ?_⟩
    cases he
    exact ⟨what, rfl⟩
  | false => exact h.congr (or_iff_right Bool.false_ne_true).symm

theorem append (s : StoreState) (m : Moment) (events : List LedgerEvent) :
    DuplicatesIff (s.append m events) False := by
  have hnone : ∀ e, s.append m events ≠ .error (.error e) := fun e he => by
    cases StoreState.eq_overflow_of_append he
  exact ⟨iff_of_false (fun ⟨e, he⟩ => hnone e he) id, fun e he => absurd he (hnone e)⟩

theorem codesWith_bind {s : StoreState} {j : Journal} {f : NameMap JournalId → StoreResult α}
    (h : ∀ codes, DuplicatesIff (f codes) False) :
    DuplicatesIff (s.codesWith j >>= f)
      (∃ c, j.code = some c ∧ s.journalCodes.contains c = true) := by
  unfold StoreState.codesWith
  cases j.code with
  | none => exact (h _).congr (by simp)
  | some c =>
    have hnext : DuplicatesIff
        (refuseIf (s.journalCodes.contains c) (.duplicateCode s!"journal code '{c}'") >>=
          fun _ => f (s.journalCodes.put c j.id)) (s.journalCodes.contains c = true ∨ False) :=
      refuseIf_bind (h _)
    dsimp only
    unfold refuseIf at hnext ⊢
    cases hc : s.journalCodes.contains c <;> rw [hc] at hnext <;> exact hnext.congr (by simp [hc])

end DuplicatesIff

section Answers

variable {s : StoreState} (hs : s.Named) (m : Moment)
include hs

theorem duplicatesIff_createJournal (j : Journal) : DuplicatesIff (s.createJournal m j)
    (RowKind.journal.SharesCode s j ∨ RowKind.journal.SharesId s j) := by
  have hcode : (∃ c, j.code = some c ∧ s.journalCodes.contains c = true) ↔
      RowKind.journal.SharesCode s j := by
    simp only [hs.indexed.journals.contains_code_iff]
    exact ⟨fun ⟨c, hc, i, other, hi, ho⟩ => ⟨i, other, c, hi, ho, hc⟩,
      fun ⟨i, other, c, hi, ho, hc⟩ => ⟨c, hc, i, other, hi, ho⟩⟩
  refine (DuplicatesIff.refuseIf_bind (.codesWith_bind fun _ => .append _ _ _)).congr ?_
  rw [hcode, hs.indexed.journals.contains_id_iff, or_comm]
  rfl

theorem duplicatesIff_createAccount (a : Account) : DuplicatesIff (s.createAccount m a)
    (RowKind.account.SharesCode s a ∨ RowKind.account.SharesId s a) := by
  have hcode : s.accountCodes.contains a.code = true ↔ RowKind.account.SharesCode s a := by
    rw [hs.indexed.accounts.contains_code_iff]
    exact ⟨fun ⟨i, other, hi, ho⟩ => ⟨i, other, _, hi, ho, rfl⟩,
      fun ⟨i, other, c, hi, ho, hc⟩ => ⟨i, other, hi, ho.trans hc.symm⟩⟩
  refine (DuplicatesIff.refuseIf_bind (.refuseIf_bind (.append _ _ _))).congr ?_
  rw [hcode, hs.indexed.accounts.contains_id_iff, or_false]
  rfl

theorem duplicatesIff_createTemplate (t : TxTemplate) : DuplicatesIff (s.createTemplate m t)
    (RowKind.template.SharesCode s t) := by
  refine (DuplicatesIff.refuseIf_bind (.append _ _ _)).congr ?_
  rw [or_false, contains_iff]
  constructor
  · rintro ⟨other, hother⟩
    exact ⟨t.code, other, t.code, hother, congrArg some (hs.templates _ other hother), rfl⟩
  · rintro ⟨code, other, c, hother, ho, hc⟩
    have hcode : code = t.code := by
      rw [← hs.templates code other hother]
      exact Option.some.inj (ho.trans hc.symm)
    exact ⟨other, hcode ▸ hother⟩

/-- In memory a row is refused if its code is taken, or its identifier, but for that of a
template. -/
theorem RowKind.duplicatesIff_answer (k : RowKind) (row : k.Row) :
    DuplicatesIff (s.answer m (k.create row))
      (k.SharesCode s row ∨ (k ≠ .template ∧ k.SharesId s row)) := by
  cases k with
  | journal =>
    exact (duplicatesIff_createJournal hs m row).congr
      (or_congr_right (and_iff_right (by decide)).symm)
  | account =>
    exact (duplicatesIff_createAccount hs m row).congr
      (or_congr_right (and_iff_right (by decide)).symm)
  | template =>
    exact (duplicatesIff_createTemplate hs m row).congr
      (or_iff_left fun h => h.1 rfl).symm

/-- Stored rows share no codes, and no identifiers but for those of templates. -/
theorem RowKind.key_unique {k : RowKind} {key key' : k.Key} {row row' : k.Row}
    (hrow : k.row? s key = some row) (hrow' : k.row? s key' = some row')
    (h : (∃ c, k.code? row = some c ∧ k.code? row' = some c) ∨
      (k ≠ .template ∧ k.uuid row = k.uuid row')) : key = key' := by
  cases k with
  | journal =>
    rcases h with ⟨c, hc, hc'⟩ | ⟨-, huuid⟩
    · exact hs.indexed.journals.key_eq_of_code hrow hrow' hc hc'
    · exact hs.indexed.journals.key_eq_of_uuid hrow hrow' huuid
  | account =>
    rcases h with ⟨c, hc, hc'⟩ | ⟨-, huuid⟩
    · exact hs.indexed.accounts.key_eq_of_code hrow hrow' hc hc'
    · exact hs.indexed.accounts.key_eq_of_uuid hrow hrow' huuid
  | template =>
    rcases h with ⟨c, hc, hc'⟩ | ⟨hkind, -⟩
    · exact (hs.templates key row hrow).symm.trans
        ((Option.some.inj (hc.trans hc'.symm)).trans (hs.templates key' row' hrow'))
    · exact absurd rfl hkind

end Answers

end DoubleEntry
