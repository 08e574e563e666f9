import DoubleEntry.Proofs.Engine.Contract

/-!
# Rows, their codes and what is fixed of them

Journals and accounts are the rows that change. What an update leaves as it is, their identifier,
their code, the side of an account and the time of creation, stays for good: `Journal.fixed` and
`Account.fixed`. And the index of codes holds exactly the codes of the rows (`Coded`).

Neither is up to the store: a call could change the code of a journal and leave the index alone. It
takes operations that look up a row and change its other fields only, while no one else changes
what is fixed (`rowsContract`).

Main statement: `meets_rows_interleave`.
-/

namespace DoubleEntry

open Ledger OrdMap

/-! ## Rows and their codes -/

/-- An index with a row under its code, if it has one. -/
def withCode {ι : Type} (code : Option String) (id : ι) (codes : NameMap ι) : NameMap ι :=
  match code with
  | none => codes
  | some code => codes.put code id

theorem get?_withCode {ι : Type} (code : Option String) (id : ι) (codes : NameMap ι) (c : String)
    (i : ι) : (withCode code id codes).get? c = some i ↔
      (code = some c ∧ id = i) ∨ (code ≠ some c ∧ codes.get? c = some i) := by
  unfold withCode
  cases code with
  | none => simp
  | some c' =>
    rw [get?_put]
    by_cases hc : c = c'
    · simp [hc]
    · simp [hc, Ne.symm hc]

/-- Rows are under their identifiers, and an index finds those with a code under their code, and
nothing else. -/
structure Coded {ι α : Type} [Ord ι] [DecidableEq ι] (id : α → ι) (code : α → Option String)
    (rows : OrdMap ι α) (codes : NameMap ι) : Prop where
  row_id : ∀ i row, rows.get? i = some row → id row = i
  row_code : ∀ i row c, rows.get? i = some row → code row = some c → codes.get? c = some i
  code_row : ∀ c i, codes.get? c = some i → ∃ row, rows.get? i = some row ∧ code row = some c

namespace Coded

variable {ι α : Type} [Ord ι] [DecidableEq ι] {id : α → ι} {code : α → Option String}
  {rows : OrdMap ι α} {codes : NameMap ι} {row old : α}

theorem empty : Coded id code (∅ : OrdMap ι α) ∅ where
  row_id _ _ h := nomatch h
  row_code _ _ _ h := nomatch h
  code_row _ _ h := nomatch h

theorem get?_iff (h : Coded id code rows codes) {c : String} {i : ι} :
    codes.get? c = some i ↔ ∃ row, rows.get? i = some row ∧ code row = some c :=
  ⟨h.code_row c i, fun ⟨row, hrow, hcode⟩ => h.row_code i row c hrow hcode⟩

/-- A row under its code again leaves the index as it is. -/
theorem withCode_eq (h : Coded id code rows codes) (hold : rows.get? (id row) = some old)
    (hcode : code row = code old) : withCode (code row) (id row) codes = codes := by
  unfold withCode
  cases hc : code row with
  | none => rfl
  | some c => exact put_eq_self (h.row_code _ old c hold (hcode.symm.trans hc))

variable [Std.TransOrd ι] [Std.LawfulEqOrd ι]

theorem row_id_put (h : Coded id code rows codes) (i : ι) (r : α)
    (hr : (rows.put (id row) row).get? i = some r) : id r = i := by
  rw [get?_put] at hr
  split at hr
  · next hi =>
    cases hr
    exact hi.symm
  · exact h.row_id i r hr

/-- A row under an identifier and a code that no other has. -/
theorem put_new (h : Coded id code rows codes) (hid : rows.contains (id row) = false)
    (hfree : ∀ c, code row = some c → codes.contains c = false) :
    Coded id code (rows.put (id row) row) (withCode (code row) (id row) codes) := by
  have hother : ∀ i r, rows.get? i = some r → i ≠ id row := by
    rintro i r hr rfl
    rw [contains_iff.mpr ⟨r, hr⟩] at hid
    cases hid
  refine ⟨h.row_id_put, fun i r c hr hrc => ?_, fun c i hci => ?_⟩
  · rw [get?_withCode]
    rw [get?_put] at hr
    split at hr
    · next hi =>
      cases hr
      exact Or.inl ⟨hrc, hi.symm⟩
    · have hci := h.row_code i r c hr hrc
      refine Or.inr ⟨fun hc => ?_, hci⟩
      have hfree := hfree c hc
      rw [contains_iff.mpr ⟨i, hci⟩] at hfree
      cases hfree
  · rcases (get?_withCode _ _ _ c i).mp hci with ⟨hc, rfl⟩ | ⟨-, hci⟩
    · exact ⟨row, get?_put_self _ _ _, hc⟩
    · obtain ⟨r, hr, hrc⟩ := h.code_row c i hci
      exact ⟨r, (get?_put_of_ne (hother i r hr) row rows).trans hr, hrc⟩

/-- A row in place of one that has the same code. -/
theorem put_same (h : Coded id code rows codes) (hold : rows.get? (id row) = some old)
    (hcode : code row = code old) : Coded id code (rows.put (id row) row) codes := by
  refine ⟨h.row_id_put, fun i r c hr hrc => ?_, fun c i hci => ?_⟩
  · rw [get?_put] at hr
    split at hr
    · next hi =>
      cases hr
      rw [hi]
      exact h.row_code _ old c hold (hcode.symm.trans hrc)
    · exact h.row_code i r c hr hrc
  · obtain ⟨r, hr, hrc⟩ := h.code_row c i hci
    by_cases hi : i = id row
    · rw [hi, hold] at hr
      cases hr
      exact ⟨row, hi ▸ get?_put_self _ _ _, hcode.trans hrc⟩
    · exact ⟨r, (get?_put_of_ne hi row rows).trans hr, hrc⟩

end Coded

/-! ## What a call does to rows -/

/-- What no update of a journal changes. -/
def Journal.fixed (j : Journal) : JournalId × Option String × Timestamp :=
  (j.id, j.code, j.createdAt)

/-- What no update of an account changes. -/
def Account.fixed (a : Account) : AccountId × String × Side × Timestamp :=
  (a.id, a.code, a.normalBalance, a.createdAt)

def Account.code? (a : Account) : Option String := some a.code

theorem Journal.code_of_fixed {j k : Journal} (h : j.fixed = k.fixed) : j.code = k.code :=
  congrArg (fun f : JournalId × Option String × Timestamp => f.2.1) h

theorem Account.code?_of_fixed {a b : Account} (h : a.fixed = b.fixed) : a.code? = b.code? :=
  congrArg (fun f : AccountId × String × Side × Timestamp => some f.2.1) h

namespace StoreState

/-- Rows are under their identifiers, and their codes are indexed. -/
structure Indexed (s : StoreState) : Prop where
  journals : Coded Journal.id Journal.code s.journals s.journalCodes
  accounts : Coded Account.id Account.code? s.accounts s.accountCodes

/-- Journals and accounts that are there stay, and so does what is fixed of them. -/
structure KeepsRows (s s' : StoreState) : Prop where
  journals : Keeps Journal.fixed s.journals s'.journals
  accounts : Keeps Account.fixed s.accounts s'.accounts

/-- A call that changes a row leaves what is fixed of it. -/
def LeavesFixed (s : StoreState) : StoreCall → Prop
  | .updateJournal j _ => ∃ old, s.journals.get? j.id = some old ∧ j.fixed = old.fixed
  | .updateAccount a _ => ∃ old, s.accounts.get? a.id = some old ∧ a.fixed = old.fixed
  | _ => True

theorem Indexed.empty : StoreState.empty.Indexed := ⟨.empty, .empty⟩

theorem KeepsRows.refl (s : StoreState) : s.KeepsRows s := ⟨.refl _, .refl _⟩

theorem KeepsRows.trans {s s' s'' : StoreState} (h : s.KeepsRows s') (h' : s'.KeepsRows s'') :
    s.KeepsRows s'' :=
  ⟨h.journals.trans h'.journals, h.accounts.trans h'.accounts⟩

variable {s s₁ : StoreState} {now : Timestamp} {c : StoreCall} {events : List LedgerEvent}

theorem codesWith_eq_ok {j : Journal} {codes : NameMap JournalId} (h : s.codesWith j = .ok codes) :
    codes = withCode j.code j.id s.journalCodes ∧
      ∀ code, j.code = some code → s.journalCodes.contains code = false := by
  unfold codesWith at h
  unfold withCode
  cases hcode : j.code with
  | none =>
    rw [hcode] at h
    cases h
    exact ⟨rfl, nofun⟩
  | some code =>
    rw [hcode] at h
    obtain ⟨_, hfree, rfl⟩ := map_eq_ok.mp h
    refine ⟨rfl, fun code' hcode' => ?_⟩
    cases hcode'
    exact refuseIf_eq_ok.mp hfree

namespace Stores

theorem indexed (h : s.Stores now c s₁ events) (hs : s.Indexed) (hc : s.LeavesFixed c) :
    s₁.Indexed := by
  cases h with
  | createJournal hid hcodes =>
    obtain ⟨rfl, hfree⟩ := codesWith_eq_ok hcodes
    exact ⟨hs.journals.put_new hid hfree, hs.accounts⟩
  | updateJournal hid =>
    obtain ⟨old, hold, hfixed⟩ := hc
    exact ⟨hs.journals.put_same hold (Journal.code_of_fixed hfixed), hs.accounts⟩
  | createAccount hcode hid =>
    refine ⟨hs.journals, hs.accounts.put_new hid fun c hc => ?_⟩
    cases hc
    exact hcode
  | updateAccount hid =>
    obtain ⟨old, hold, hfixed⟩ := hc
    exact ⟨hs.journals, hs.accounts.put_same hold (Account.code?_of_fixed hfixed)⟩
  | createTemplate hcode => exact ⟨hs.journals, hs.accounts⟩
  | commit hplan => exact ⟨hs.journals, hs.accounts⟩

theorem keepsRows (h : s.Stores now c s₁ events) (hc : s.LeavesFixed c) : s.KeepsRows s₁ := by
  cases h with
  | createJournal hid hcodes => exact ⟨.put_new hid, .refl _⟩
  | updateJournal hid =>
    obtain ⟨old, hold, hfixed⟩ := hc
    exact ⟨.put_same hold hfixed, .refl _⟩
  | createAccount hcode hid => exact ⟨.refl _, .put_new hid⟩
  | updateAccount hid =>
    obtain ⟨old, hold, hfixed⟩ := hc
    exact ⟨.refl _, .put_same hold hfixed⟩
  | createTemplate hcode => exact ⟨.refl _, .refl _⟩
  | commit hplan => exact ⟨.refl _, .refl _⟩

end Stores

end StoreState

/-! ## Operations leave what is fixed -/

/-- Calls that change a row leave what is fixed of it, and so do all others meanwhile. -/
def rowsContract : Contract where
  invariant h := h.state.Indexed
  rely _ h h' := h.state.KeepsRows h'.state
  allowed _ h c := h.state.LeavesFixed c
  apart _ _ := True

theorem rowsContract_sound : rowsContract.Sound where
  refl _ h := .refl h.state
  trans _ _ _ _ h h' := h.trans h'
  keeps own m c h hindexed hallowed := by
    rcases Chronicle.run_effect m c h with hsame | ⟨s₁, events, records, hs₁, -, hrun⟩
    · rwa [hsame]
    · rw [hrun]
      have hnext := hs₁.indexed hindexed hallowed
      exact ⟨hnext.journals, hnext.accounts⟩
  spares own other m c h _ _ hallowed := by
    rcases Chronicle.run_effect m c h with hsame | ⟨s₁, events, records, hs₁, -, hrun⟩
    · rw [hsame]
      exact .refl h.state
    · rw [hrun]
      have hkept := hs₁.keepsRows hallowed
      exact ⟨hkept.journals, hkept.accounts⟩

theorem Journal.fixed_of_update {old j : Journal} {u : JournalUpdate} {now : Timestamp}
    {fields : List String} (h : old.update u now = .ok (j, fields)) : j.fixed = old.fixed := by
  obtain ⟨_, -, h⟩ := bind_eq_ok.mp h
  cases h
  rfl

theorem Account.fixed_of_update {old a : Account} {u : AccountUpdate} {now : Timestamp}
    {fields : List String} (h : old.update u now = .ok (a, fields)) : a.fixed = old.fixed := by
  obtain ⟨_, -, h⟩ := bind_eq_ok.mp h
  cases h
  rfl

section Operations

variable {own : Stamp} {h : Chronicle}

theorem leavesFixed_of_isRead (h : Chronicle) (c : StoreCall) (hc : c.isRead = true) :
    rowsContract.allowed own h c := by
  cases c with
  | updateJournal j fields => cases hc
  | updateAccount a fields => cases hc
  | _ => trivial

/-- By the time of the call someone else may have changed the journal, but not what is fixed. -/
theorem meets_updateJournal (id : JournalId) (u : JournalUpdate) :
    (Ledger.updateJournal id u own.now).Meets rowsContract own (fun _ _ => True) h := by
  refine (meets_findJournal leavesFixed_of_isRead id).bind ?_ fun _ _ _ => trivial
  rintro h₁ old ⟨-, hindexed, hfound⟩
  have hold := lookup_eq_ok hfound.symm
  refine Prog.Meets.bind_ofExcept (fun p hp => ?_) fun _ _ => trivial
  obtain ⟨j, fields⟩ := p
  have hfixed := Journal.fixed_of_update hp
  have hid : j.id = id := (congrArg Prod.fst hfixed).trans (hindexed.journals.row_id id old hold)
  dsimp only
  split
  · trivial
  · refine .ask_last fun h₂ hrely _ => ?_
    obtain ⟨current, hcurrent, hsame⟩ := hrely.journals id old hold
    rw [← hid] at hcurrent
    exact ⟨current, hcurrent, hfixed.trans hsame.symm⟩

theorem meets_updateAccount (id : AccountId) (u : AccountUpdate) :
    (Ledger.updateAccount id u own.now).Meets rowsContract own (fun _ _ => True) h := by
  refine (meets_findAccount leavesFixed_of_isRead id).bind ?_ fun _ _ _ => trivial
  rintro h₁ old ⟨-, hindexed, hfound⟩
  have hold := lookup_eq_ok hfound.symm
  refine Prog.Meets.bind_ofExcept (fun p hp => ?_) fun _ _ => trivial
  obtain ⟨a, fields⟩ := p
  have hfixed := Account.fixed_of_update hp
  have hid : a.id = id := (congrArg Prod.fst hfixed).trans (hindexed.accounts.row_id id old hold)
  dsimp only
  split
  · trivial
  · refine .ask_last fun h₂ hrely _ => ?_
    obtain ⟨current, hcurrent, hsame⟩ := hrely.accounts id old hold
    rw [← hid] at hcurrent
    exact ⟨current, hcurrent, hfixed.trans hsame.symm⟩

theorem update_or_leavesFixed (o : Operation) :
    (∃ id u, o = .updateJournal id u) ∨ (∃ id u, o = .updateAccount id u) ∨
      ∀ (s : StoreState) c, c.isRead = true ∨ o.writesBy c = true → s.LeavesFixed c := by
  cases o with
  | updateJournal id u => exact Or.inl ⟨id, u, rfl⟩
  | updateAccount id u => exact Or.inr (Or.inl ⟨id, u, rfl⟩)
  | _ =>
    refine Or.inr (Or.inr fun s c hc => ?_)
    cases c with
    | updateJournal j fields => rcases hc with hc | hc <;> cases hc
    | updateAccount a fields => rcases hc with hc | hc <;> cases hc
    | _ => trivial

theorem leavesFixed_action (o : Operation) :
    (o.action own).Meets rowsContract own (fun _ _ => True) h := by
  rcases update_or_leavesFixed o with ⟨id, u, rfl⟩ | ⟨id, u, rfl⟩ | hleaves
  · exact meets_updateJournal id u
  · exact meets_updateAccount id u
  · exact (callsOnly_action own o).meets (fun h c hc => hleaves h.state c hc) h

end Operations

/-- Any operations together keep to the contract of rows. -/
theorem meets_rows_interleave (asked : List (Operation × Stamp)) (turns : List Turn) :
    (interleave asked turns).Meets rowsContract fun _ _ _ _ => True :=
  rowsContract_sound.meets_interleave StoreState.Indexed.empty (fun _ _ _ _ _ _ _ _ => trivial)
    (fun _ _ _ _ _ _ _ => trivial) (fun a _ => leavesFixed_action a.1) turns

end DoubleEntry
