import DoubleEntry.Proofs.Engine.Writes

/-!
# The effect of a call

A call that succeeds either only reads, or changes the tables and appends the records of events
that tell of the change. `Stores` lists the changes side by side with their events and with what
the store has checked before. Main statement: `Chronicle.run_effect`, every call leaves the
chronicle as it is or has one of these effects.
-/

namespace DoubleEntry

/-- The call looks at the tables and does not change them. -/
def StoreCall.isRead : StoreCall → Bool
  | .createJournal _ => false
  | .updateJournal _ _ => false
  | .createAccount _ => false
  | .updateAccount _ _ => false
  | .createTemplate _ => false
  | .commitTransaction _ => false
  | _ => true

/-- The commit that a call asks for. -/
def StoreCall.commits (now : Timestamp) : StoreCall → List Commit
  | .commitTransaction t => [⟨now, t⟩]
  | _ => []

theorem StoreCall.commits_of_isRead {c : StoreCall} (h : c.isRead = true) {now : Timestamp} :
    c.commits now = [] := by
  cases c with
  | commitTransaction t => cases h
  | _ => rfl

/-- What the outbox tells, first to last. -/
def StoreState.payloads (s : StoreState) : List LedgerEvent := s.outbox.map OutboxRecord.payload

namespace StoreState

/-- The tables after a call that writes, with the outbox yet to be told of it, and the events to be
told. -/
inductive Stores (s : StoreState) (now : Timestamp) :
    StoreCall → StoreState → List LedgerEvent → Prop
  | createJournal {j : Journal} {codes : NameMap JournalId}
    (hid : s.journals.contains j.id = false) (hcodes : s.codesWith j = .ok codes) :
    Stores s now (.createJournal j)
      { s with journalCodes := codes, journals := s.journals.put j.id j } [.journalCreated j]
  | updateJournal {j : Journal} {fields : List String} (hid : s.journals.contains j.id = true) :
    Stores s now (.updateJournal j fields) { s with journals := s.journals.put j.id j }
      [.journalUpdated j fields]
  | createAccount {a : Account} (hcode : s.accountCodes.contains a.code = false)
    (hid : s.accounts.contains a.id = false) :
    Stores s now (.createAccount a)
      { s with accountCodes := s.accountCodes.put a.code a.id, accounts := s.accounts.put a.id a }
      [.accountCreated a]
  | updateAccount {a : Account} {fields : List String} (hid : s.accounts.contains a.id = true) :
    Stores s now (.updateAccount a fields) { s with accounts := s.accounts.put a.id a }
      [.accountUpdated a fields]
  | createTemplate {t : TxTemplate} (hcode : s.templates.contains t.code = false) :
    Stores s now (.createTemplate t) { s with templates := s.templates.put t.code t }
      [.templateCreated t]
  | commit {t : Transaction} {rows : List BalanceSnapshot} (hplan : s.planCommit now t = .ok rows) :
    Stores s now (.commitTransaction t) (s.record t rows) (postingEvents t rows)

variable {m : Moment} {s s' : StoreState} {last : UInt64}

theorem exists_records_of_append {t : StoreState} {events : List LedgerEvent}
    (h : t.append m events = .ok (last, s')) :
    ∃ records, records.map OutboxRecord.payload = events ∧ s' = t.withRecords records := by
  obtain ⟨records, hrecords, hs'⟩ := append_eq_ok h
  exact ⟨records, payloads_of_recordsAfter hrecords, hs'⟩

theorem payloads_withRecords (s : StoreState) (records : List OutboxRecord) :
    (s.withRecords records).payloads = s.payloads ++ records.map OutboxRecord.payload :=
  List.map_append

theorem Stores.payloads_eq {now : Timestamp} {c : StoreCall} {s₁ : StoreState}
    {events : List LedgerEvent} (h : s.Stores now c s₁ events) : s₁.payloads = s.payloads := by
  cases h <;> rfl

/-- A call that succeeds reads, or changes the tables and then tells of it. -/
theorem effect_of_answer {c : StoreCall} {reply : c.Reply} (h : s.answer m c = .ok (reply, s')) :
    (c.isRead = true ∧ s' = s) ∨
      ∃ s₁ events records, s.Stores m.now c s₁ events ∧
        records.map OutboxRecord.payload = events ∧ s' = s₁.withRecords records := by
  cases c with
  | createJournal j =>
    obtain ⟨hid, codes, hcodes, happend⟩ := createJournal_eq_ok h
    obtain ⟨records, hrecords⟩ := exists_records_of_append happend
    exact Or.inr ⟨_, _, records, .createJournal hid hcodes, hrecords⟩
  | updateJournal j fields =>
    obtain ⟨hid, happend⟩ := updateJournal_eq_ok h
    obtain ⟨records, hrecords⟩ := exists_records_of_append happend
    exact Or.inr ⟨_, _, records, .updateJournal hid, hrecords⟩
  | createAccount a =>
    obtain ⟨hcode, hid, happend⟩ := createAccount_eq_ok h
    obtain ⟨records, hrecords⟩ := exists_records_of_append happend
    exact Or.inr ⟨_, _, records, .createAccount hcode hid, hrecords⟩
  | updateAccount a fields =>
    obtain ⟨hid, happend⟩ := updateAccount_eq_ok h
    obtain ⟨records, hrecords⟩ := exists_records_of_append happend
    exact Or.inr ⟨_, _, records, .updateAccount hid, hrecords⟩
  | createTemplate t =>
    obtain ⟨hcode, happend⟩ := createTemplate_eq_ok h
    obtain ⟨records, hrecords⟩ := exists_records_of_append happend
    exact Or.inr ⟨_, _, records, .createTemplate hcode, hrecords⟩
  | commitTransaction t =>
    obtain ⟨-, hplan, happend⟩ := commit_eq_ok h
    obtain ⟨records, hrecords⟩ := exists_records_of_append happend
    exact Or.inr ⟨_, _, records, .commit hplan, hrecords⟩
  | _ =>
    cases h
    exact Or.inl ⟨rfl, rfl⟩

/-- A template is found under its code from then on. -/
theorem Stores.get?_templates {now : Timestamp} {c : StoreCall} {s₁ : StoreState}
    {events : List LedgerEvent} (h : s.Stores now c s₁ events) {code : String} {t : TxTemplate}
    (ht : s.templates.get? code = some t) : s₁.templates.get? code = some t := by
  cases h with
  | createTemplate hcode =>
    rw [OrdMap.get?_put_of_ne, ht]
    rintro rfl
    rw [OrdMap.contains_iff.mpr ⟨t, ht⟩] at hcode
    cases hcode
  | _ => exact ht

end StoreState

namespace Chronicle

variable (m : Moment) (c : StoreCall) (h : Chronicle)

theorem commitOf_ok (reply : c.Reply) : commitOf m c (.ok reply) = c.commits m.now := by
  cases c <;> rfl

/-- A call leaves the chronicle as it is, or has its effect and makes its commit. -/
theorem run_effect :
    (Chronicle.run m c h).2 = h ∨
      ∃ s₁ events records, h.state.Stores m.now c s₁ events ∧
        records.map OutboxRecord.payload = events ∧
        (Chronicle.run m c h).2 = ⟨s₁.withRecords records, h.commits ++ c.commits m.now⟩ := by
  rw [run_eq_answer]
  cases hanswer : h.state.answer m c with
  | error f => exact Or.inl rfl
  | ok p =>
    obtain ⟨reply, s'⟩ := p
    dsimp only
    rw [commitOf_ok]
    rcases StoreState.effect_of_answer hanswer with
      ⟨hread, rfl⟩ | ⟨s₁, events, records, hs₁, hrecords, rfl⟩
    · left
      rw [StoreCall.commits_of_isRead hread, List.append_nil]
    · exact Or.inr ⟨s₁, events, records, hs₁, hrecords, rfl⟩

end Chronicle

end DoubleEntry
