import DoubleEntry.Proofs.Results
import DoubleEntry.Proofs.Store.Outcome

/-!
# What a call that succeeds has done

One lemma for each call that writes: what it has checked, and the state it leaves, up to the records
appended last. Main statements: `grows_of_answer`, a call that succeeds leaves the state as it is or
appends to the outbox, and `postings_of_answer`, postings and balances are written by commits alone.
-/

namespace DoubleEntry.StoreState

variable {m : Moment} {s s' : StoreState} {last : UInt64}

theorem refuseIf_eq_ok {stands : Bool} {e : StoreError} {u : Unit} :
    refuseIf stands e = .ok u ↔ stands = false := by
  cases stands with
  | true => exact ⟨(nomatch ·), (nomatch ·)⟩
  | false => exact ⟨fun _ => rfl, fun _ => rfl⟩

theorem refuseIf_eq_error {stands : Bool} {e : StoreError} {f : Failure StoreError}
    (h : refuseIf stands e = .error f) : stands = true ∧ f = .error e := by
  unfold refuseIf at h
  split at h
  · next hstands =>
    cases h
    exact ⟨hstands, rfl⟩
  · cases h

theorem refuseIf_not_eq_ok {stands : Bool} {e : StoreError} {u : Unit} :
    refuseIf (!stands) e = .ok u ↔ stands = true := by
  rw [refuseIf_eq_ok]
  cases stands <;> simp

/-! ## Records -/

theorem payloads_of_recordsAfter {recordId : Nat → Uuid} {last final : UInt64}
    {events : List LedgerEvent} {records : List OutboxRecord}
    (h : recordsAfter (ε := StoreError) recordId last events = .ok (records, final)) :
    records.map OutboxRecord.payload = events := by
  induction events generalizing recordId last records with
  | nil =>
    cases h
    rfl
  | cons e es ih =>
    obtain ⟨sequence, -, h⟩ := bind_eq_ok.mp h
    obtain ⟨⟨rest, final'⟩, hrest, h⟩ := bind_eq_ok.mp h
    cases h
    show e :: rest.map OutboxRecord.payload = e :: es
    rw [ih hrest]

theorem eq_overflow_of_recordsAfter {recordId : Nat → Uuid} {last : UInt64}
    {events : List LedgerEvent} {f : Failure StoreError}
    (h : recordsAfter recordId last events = .error f) : f = .overflow := by
  induction events generalizing recordId last with
  | nil => cases h
  | cons e events ih =>
    rcases bind_eq_error.mp h with hnext | ⟨sequence, -, h⟩
    · unfold nextCount at hnext
      split at hnext
      · cases hnext
      · cases hnext
        rfl
    · rcases bind_eq_error.mp h with hrest | ⟨p, -, h⟩
      · exact ih hrest
      · cases h

theorem append_eq_ok {events : List LedgerEvent} (h : s.append m events = .ok (last, s')) :
    ∃ records, recordsAfter (ε := StoreError) m.recordId s.lastSequence events
        = .ok (records, last) ∧ s' = s.withRecords records := by
  obtain ⟨⟨records, final⟩, hrecords, h⟩ := map_eq_ok.mp h
  cases h
  exact ⟨records, hrecords, rfl⟩

/-- Appending fails only where the numbers of records run out. -/
theorem eq_overflow_of_append {events : List LedgerEvent} {f : Failure StoreError}
    (h : s.append m events = .error f) : f = .overflow := by
  unfold append at h
  cases hrecords : recordsAfter (ε := StoreError) m.recordId s.lastSequence events with
  | ok p => rw [hrecords] at h; cases h
  | error f' =>
    rw [hrecords] at h
    cases h
    exact eq_overflow_of_recordsAfter hrecords

/-- The outbox of the second state goes on where that of the first ends. -/
def Grows (s s' : StoreState) : Prop := ∃ records, records ≠ [] ∧ s'.outbox = s.outbox ++ records

theorem grows_of_append {e : LedgerEvent} {events : List LedgerEvent}
    (h : s.append m (e :: events) = .ok (last, s')) : s.Grows s' := by
  obtain ⟨records, hrecords, rfl⟩ := append_eq_ok h
  refine ⟨records, ?_, rfl⟩
  rintro rfl
  cases payloads_of_recordsAfter hrecords

/-- The transaction whose commit an event tells of. -/
def transactionOf : LedgerEvent → Option Transaction
  | .transactionCreated t => some t
  | _ => none

/-- The transactions that the outbox tells of, oldest first. -/
def recorded (s : StoreState) : List Transaction :=
  (s.outbox.map OutboxRecord.payload).filterMap transactionOf

theorem recorded_of_append {events : List LedgerEvent} (h : s.append m events = .ok (last, s')) :
    s'.recorded = s.recorded ++ events.filterMap transactionOf := by
  obtain ⟨records, hrecords, rfl⟩ := append_eq_ok h
  show ((s.outbox ++ records).map OutboxRecord.payload).filterMap transactionOf = _
  rw [List.map_append, List.filterMap_append, payloads_of_recordsAfter hrecords]
  rfl

/-- The tables that commits alone write are the same in both states, and so are the commits told
of. -/
structure SamePostings (s s' : StoreState) : Prop where
  transactions : s'.transactions = s.transactions
  externalIds : s'.externalIds = s.externalIds
  voided : s'.voided = s.voided
  balances : s'.balances = s.balances
  accountEntries : s'.accountEntries = s.accountEntries
  recorded : s'.recorded = s.recorded

theorem SamePostings.refl (s : StoreState) : s.SamePostings s := ⟨rfl, rfl, rfl, rfl, rfl, rfl⟩

theorem samePostings_of_append {t : StoreState} {events : List LedgerEvent}
    (h : t.append m events = .ok (last, s')) (hevents : events.filterMap transactionOf = [])
    (ht : s.SamePostings t) : s.SamePostings s' := by
  have hrecorded : s'.recorded = s.recorded := by
    rw [recorded_of_append h, hevents, List.append_nil, ht.recorded]
  obtain ⟨records, -, rfl⟩ := append_eq_ok h
  exact ⟨ht.transactions, ht.externalIds, ht.voided, ht.balances, ht.accountEntries, hrecorded⟩

theorem transactions_of_postingEvents (t : Transaction) (rows : List BalanceSnapshot) :
    (postingEvents t rows).filterMap transactionOf = [t] := by
  unfold postingEvents
  rw [List.filterMap_cons]
  show t :: _ = _
  rw [List.filterMap_map, List.filterMap_eq_nil_iff.mpr]
  intro b _
  show transactionOf (.forBalance b) = none
  unfold LedgerEvent.forBalance
  split <;> rfl

/-! ## Calls -/

theorem createJournal_eq_ok {j : Journal} (h : s.createJournal m j = .ok (last, s')) :
    s.journals.contains j.id = false ∧ ∃ codes, s.codesWith j = .ok codes ∧
      append { s with journalCodes := codes, journals := s.journals.put j.id j } m
        [.journalCreated j] = .ok (last, s') := by
  obtain ⟨_, hid, h⟩ := bind_eq_ok.mp h
  obtain ⟨codes, hcodes, h⟩ := bind_eq_ok.mp h
  exact ⟨refuseIf_eq_ok.mp hid, codes, hcodes, h⟩

theorem updateJournal_eq_ok {j : Journal} {fields : List String}
    (h : s.updateJournal m j fields = .ok (last, s')) :
    s.journals.contains j.id = true ∧
      append { s with journals := s.journals.put j.id j } m [.journalUpdated j fields]
        = .ok (last, s') := by
  obtain ⟨_, hid, h⟩ := bind_eq_ok.mp h
  exact ⟨refuseIf_not_eq_ok.mp hid, h⟩

theorem createAccount_eq_ok {a : Account} (h : s.createAccount m a = .ok (last, s')) :
    s.accountCodes.contains a.code = false ∧ s.accounts.contains a.id = false ∧
      append { s with
        accountCodes := s.accountCodes.put a.code a.id
        accounts := s.accounts.put a.id a } m [.accountCreated a] = .ok (last, s') := by
  obtain ⟨_, hcode, h⟩ := bind_eq_ok.mp h
  obtain ⟨_, hid, h⟩ := bind_eq_ok.mp h
  exact ⟨refuseIf_eq_ok.mp hcode, refuseIf_eq_ok.mp hid, h⟩

theorem updateAccount_eq_ok {a : Account} {fields : List String}
    (h : s.updateAccount m a fields = .ok (last, s')) :
    s.accounts.contains a.id = true ∧
      append { s with accounts := s.accounts.put a.id a } m [.accountUpdated a fields]
        = .ok (last, s') := by
  obtain ⟨_, hid, h⟩ := bind_eq_ok.mp h
  exact ⟨refuseIf_not_eq_ok.mp hid, h⟩

theorem createTemplate_eq_ok {t : TxTemplate} (h : s.createTemplate m t = .ok (last, s')) :
    s.templates.contains t.code = false ∧
      append { s with templates := s.templates.put t.code t } m [.templateCreated t]
        = .ok (last, s') := by
  obtain ⟨_, hcode, h⟩ := bind_eq_ok.mp h
  exact ⟨refuseIf_eq_ok.mp hcode, h⟩

theorem commit_eq_ok {t : Transaction} {committed : CommittedPosting}
    (h : s.commit m t = .ok (committed, s')) :
    committed.transaction = t ∧ s.planCommit m.now t = .ok committed.balances ∧
      (s.record t committed.balances).append m (postingEvents t committed.balances)
        = .ok (committed.lastSequence, s') := by
  obtain ⟨rows, hrows, h⟩ := bind_eq_ok.mp h
  obtain ⟨⟨last, s''⟩, happend, h⟩ := bind_eq_ok.mp h
  cases h
  exact ⟨rfl, hrows, happend⟩

/-- The rows a commit writes are those of its deltas, one for each. -/
theorem planCommit_eq_ok {now : Timestamp} {t : Transaction} {rows : List BalanceSnapshot}
    (h : s.planCommit now t = .ok rows) :
    ∃ ds, deltas t.entries = .ok ds ∧ s.checkExternalId t = .ok () ∧ s.checkReverses t = .ok () ∧
      List.Forall₂ (fun d row => applyDelta (s.balances.get? d.key) d t.id now = .ok row)
        ds rows := by
  obtain ⟨ds, hds, h⟩ := bind_eq_ok.mp h
  obtain ⟨_, hexternal, h⟩ := bind_eq_ok.mp h
  obtain ⟨_, hreverses, h⟩ := bind_eq_ok.mp h
  exact ⟨ds, lift_eq_ok.mp hds, hexternal, hreverses,
    (forall₂_of_mapM_eq_ok h).imp fun _ _ hrow => mapError_eq_ok.mp hrow⟩

/-- What a check of a reversal has found. -/
theorem checkReverses_eq_ok {t : Transaction} (h : s.checkReverses t = .ok ())
    {target : TransactionId} (ht : t.reverses = some target) :
    s.transactions.contains target = true ∧ s.voided.contains target = false := by
  unfold checkReverses at h
  rw [ht] at h
  obtain ⟨_, hstored, hfree⟩ := bind_eq_ok.mp h
  exact ⟨refuseIf_not_eq_ok.mp hstored, refuseIf_eq_ok.mp hfree⟩

/-! ## All calls -/

theorem grows_of_answer {c : StoreCall} {reply : c.Reply}
    (h : s.answer m c = .ok (reply, s')) : s' = s ∨ s.Grows s' := by
  cases c with
  | createJournal j =>
    obtain ⟨-, codes, -, happend⟩ := createJournal_eq_ok h
    exact Or.inr (grows_of_append happend :)
  | updateJournal j fields => exact Or.inr (grows_of_append (updateJournal_eq_ok h).2 :)
  | createAccount a => exact Or.inr (grows_of_append (createAccount_eq_ok h).2.2 :)
  | updateAccount a fields => exact Or.inr (grows_of_append (updateAccount_eq_ok h).2 :)
  | createTemplate t => exact Or.inr (grows_of_append (createTemplate_eq_ok h).2 :)
  | commitTransaction t => exact Or.inr (grows_of_append (commit_eq_ok h).2.2 :)
  | _ =>
    cases h
    exact Or.inl rfl

/-- A call that succeeds commits a transaction, or leaves all postings as they are. -/
theorem postings_of_answer {c : StoreCall} {reply : c.Reply}
    (h : s.answer m c = .ok (reply, s')) :
    (∃ t rows, c = .commitTransaction t ∧ s.planCommit m.now t = .ok rows ∧
        s'.recorded = s.recorded ++ [t] ∧ ∃ records, s' = (s.record t rows).withRecords records) ∨
      ((∀ t, c ≠ .commitTransaction t) ∧ s.SamePostings s') := by
  cases c with
  | createJournal j =>
    obtain ⟨-, codes, -, happend⟩ := createJournal_eq_ok h
    exact Or.inr ⟨by simp, samePostings_of_append happend rfl ⟨rfl, rfl, rfl, rfl, rfl, rfl⟩⟩
  | updateJournal j fields =>
    have happend := (updateJournal_eq_ok h).2
    exact Or.inr ⟨by simp, samePostings_of_append happend rfl ⟨rfl, rfl, rfl, rfl, rfl, rfl⟩⟩
  | createAccount a =>
    have happend := (createAccount_eq_ok h).2.2
    exact Or.inr ⟨by simp, samePostings_of_append happend rfl ⟨rfl, rfl, rfl, rfl, rfl, rfl⟩⟩
  | updateAccount a fields =>
    have happend := (updateAccount_eq_ok h).2
    exact Or.inr ⟨by simp, samePostings_of_append happend rfl ⟨rfl, rfl, rfl, rfl, rfl, rfl⟩⟩
  | createTemplate t =>
    have happend := (createTemplate_eq_ok h).2
    exact Or.inr ⟨by simp, samePostings_of_append happend rfl ⟨rfl, rfl, rfl, rfl, rfl, rfl⟩⟩
  | commitTransaction t =>
    obtain ⟨-, hrows, happend⟩ := commit_eq_ok h
    have hrecorded := recorded_of_append happend
    rw [transactions_of_postingEvents] at hrecorded
    obtain ⟨records, -, hs'⟩ := append_eq_ok happend
    exact Or.inl ⟨t, _, rfl, hrows, hrecorded, records, hs'⟩
  | _ =>
    cases h
    exact Or.inr ⟨by simp, SamePostings.refl s⟩

end DoubleEntry.StoreState
