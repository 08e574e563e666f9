import DoubleEntry.Proofs.Tables
import DoubleEntry.Store.State

/-!
# What a call comes to

A change writes its tables one after the other and keeps what it wrote when it fails. This module
says what a call comes to as a whole: `StoreState.answer` is the reply together with the state after
it, or a failure and no state. Main statement: `run_eq_answer`, a call that fails leaves the state
as it was. So every check of a change stands before its first write.
-/

namespace DoubleEntry

namespace StoreState

/-! ## Outcomes -/

/-- A call refused under a condition. -/
def refuseIf (stands : Bool) (e : StoreError) : StoreResult Unit :=
  if stands then .error (.error e) else .ok ()

/-- The state with records at the end of its outbox. -/
def withRecords (s : StoreState) (records : List OutboxRecord) : StoreState :=
  { s with outbox := s.outbox ++ records }

/-- The records of events appended, and the number of the last one. -/
def append (s : StoreState) (m : Moment) (events : List LedgerEvent) :
    StoreResult (UInt64 × StoreState) :=
  (recordsAfter m.recordId s.lastSequence events).map fun p => (p.2, s.withRecords p.1)

/-- The code indexes of journals with that of a new journal. -/
def codesWith (s : StoreState) (j : Journal) : StoreResult (NameMap JournalId) :=
  match j.code with
  | none => .ok s.journalCodes
  | some code =>
    (refuseIf (s.journalCodes.contains code) (.duplicateCode s!"journal code '{code}'")).map
      fun _ => s.journalCodes.put code j.id

def createJournal (s : StoreState) (m : Moment) (j : Journal) :
    StoreResult (UInt64 × StoreState) := do
  refuseIf (s.journals.contains j.id) (.duplicateCode s!"journal id {j.id}")
  let codes ← s.codesWith j
  append { s with journalCodes := codes, journals := s.journals.put j.id j } m [.journalCreated j]

/-- A changed journal stored. -/
def updateJournal (s : StoreState) (m : Moment) (j : Journal) (fields : List String) :
    StoreResult (UInt64 × StoreState) := do
  refuseIf (!s.journals.contains j.id) (.notFound s!"journal {j.id}")
  append { s with journals := s.journals.put j.id j } m [.journalUpdated j fields]

def createAccount (s : StoreState) (m : Moment) (a : Account) :
    StoreResult (UInt64 × StoreState) := do
  refuseIf (s.accountCodes.contains a.code) (.duplicateCode s!"account code '{a.code}'")
  refuseIf (s.accounts.contains a.id) (.duplicateCode s!"account id {a.id}")
  append
    { s with
      accountCodes := s.accountCodes.put a.code a.id
      accounts := s.accounts.put a.id a }
    m [.accountCreated a]

/-- A changed account stored. -/
def updateAccount (s : StoreState) (m : Moment) (a : Account) (fields : List String) :
    StoreResult (UInt64 × StoreState) := do
  refuseIf (!s.accounts.contains a.id) (.notFound s!"account {a.id}")
  append { s with accounts := s.accounts.put a.id a } m [.accountUpdated a fields]

def createTemplate (s : StoreState) (m : Moment) (t : TxTemplate) :
    StoreResult (UInt64 × StoreState) := do
  refuseIf (s.templates.contains t.code) (.duplicateCode s!"tx template code '{t.code}'")
  append { s with templates := s.templates.put t.code t } m [.templateCreated t]

/-- The external identifier of a transaction is not taken. -/
def checkExternalId (s : StoreState) (t : Transaction) : StoreResult Unit :=
  match t.externalId with
  | none => .ok ()
  | some x => refuseIf (s.externalIds.contains x) (.duplicateExternalId x)

/-- The transaction voided by another is stored and not voided yet. -/
def checkReverses (s : StoreState) (t : Transaction) : StoreResult Unit :=
  match t.reverses with
  | none => .ok ()
  | some target => do
    refuseIf (!s.transactions.contains target) (.notFound s!"transaction {target}")
    refuseIf (s.voided.contains target) (.alreadyVoided target)

/-- The row of a key after a delta. -/
def nextBalance (s : StoreState) (now : Timestamp) (id : TransactionId) (d : BalanceDelta) :
    StoreResult BalanceSnapshot :=
  (applyDelta (s.balances.get? d.key) d id now).mapError fun f =>
    f.map fun e => .invariant s!"balance {d.key.accountId}: {e.message}"

/-- The rows a transaction writes, once all checks have passed. -/
def planCommit (s : StoreState) (now : Timestamp) (t : Transaction) :
    StoreResult (List BalanceSnapshot) := do
  let ds ← Failure.lift (fun e => .invariant s!"balance delta: {e.message}") (deltas t.entries)
  s.checkExternalId t
  s.checkReverses t
  ds.mapM (s.nextBalance now t.id)

def externalIdsWith (s : StoreState) (t : Transaction) : NameMap TransactionId :=
  match t.externalId with
  | none => s.externalIds
  | some x => s.externalIds.put x t.id

def voidedWith (s : StoreState) (t : Transaction) : OrdMap TransactionId TransactionId :=
  match t.reverses with
  | none => s.voided
  | some target => s.voided.put target t.id

/-- The tables with a transaction and its rows written. -/
def record (s : StoreState) (t : Transaction) (rows : List BalanceSnapshot) : StoreState :=
  { s with
    externalIds := s.externalIdsWith t
    voided := s.voidedWith t
    balances := OrdMap.putRows BalanceSnapshot.key rows s.balances
    accountEntries := OrdMap.putRows Entry.historyKey t.entries s.accountEntries
    transactions := s.transactions.put t.id t }

/-- A transaction stored with the rows it changes. -/
def commit (s : StoreState) (m : Moment) (t : Transaction) :
    StoreResult (CommittedPosting × StoreState) := do
  let rows ← s.planCommit m.now t
  let (last, s') ← (s.record t rows).append m (postingEvents t rows)
  pure (⟨t, rows, last⟩, s')

/-- The reply to a call with the state after it. -/
def answer (m : Moment) (s : StoreState) : (c : StoreCall) → StoreResult (c.Reply × StoreState)
  | .createJournal j => s.createJournal m j
  | .findJournal id => .ok (s.journals.get? id, s)
  | .updateJournal j fields => s.updateJournal m j fields
  | .createAccount a => s.createAccount m a
  | .findAccount id => .ok (s.accounts.get? id, s)
  | .findAccountByCode code => .ok (s.accountByCode code, s)
  | .findAccounts ids => .ok (ids.filterMap fun id => s.accounts.get? id, s)
  | .updateAccount a fields => s.updateAccount m a fields
  | .createTemplate t => s.createTemplate m t
  | .findTemplate code => .ok (s.templates.get? code, s)
  | .commitTransaction t => s.commit m t
  | .findTransaction id => .ok (s.transactions.get? id, s)
  | .findTransactionByExternalId x => .ok (s.transactionByExternalId x, s)
  | .listAccountEntries account after limit =>
    .ok ((s.entriesAfter account after).take limit.toNat, s)
  | .loadBalances account journal currency => .ok (s.balanceRows account journal currency, s)
  | .loadOutboxAfter after limit => .ok (s.recordsFrom after limit, s)

end StoreState

/-! ## Changes and outcomes -/

namespace Change

variable {α β : Type}

/-- A change comes to an outcome: a reply and a new state, or an error with the state as it was. A
change that runs past a counter does so too, wherever it got to. -/
def ComesTo (x : Change α) (s : StoreState) : StoreResult (α × StoreState) → Prop
  | .ok (a, s') => x.run s = .ok a s'
  | .error (.error e) => x.run s = .error (.error e) s
  | .error .overflow => ∃ s', x.run s = .error .overflow s'

/-- At `s` a change only computes a result: it answers with it or fails, and writes nothing. -/
def Computes (x : Change α) (s : StoreState) (r : StoreResult α) : Prop :=
  x.run s = (ofResult r).run s

theorem computes_ofResult (r : StoreResult α) (s : StoreState) : (ofResult r).Computes s r := rfl

theorem computes_refuseIf (p : StoreState → Bool) (e : StoreError) (s : StoreState) :
    (refuseIf p e).Computes s (StoreState.refuseIf (p s) e) := by
  show (if p s = true then refuse e else pure ()).run s = _
  unfold StoreState.refuseIf
  split <;> rfl

theorem Computes.bind {x : Change α} {f : α → Change β} {s : StoreState} {r : StoreResult α}
    {g : α → StoreResult β} (hx : x.Computes s r) (hf : ∀ a, (f a).Computes s (g a)) :
    (x >>= f).Computes s (r >>= g) := by
  unfold Computes at *
  rw [EStateM.run_bind, hx]
  cases r with
  | error f => rfl
  | ok a => exact hf a

theorem Computes.mapM {f : α → Change β} {g : α → StoreResult β} {s : StoreState}
    (h : ∀ a, (f a).Computes s (g a)) (as : List α) : (as.mapM f).Computes s (as.mapM g) := by
  induction as with
  | nil => rfl
  | cons a as ih =>
    rw [List.mapM_cons, List.mapM_cons]
    exact (h a).bind fun b => ih.bind fun bs => rfl

/-- A check in front of a change is a check in front of what the change comes to. -/
theorem Computes.comesTo_bind {x : Change α} {f : α → Change β} {s : StoreState}
    {r : StoreResult α} {g : α → StoreResult (β × StoreState)} (hx : x.Computes s r)
    (hf : ∀ a, (f a).ComesTo s (g a)) : (x >>= f).ComesTo s (r >>= g) := by
  have hrun : (x >>= f).run s = (ofResult r >>= f).run s := by
    rw [EStateM.run_bind, EStateM.run_bind, hx]
  cases r with
  | ok a =>
    have ha := hf a
    unfold ComesTo at *
    rw [hrun]
    exact ha
  | error e =>
    cases e with
    | error e => exact hrun
    | overflow => exact ⟨s, hrun⟩

/-! ## Writing -/

/-- From `s` on a change only writes: it comes to an outcome, and the one way to fail is a counter
that is used up. -/
def Finishes (x : Change α) (s : StoreState) (r : StoreResult (α × StoreState)) : Prop :=
  (∃ a s', r = .ok (a, s') ∧ x.run s = .ok a s') ∨
    (r = .error .overflow ∧ ∃ s', x.run s = .error .overflow s')

theorem Finishes.comesTo {x : Change α} {s : StoreState} {r : StoreResult (α × StoreState)}
    (h : x.Finishes s r) : x.ComesTo s r := by
  rcases h with ⟨a, s', rfl, hrun⟩ | ⟨rfl, hrun⟩
  · exact hrun
  · exact hrun

theorem Finishes.write_bind {w : Change Unit} {f : Unit → Change α} {s t : StoreState}
    {r : StoreResult (α × StoreState)} (hw : w.run s = .ok () t) (hf : (f ()).Finishes t r) :
    (w >>= f).Finishes s r := by
  have hrun : (w >>= f).run s = (f ()).run t := by rw [EStateM.run_bind, hw]
  unfold Finishes at *
  rwa [hrun]

theorem Finishes.map {x : Change α} {s : StoreState} {r : StoreResult (α × StoreState)}
    (h : x.Finishes s r) (f : α → β) :
    (do let a ← x; pure (f a)).Finishes s (do let (a, s') ← r; pure (f a, s')) := by
  rcases h with ⟨a, s', rfl, hrun⟩ | ⟨rfl, s', hrun⟩
  · exact Or.inl ⟨f a, s', rfl, by rw [EStateM.run_bind, hrun]; rfl⟩
  · exact Or.inr ⟨rfl, s', by rw [EStateM.run_bind, hrun]⟩

theorem nextCount_cases (n : UInt64) :
    (∃ n', nextCount (ε := StoreError) n = .ok n') ∨
      nextCount (ε := StoreError) n = .error .overflow := by
  unfold nextCount
  split
  · exact Or.inl ⟨n + 1, rfl⟩
  · exact Or.inr rfl

theorem withRecords_nil (s : StoreState) : s.withRecords [] = s := by
  unfold StoreState.withRecords
  rw [List.append_nil]

theorem withRecords_append (s : StoreState) (records more : List OutboxRecord) :
    s.withRecords (records ++ more) = (s.withRecords records).withRecords more := by
  unfold StoreState.withRecords
  rw [List.append_assoc]

theorem recordsAfter_cons {recordId : Nat → Uuid} {last sequence : UInt64} {e : LedgerEvent}
    {es : List LedgerEvent} (h : nextCount (ε := StoreError) last = .ok sequence) :
    recordsAfter (ε := StoreError) recordId last (e :: es) =
      (recordsAfter (fun i => recordId (i + 1)) sequence es).map fun p =>
        (.ofEvent (recordId 0) sequence e :: p.1, p.2) := by
  rw [recordsAfter, h]
  show (recordsAfter (fun i => recordId (i + 1)) sequence es >>= fun p => _) = _
  cases recordsAfter (ε := StoreError) (fun i => recordId (i + 1)) sequence es <;> rfl

theorem appendFrom_finishes (recordId : Nat → Uuid) (last : UInt64) (events : List LedgerEvent)
    (s : StoreState) :
    (appendFrom recordId last events).Finishes s
      ((recordsAfter recordId last events).map fun p => (p.2, s.withRecords p.1)) := by
  induction events generalizing recordId last s with
  | nil =>
    refine Or.inl ⟨last, s, ?_, rfl⟩
    show Except.ok (last, s.withRecords []) = _
    rw [withRecords_nil]
  | cons e es ih =>
    unfold appendFrom
    rcases nextCount_cases last with ⟨sequence, hnext⟩ | hnext
    · have hrest := ih (fun i => recordId (i + 1)) sequence
        (s.withRecords [.ofEvent (recordId 0) sequence e])
      have hall : (recordsAfter (ε := StoreError) recordId last (e :: es)).map
            (fun p => (p.2, s.withRecords p.1)) =
          (recordsAfter (fun i => recordId (i + 1)) sequence es).map
            (fun p =>
              (p.2, (s.withRecords [.ofEvent (recordId 0) sequence e]).withRecords p.1)) := by
        rw [recordsAfter_cons hnext]
        cases recordsAfter (ε := StoreError) (fun i => recordId (i + 1)) sequence es with
        | error f => rfl
        | ok p => exact congrArg (fun t => Except.ok (p.2, t)) (withRecords_append s [_] p.1)
      rw [hall, hnext]
      show (putRecord _ >>= fun _ => appendFrom _ sequence es).Finishes s _
      exact Finishes.write_bind rfl hrest
    · rw [recordsAfter, hnext]
      exact Or.inr ⟨rfl, s, rfl⟩

theorem append_finishes (m : Moment) (events : List LedgerEvent) (s : StoreState) :
    (append m events).Finishes s (s.append m events) :=
  appendFrom_finishes m.recordId s.lastSequence events s

/-! ## Every change comes to its outcome -/

theorem takeJournalCode_run (j : Journal) (s : StoreState) :
    (takeJournalCode j).run s = match s.codesWith j with
      | .ok codes => .ok () { s with journalCodes := codes }
      | .error f => .error f s := by
  unfold takeJournalCode StoreState.codesWith
  cases j.code with
  | none => rfl
  | some code =>
    dsimp only
    rw [EStateM.run_bind, computes_refuseIf]
    unfold StoreState.refuseIf
    cases s.journalCodes.contains code <;> rfl

theorem codesWith_error {s : StoreState} {j : Journal} {f : Failure StoreError}
    (h : s.codesWith j = .error f) : ∃ e, f = .error e := by
  unfold StoreState.codesWith StoreState.refuseIf at h
  cases hcode : j.code with
  | none => rw [hcode] at h; cases h
  | some code =>
    rw [hcode] at h
    dsimp only at h
    split at h
    · cases h; exact ⟨_, rfl⟩
    · cases h

theorem createJournal_comesTo (m : Moment) (j : Journal) (s : StoreState) :
    (createJournal m j).ComesTo s (s.createJournal m j) := by
  refine (computes_refuseIf _ _ s).comesTo_bind fun _ => ?_
  have hcode := takeJournalCode_run j s
  cases hcodes : s.codesWith j with
  | ok codes =>
    rw [hcodes] at hcode
    exact Finishes.comesTo (.write_bind hcode (.write_bind rfl (append_finishes m _ _)))
  | error f =>
    obtain ⟨e, rfl⟩ := codesWith_error hcodes
    rw [hcodes] at hcode
    show (takeJournalCode j >>= _).run s = _
    rw [EStateM.run_bind, hcode]

theorem updateJournal_comesTo (m : Moment) (j : Journal) (fields : List String) (s : StoreState) :
    (updateJournal m j fields).ComesTo s (s.updateJournal m j fields) :=
  (computes_refuseIf _ _ s).comesTo_bind fun _ =>
    Finishes.comesTo (.write_bind rfl (append_finishes m _ _))

theorem createAccount_comesTo (m : Moment) (a : Account) (s : StoreState) :
    (createAccount m a).ComesTo s (s.createAccount m a) :=
  (computes_refuseIf _ _ s).comesTo_bind fun _ => (computes_refuseIf _ _ s).comesTo_bind fun _ =>
    Finishes.comesTo (.write_bind rfl (.write_bind rfl (append_finishes m _ _)))

theorem updateAccount_comesTo (m : Moment) (a : Account) (fields : List String) (s : StoreState) :
    (updateAccount m a fields).ComesTo s (s.updateAccount m a fields) :=
  (computes_refuseIf _ _ s).comesTo_bind fun _ =>
    Finishes.comesTo (.write_bind rfl (append_finishes m _ _))

theorem createTemplate_comesTo (m : Moment) (t : TxTemplate) (s : StoreState) :
    (createTemplate m t).ComesTo s (s.createTemplate m t) :=
  (computes_refuseIf _ _ s).comesTo_bind fun _ =>
    Finishes.comesTo (.write_bind rfl (append_finishes m _ _))

/-! ## Commits -/

theorem computes_checkExternalId (t : Transaction) (s : StoreState) :
    (checkExternalId t).Computes s (s.checkExternalId t) := by
  unfold checkExternalId StoreState.checkExternalId
  cases t.externalId with
  | none => rfl
  | some x => exact computes_refuseIf _ _ s

theorem computes_checkReverses (t : Transaction) (s : StoreState) :
    (checkReverses t).Computes s (s.checkReverses t) := by
  unfold checkReverses StoreState.checkReverses
  cases t.reverses with
  | none => rfl
  | some target => exact (computes_refuseIf _ _ s).bind fun _ => computes_refuseIf _ _ s

theorem computes_nextBalance (now : Timestamp) (id : TransactionId) (s : StoreState)
    (d : BalanceDelta) : (nextBalance now id d).Computes s (s.nextBalance now id d) := rfl

theorem putBalances_run (rows : List BalanceSnapshot) (s : StoreState) :
    (rows.forM putBalance).run s =
      .ok () { s with balances := OrdMap.putRows BalanceSnapshot.key rows s.balances } := by
  induction rows generalizing s with
  | nil => rfl
  | cons b rest ih => exact ih { s with balances := s.balances.put b.key b }

theorem putEntries_run (entries : List Entry) (s : StoreState) :
    (entries.forM putEntry).run s =
      .ok () { s with
        accountEntries := OrdMap.putRows Entry.historyKey entries s.accountEntries } := by
  induction entries generalizing s with
  | nil => rfl
  | cons e rest ih => exact ih { s with accountEntries := s.accountEntries.put e.historyKey e }

theorem putExternalId_run (t : Transaction) (s : StoreState) :
    (putExternalId t).run s = .ok () { s with externalIds := s.externalIdsWith t } := by
  unfold putExternalId StoreState.externalIdsWith
  cases t.externalId <;> rfl

theorem putVoided_run (t : Transaction) (s : StoreState) :
    (putVoided t).run s = .ok () { s with voided := s.voidedWith t } := by
  unfold putVoided StoreState.voidedWith
  cases t.reverses <;> rfl

theorem commit_comesTo (m : Moment) (t : Transaction) (s : StoreState) :
    (commit m t).ComesTo s (s.commit m t) := by
  unfold commit StoreState.commit StoreState.planCommit
  rw [bind_assoc]
  refine (computes_ofResult _ s).comesTo_bind fun ds => ?_
  rw [bind_assoc]
  refine (computes_checkExternalId t s).comesTo_bind fun _ => ?_
  rw [bind_assoc]
  refine (computes_checkReverses t s).comesTo_bind fun _ => ?_
  refine (Computes.mapM (computes_nextBalance m.now t.id s) ds).comesTo_bind fun rows => ?_
  refine Finishes.comesTo (.write_bind (putExternalId_run t s) (.write_bind (putVoided_run t _)
    (.write_bind (putBalances_run rows _) (.write_bind (putEntries_run t.entries _)
      (.write_bind rfl ?_)))))
  exact (append_finishes m _ _).map _

/-- Every change comes to the outcome of its call. -/
theorem ofCall_comesTo (m : Moment) (s : StoreState) (c : StoreCall) :
    (ofCall m c).ComesTo s (s.answer m c) := by
  cases c with
  | createJournal j => exact createJournal_comesTo m j s
  | updateJournal j fields => exact updateJournal_comesTo m j fields s
  | createAccount a => exact createAccount_comesTo m a s
  | updateAccount a fields => exact updateAccount_comesTo m a fields s
  | createTemplate t => exact createTemplate_comesTo m t s
  | commitTransaction t => exact commit_comesTo m t s
  | _ => rfl

end Change

/-- A call answers with the reply and the state of its outcome; where there is none, the state is
as it was. -/
theorem StoreState.run_eq_answer (m : Moment) (c : StoreCall) (s : StoreState) :
    StoreState.run m c s = match s.answer m c with
      | .ok (reply, s') => (.ok reply, s')
      | .error f => (.error f, s) := by
  have h := Change.ofCall_comesTo m s c
  unfold StoreState.run
  cases hr : s.answer m c with
  | ok p =>
    have hrun : (Change.ofCall m c).run s = .ok p.1 p.2 := by rwa [hr] at h
    rw [hrun]
  | error f =>
    cases f with
    | error e =>
      have hrun : (Change.ofCall m c).run s = .error (.error e) s := by rwa [hr] at h
      rw [hrun]
    | overflow =>
      obtain ⟨s', hrun⟩ : ∃ s', (Change.ofCall m c).run s = .error .overflow s' := by
        rwa [hr] at h
      rw [hrun]

theorem StoreState.answer_of_run {m : Moment} {c : StoreCall} {s s' : StoreState} {reply : c.Reply}
    (h : StoreState.run m c s = (.ok reply, s')) : s.answer m c = .ok (reply, s') := by
  rw [run_eq_answer] at h
  split at h
  · next hanswer =>
    cases h
    exact hanswer
  · cases h

/-- A call fails exactly if it has no outcome, and then leaves the state. -/
theorem StoreState.run_fst_eq_error {m : Moment} {c : StoreCall} {s : StoreState}
    {f : Failure StoreError} : (StoreState.run m c s).1 = .error f ↔ s.answer m c = .error f := by
  rw [run_eq_answer]
  cases s.answer m c with
  | ok p => exact iff_of_false nofun nofun
  | error f' => exact Iff.rfl.trans ⟨congrArg _ ∘ Except.error.inj, congrArg _ ∘ Except.error.inj⟩

theorem StoreState.run_snd_of_error {m : Moment} {c : StoreCall} {s : StoreState}
    {f : Failure StoreError} (h : s.answer m c = .error f) : (StoreState.run m c s).2 = s := by
  rw [run_eq_answer, h]

end DoubleEntry
