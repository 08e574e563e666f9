import DoubleEntry.Proofs.Engine.Operations
import DoubleEntry.Proofs.Store.Success

/-!
# What an operation writes

Every operation reads first, and writes with one call at most, after which it is done. `Writes`
lists these calls with all that the operation has found out by then: where the row comes from, what
was looked up and what was checked. Main statement: `Chronicle.perform_cases`, a request leaves the
tables as they are, or makes one such call that is answered and comes out with its result.
-/

namespace DoubleEntry

open Ledger

/-! ## Calls on a chronicle -/

namespace Chronicle

theorem commitOf_error (m : Moment) (c : StoreCall) (f : Failure StoreError) :
    commitOf m c (.error f) = [] := by
  cases c <;> rfl

theorem commitOf_of_ne {c : StoreCall} (hc : ∀ t, c ≠ .commitTransaction t) (m : Moment)
    (r : StoreResult c.Reply) : commitOf m c r = [] := by
  cases c with
  | commitTransaction t => exact absurd rfl (hc t)
  | _ => rfl

/-- A call is answered with the reply and the state of its outcome, or leaves the chronicle as it
is. -/
theorem run_eq_answer (m : Moment) (c : StoreCall) (h : Chronicle) :
    Chronicle.run m c h = match h.state.answer m c with
      | .ok (reply, s') => (.ok reply, ⟨s', h.commits ++ commitOf m c (.ok reply)⟩)
      | .error f => (.error f, h) := by
  unfold Chronicle.run
  rw [StoreState.run_eq_answer]
  cases h.state.answer m c with
  | ok p => rfl
  | error f =>
    show (_, Chronicle.mk h.state (h.commits ++ commitOf m c (.error f))) = _
    rw [commitOf_error, List.append_nil]

/-- A call makes one commit, which the outbox tells of, or leaves postings and commits as they
are. -/
theorem run_cases (m : Moment) (c : StoreCall) (h : Chronicle) :
    (∃ t rows s', h.state.planCommit m.now t = .ok rows ∧
        s'.recorded = h.state.recorded ++ [t] ∧
        (∃ records, s' = (h.state.record t rows).withRecords records) ∧
        (Chronicle.run m c h).2 = ⟨s', h.commits ++ [⟨m.now, t⟩]⟩) ∨
      ∃ s', h.state.SamePostings s' ∧ (Chronicle.run m c h).2 = ⟨s', h.commits⟩ := by
  rw [run_eq_answer]
  cases hanswer : h.state.answer m c with
  | error f => exact Or.inr ⟨h.state, .refl _, rfl⟩
  | ok p =>
    obtain ⟨reply, s'⟩ := p
    rcases StoreState.postings_of_answer hanswer with
      ⟨t, rows, rfl, hplan, hrecorded, hrecords⟩ | ⟨hc, hsame⟩
    · exact Or.inl ⟨t, rows, s', hplan, hrecorded, hrecords, rfl⟩
    · refine Or.inr ⟨s', hsame, ?_⟩
      dsimp only
      rw [commitOf_of_ne hc, List.append_nil]

theorem run_ask (m : Moment) (c : StoreCall) (h : Chronicle) :
    (ask c).run (Chronicle.run m) h = match h.state.answer m c with
      | .ok (reply, s') => (.ok reply, ⟨s', h.commits ++ commitOf m c (.ok reply)⟩)
      | .error f => (.error (f.map .ofStore), h) := by
  unfold ask Prog.ask
  rw [Prog.run_call, run_eq_answer]
  cases h.state.answer m c with
  | ok p => rfl
  | error f => cases f <;> rfl

/-- A call that answers from the tables as they are. -/
theorem run_ask_read {m : Moment} {c : StoreCall} {v : c.Reply} {h : Chronicle}
    (hv : h.state.answer m c = .ok (v, h.state)) (hc : commitOf m c (.ok v) = []) :
    (ask c).run (Chronicle.run m) h = (.ok v, h) := by
  rw [run_ask, hv]
  show (_, Chronicle.mk h.state (h.commits ++ commitOf m c (.ok v))) = _
  rw [hc, List.append_nil]

end Chronicle

/-! ## Lookups -/

/-- What a lookup comes out with. -/
def lookup {α : Type} (what : String) : Option α → Except (Failure EngineError) α
  | some a => .ok a
  | none => .error (.error (.notFound what))

theorem lookup_eq_ok {α : Type} {what : String} {o : Option α} {a : α} (h : lookup what o = .ok a) :
    o = some a := by
  cases o with
  | none => cases h
  | some b => cases h; rfl

theorem run_found {α σ : Type} (backend : Backend σ) (what : String) (o : Option α) (s : σ) :
    (found what o).run backend s = (lookup what o, s) := by
  cases o <;> rfl

section Reads

variable (m : Moment) (h : Chronicle)

theorem run_findJournal (id : JournalId) :
    (findJournal id).run (Chronicle.run m) h =
      (lookup s!"journal {id}" (h.state.journals.get? id), h) := by
  unfold findJournal
  rw [Prog.run_bind, Chronicle.run_ask_read rfl rfl]
  exact run_found _ _ _ h

theorem run_findAccount (id : AccountId) :
    (findAccount id).run (Chronicle.run m) h =
      (lookup s!"account {id}" (h.state.accounts.get? id), h) := by
  unfold findAccount
  rw [Prog.run_bind, Chronicle.run_ask_read rfl rfl]
  exact run_found _ _ _ h

theorem run_findAccountByCode (code : String) :
    (findAccountByCode code).run (Chronicle.run m) h =
      (lookup s!"account code '{code}'" (h.state.accountByCode code), h) := by
  unfold findAccountByCode
  rw [Prog.run_bind, Chronicle.run_ask_read rfl rfl]
  exact run_found _ _ _ h

theorem run_findTemplate (code : String) :
    (findTemplate code).run (Chronicle.run m) h =
      (lookup s!"transaction template '{code}'" (h.state.templates.get? code), h) := by
  unfold findTemplate
  rw [Prog.run_bind, Chronicle.run_ask_read rfl rfl]
  exact run_found _ _ _ h

theorem run_findTransaction (id : TransactionId) :
    (findTransaction id).run (Chronicle.run m) h =
      (lookup s!"transaction {id}" (h.state.transactions.get? id), h) := by
  unfold findTransaction
  rw [Prog.run_bind, Chronicle.run_ask_read rfl rfl]
  exact run_found _ _ _ h

theorem run_findTransactionByExternalId (x : String) :
    (Ledger.findTransactionByExternalId x).run (Chronicle.run m) h =
      (lookup s!"transaction with external id '{x}'" (h.state.transactionByExternalId x), h) := by
  unfold Ledger.findTransactionByExternalId
  rw [Prog.run_bind, Chronicle.run_ask_read rfl rfl]
  exact run_found _ _ _ h

end Reads

/-! ## Writing once -/

/-- A program leaves the chronicle as it is, or makes one call of those that `W` lists, which is
answered, and comes out with the result that `W` gives it. -/
def WritesOnce {α : Type} (m : Moment) (h : Chronicle) (W : StoreCall → α → Prop) (p : Action α) :
    Prop :=
  (p.run (Chronicle.run m) h).2 = h ∨
    ∃ c reply s' a, W c a ∧ h.state.answer m c = .ok (reply, s') ∧
      p.run (Chronicle.run m) h = (.ok a, ⟨s', h.commits ++ Chronicle.commitOf m c (.ok reply)⟩)

namespace WritesOnce

variable {α β : Type} {m : Moment} {h : Chronicle} {W : StoreCall → α → Prop}

theorem of_run {p : Action α} {r : Except (Failure EngineError) α}
    (hp : p.run (Chronicle.run m) h = (r, h)) : WritesOnce m h W p := by
  left
  rw [hp]

/-- What follows a lookup may rely on what was found. -/
theorem bind {p : Action β} {f : β → Action α} {r : Except (Failure EngineError) β}
    (hp : p.run (Chronicle.run m) h = (r, h))
    (hf : ∀ b, r = .ok b → WritesOnce m h W (f b)) : WritesOnce m h W (p >>= f) := by
  cases r with
  | ok b =>
    have hrun : (p >>= f).run (Chronicle.run m) h = (f b).run (Chronicle.run m) h := by
      rw [Prog.run_bind, hp]
    unfold WritesOnce
    rw [hrun]
    exact hf b rfl
  | error e =>
    left
    rw [Prog.run_bind, hp]

/-- So may what follows a computation. -/
theorem bind_ofExcept {δ : Type} {g : δ → EngineError} {e : Except δ β} {f : β → Action α}
    (hf : ∀ b, e = .ok b → WritesOnce m h W (f b)) :
    WritesOnce m h W (Prog.ofExcept g e >>= f) := by
  cases e with
  | ok b => exact hf b rfl
  | error e => exact Or.inl rfl

/-- A call that is made last. -/
theorem ask {c : StoreCall} {a : α} (ha : W c a) :
    WritesOnce m h W (do let _ ← Ledger.ask c; pure a) := by
  have hrun : (Ledger.ask c >>= fun _ => pure a).run (Chronicle.run m) h =
      match h.state.answer m c with
      | .ok (reply, s') => (.ok a, ⟨s', h.commits ++ Chronicle.commitOf m c (.ok reply)⟩)
      | .error f => (.error (f.map .ofStore), h) := by
    rw [Prog.run_bind, Chronicle.run_ask]
    cases h.state.answer m c <;> rfl
  unfold WritesOnce
  cases hc : h.state.answer m c with
  | ok p =>
    rw [hc] at hrun
    exact Or.inr ⟨c, p.1, p.2, a, ha, hc, hrun⟩
  | error f =>
    rw [hc] at hrun
    left
    rw [hrun]

/-- A commit answers with its transaction. Where its external identifier is taken, all that is left
to do is to look up who holds it. -/
theorem commit {W : StoreCall → Transaction → Prop} {t : Transaction}
    (ht : W (.commitTransaction t) t) : WritesOnce m h W (Ledger.commit t) := by
  unfold WritesOnce Ledger.commit Prog.attempt
  rw [Prog.run_bind, Prog.run_call, Chronicle.run_eq_answer]
  cases hc : h.state.answer m (.commitTransaction t) with
  | ok p =>
    obtain ⟨committed, s'⟩ := p
    have htransaction : committed.transaction = t := (StoreState.commit_eq_ok hc).1
    refine Or.inr ⟨.commitTransaction t, committed, s', t, ht, hc, ?_⟩
    show (Except.ok committed.transaction, _) = _
    rw [htransaction]
  | error f =>
    left
    cases f with
    | overflow => rfl
    | error e =>
      cases e with
      | duplicateExternalId what =>
        show ((Ledger.ask (.findTransactionByExternalId _) >>= _).run (Chronicle.run m) h).2 = h
        rw [Prog.run_bind, Chronicle.run_ask_read rfl rfl]
        cases h.state.transactionByExternalId (t.externalId.getD "") <;> rfl
      | _ => rfl

end WritesOnce

/-! ## Accounts of a posting -/

theorem mem_distinctIds {id : AccountId} {ids : List AccountId} (h : id ∈ ids) :
    id ∈ distinctIds ids := by
  unfold distinctIds
  rw [OrdMap.mem_keys_ofList, List.map_map]
  exact List.mem_map.mpr ⟨id, h, rfl⟩

/-- A row of the table is the account with this identifier. -/
def StoreState.HasAccount (s : StoreState) (id : AccountId) : Prop :=
  ∃ key a, s.accounts.get? key = some a ∧ a.id = id

/-- Where no identifier is missing among the rows found, each has its account. -/
theorem StoreState.hasAccount_of_found {s : StoreState} {ids : List AccountId}
    (h : ((distinctIds ids).find? fun id => !((distinctIds ids).filterMap fun id =>
      s.accounts.get? id).any fun a => a.id == id) = none) : ∀ id ∈ ids, s.HasAccount id := by
  intro id hid
  have hfound := List.find?_eq_none.mp h id (mem_distinctIds hid)
  rw [Bool.not_eq_true, Bool.not_eq_false', List.any_eq_true] at hfound
  obtain ⟨a, ha, hsame⟩ := hfound
  obtain ⟨key, -, hkey⟩ := List.mem_filterMap.mp ha
  exact ⟨key, a, hkey, eq_of_beq hsame⟩

theorem run_ensureAccounts (m : Moment) (h : Chronicle) (ids : List AccountId) :
    ∃ r, (ensureAccounts ids).run (Chronicle.run m) h = (r, h) ∧
      (r = .ok () → ∀ id ∈ ids, h.state.HasAccount id) := by
  unfold ensureAccounts
  rw [Prog.run_bind, Chronicle.run_ask_read rfl rfl]
  dsimp only
  split
  · exact ⟨_, rfl, nofun⟩
  · next hall => exact ⟨_, rfl, fun _ => StoreState.hasAccount_of_found hall⟩

/-! ## The call of each operation -/

/-- The call that an operation writes with, and what it comes out with then. -/
inductive Writes (stamp : Stamp) (s : StoreState) : (o : Operation) → StoreCall → o.Result → Prop
  | createJournal {new : NewJournal} {j : Journal} (hnew : Journal.create new stamp.now = .ok j) :
    Writes stamp s (.createJournal new) (.createJournal j) j
  | updateJournal {id : JournalId} {u : JournalUpdate} {old j : Journal} {fields : List String}
    (hold : s.journals.get? id = some old) (hu : old.update u stamp.now = .ok (j, fields))
    (hfields : fields ≠ []) :
    Writes stamp s (.updateJournal id u) (.updateJournal j fields) j
  | createAccount {new : NewAccount} {a : Account} (hnew : Account.create new stamp.now = .ok a) :
    Writes stamp s (.createAccount new) (.createAccount a) a
  | updateAccount {id : AccountId} {u : AccountUpdate} {old a : Account} {fields : List String}
    (hold : s.accounts.get? id = some old) (hu : old.update u stamp.now = .ok (a, fields))
    (hfields : fields ≠ []) :
    Writes stamp s (.updateAccount id u) (.updateAccount a fields) a
  | createTemplate {new : NewTxTemplate} {t : TxTemplate} (hnew : new.create stamp.now = .ok t) :
    Writes stamp s (.createTemplate new) (.createTemplate t) t
  | post {code : String} {supplied : Params} {template : TxTemplate} {bound : BoundParams}
    {header : ResolvedHeader} {journal : Journal} {entries : List ResolvedEntry} {t : Transaction}
    (htemplate : s.templates.get? code = some template)
    (hbound : template.bindParams supplied = .ok bound)
    (hheader : template.resolveHeader bound.params = .ok header)
    (hnew : ∀ x, header.externalId = some x → s.transactionByExternalId x = none)
    (hjournal : s.journals.get? header.journalId = some journal)
    (hentries : template.materializeEntries bound.params = .ok entries)
    (haccounts : ∀ e ∈ entries, s.HasAccount e.accountId)
    (ht : Transaction.assemble template header entries stamp = .ok t) :
    Writes stamp s (.post code supplied) (.commitTransaction t) t
  | void {id : TransactionId} {target : Transaction}
    (htarget : s.transactions.get? id = some target) :
    Writes stamp s (.void id) (.commitTransaction (target.reversal stamp)) (target.reversal stamp)

section Operations

variable (m : Moment) (h : Chronicle) (stamp : Stamp)

theorem writesOnce_updateJournal (id : JournalId) (u : JournalUpdate) :
    WritesOnce m h (Writes stamp h.state (.updateJournal id u))
      (Ledger.updateJournal id u stamp.now) := by
  refine WritesOnce.bind (run_findJournal m h id) fun old hold => ?_
  refine WritesOnce.bind_ofExcept fun p hp => ?_
  obtain ⟨j, fields⟩ := p
  dsimp only
  split
  · exact WritesOnce.of_run rfl
  · next hfields =>
    rw [List.isEmpty_iff] at hfields
    exact WritesOnce.ask (Writes.updateJournal (lookup_eq_ok hold) hp hfields)

theorem writesOnce_updateAccount (id : AccountId) (u : AccountUpdate) :
    WritesOnce m h (Writes stamp h.state (.updateAccount id u))
      (Ledger.updateAccount id u stamp.now) := by
  refine WritesOnce.bind (run_findAccount m h id) fun old hold => ?_
  refine WritesOnce.bind_ofExcept fun p hp => ?_
  obtain ⟨a, fields⟩ := p
  dsimp only
  split
  · exact WritesOnce.of_run rfl
  · next hfields =>
    rw [List.isEmpty_iff] at hfields
    exact WritesOnce.ask (Writes.updateAccount (lookup_eq_ok hold) hp hfields)

theorem run_alreadyPosted (x : Option String) :
    (alreadyPosted x).run (Chronicle.run m) h =
      (.ok (x.bind h.state.transactionByExternalId), h) := by
  cases x with
  | none => rfl
  | some x => exact Chronicle.run_ask_read rfl rfl

theorem writesOnce_post (code : String) (supplied : Params) :
    WritesOnce m h (Writes stamp h.state (.post code supplied))
      (Ledger.post code supplied stamp) := by
  refine WritesOnce.bind (Chronicle.run_ask_read rfl rfl) fun found hfound => ?_
  cases hfound
  cases htemplate : h.state.templates.get? code with
  | none => exact WritesOnce.of_run rfl
  | some template =>
    refine WritesOnce.bind_ofExcept fun bound hbound => ?_
    refine WritesOnce.bind_ofExcept fun header hheader => ?_
    refine WritesOnce.bind (run_alreadyPosted m h header.externalId) fun stored hstored => ?_
    cases hstored
    cases hposted : header.externalId.bind h.state.transactionByExternalId with
    | some stored => exact WritesOnce.of_run rfl
    | none =>
      have hnew : ∀ x, header.externalId = some x →
          h.state.transactionByExternalId x = none := by
        intro x hx
        rwa [hx] at hposted
      refine WritesOnce.bind (run_findJournal m h _) fun journal hjournal => ?_
      refine WritesOnce.bind_ofExcept fun entries hentries => ?_
      obtain ⟨r, hrun, haccounts⟩ :=
        run_ensureAccounts m h (entries.map ResolvedEntry.accountId)
      refine WritesOnce.bind hrun fun _ hr => ?_
      refine WritesOnce.bind_ofExcept fun t ht => ?_
      exact WritesOnce.commit (Writes.post htemplate hbound hheader hnew (lookup_eq_ok hjournal)
        hentries (fun e he => haccounts hr _ (List.mem_map_of_mem he)) ht)

end Operations

/-- A request leaves everything as it is, or makes the one call of its operation, which is answered
and fixes the result. -/
theorem Chronicle.perform_cases (h : Chronicle) (r : Request) :
    (h.perform r).2 = h ∨
      ∃ c reply s' result, Writes r.stamp h.state r.operation c result ∧
        h.state.answer r.moment c = .ok (reply, s') ∧
        h.perform r = (.ok result, ⟨s', h.commits ++ commitOf r.moment c (.ok reply)⟩) := by
  obtain ⟨o, stamp, m⟩ := r
  show WritesOnce m h (Writes stamp h.state o) (o.action stamp)
  cases o with
  | createJournal new =>
    exact WritesOnce.bind_ofExcept fun j hj => WritesOnce.ask (Writes.createJournal hj)
  | findJournal id => exact WritesOnce.of_run (run_findJournal m h id)
  | updateJournal id u => exact writesOnce_updateJournal m h stamp id u
  | createAccount new =>
    exact WritesOnce.bind_ofExcept fun a ha => WritesOnce.ask (Writes.createAccount ha)
  | findAccount id => exact WritesOnce.of_run (run_findAccount m h id)
  | findAccountByCode code => exact WritesOnce.of_run (run_findAccountByCode m h code)
  | updateAccount id u => exact writesOnce_updateAccount m h stamp id u
  | createTemplate new =>
    exact WritesOnce.bind_ofExcept fun t ht => WritesOnce.ask (Writes.createTemplate ht)
  | findTemplate code => exact WritesOnce.of_run (run_findTemplate m h code)
  | post code supplied => exact writesOnce_post m h stamp code supplied
  | void id =>
    exact WritesOnce.bind (run_findTransaction m h id) fun target htarget =>
      WritesOnce.commit (Writes.void (lookup_eq_ok htarget))
  | findTransaction id => exact WritesOnce.of_run (run_findTransaction m h id)
  | findTransactionByExternalId x =>
    exact WritesOnce.of_run (run_findTransactionByExternalId m h x)
  | accountBalance account journal currency =>
    refine WritesOnce.bind (run_findAccount m h account) fun a _ => ?_
    exact WritesOnce.bind (Chronicle.run_ask_read rfl rfl) fun _ _ => WritesOnce.of_run rfl
  | listAccountEntries account after limit =>
    refine WritesOnce.bind (run_findAccount m h account) fun a _ => ?_
    exact WritesOnce.bind (Chronicle.run_ask_read rfl rfl) fun _ _ => WritesOnce.of_run rfl
  | outboxAfter after limit => exact WritesOnce.of_run (Chronicle.run_ask_read rfl rfl)

/-- A request that leaves a chronicle as it is leaves the tables as they are. -/
theorem StoreState.perform_of_run {s : StoreState} {o : Operation} {stamp : Stamp} {m : Moment}
    {r : Except (Failure EngineError) o.Result}
    (h : (o.action stamp).run (Chronicle.run m) ⟨s, []⟩ = (r, ⟨s, []⟩)) :
    s.perform ⟨o, stamp, m⟩ = (r, s) := by
  have hstate := Chronicle.perform_state ⟨s, []⟩ ⟨o, stamp, m⟩
  rwa [show Chronicle.perform ⟨s, []⟩ ⟨o, stamp, m⟩ = _ from h] at hstate

end DoubleEntry
