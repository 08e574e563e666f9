import DoubleEntry.Database.Store
import DoubleEntry.Proofs.Database.Columns
import DoubleEntry.Proofs.Database.Exchange
import DoubleEntry.Proofs.Engine.Effects
import DoubleEntry.Proofs.Outbox.Numbered

/-!
# Changes are made as a whole or not at all

Every change is a session in one database transaction, whose body sends statements alone. What a
body exchanged when it came out with a value is `Complete`: all of its statements were accepted and
all it read could be read, the rows the change is about come first, and then the outbox records of
its events, numbered on from the number read under the lock. A body that fails anywhere is rolled
back.

Main statement: `changes_as_a_whole`.
-/

namespace DoubleEntry

/-- The events of a change that writes these balance rows. -/
def StoreCall.events (rows : List BalanceSnapshot) : StoreCall → List LedgerEvent
  | .createJournal j => [.journalCreated j]
  | .updateJournal j fields => [.journalUpdated j fields]
  | .createAccount a => [.accountCreated a]
  | .updateAccount a fields => [.accountUpdated a fields]
  | .createTemplate t => [.templateCreated t]
  | .commitTransaction t => postingEvents t rows
  | _ => []

namespace Database

open Session

/-! ## What was exchanged -/

/-- A statement was sent, and accepted. -/
def Accepts (s : Statement) (x : Exchange) : Prop := ∃ a, x = ⟨.statement s, .ok a⟩

/-- A command that ends a transaction with its changes. -/
def Exchange.isCommit (x : Exchange) : Bool :=
  match x.command with
  | .commit => true
  | _ => false

/-- The records of events were inserted, numbered on from the head that was read under the lock. -/
inductive Appended (events : List LedgerEvent) : List Exchange → Prop
  | intro {locked head : Answer} {row : Row} {last : UInt64} {records : List OutboxRecord}
    {inserts : List Exchange} (hrow : head.rows.head? = some row)
    (hlast : row.get "last" asWord64 = .ok last)
    (hpayloads : records.map OutboxRecord.payload = events)
    (hnumbers : records.map OutboxRecord.number = List.range' (last.toNat + 1) events.length)
    (hbound : ∀ n : Nat, OrdMap.get? "last" row = some (.int n) →
      n + events.length < pow2 63 →
      records.map (fun r => (Statement.insertRecord r).params[0]?) =
        (List.range' (n + 1) events.length).map fun i : Nat => some (.int i))
    (hinserts : List.Forall₂ Accepts (records.map Statement.insertRecord) inserts) :
    Appended events
      (⟨.statement .lockOutbox, .ok locked⟩ :: ⟨.statement .outboxHead, .ok head⟩ :: inserts)

/-- The rows of deltas were inserted where they were missing, locked and read, and updated. -/
inductive Moved (now : Timestamp) (id : TransactionId) :
    List BalanceDelta → List BalanceSnapshot → List Exchange → Prop
  | nil : Moved now id [] [] []
  | cons {d : BalanceDelta} {ds : List BalanceDelta} {b : BalanceSnapshot}
    {bs : List BalanceSnapshot} {ensured locked updated : Answer} {row : Row}
    {current : Option BalanceSnapshot} {log : List Exchange}
    (hrow : locked.rows.head? = some row) (hcurrent : readLocked row = .ok current)
    (hnext : applyDeltaBy addToTotal current d id now = .ok b) (h : Moved now id ds bs log) :
    Moved now id (d :: ds) (b :: bs)
      (⟨.statement (.ensureBalance d.key now), .ok ensured⟩ ::
        ⟨.statement (.lockBalance d.key), .ok locked⟩ ::
          ⟨.statement (.updateBalance d.key b), .ok updated⟩ :: log)

/-- The rows that a change is about were written, among them these balance rows. -/
inductive Wrote (m : Moment) : StoreCall → List BalanceSnapshot → List Exchange → Prop
  | createJournal {j : Journal} {a : Answer} :
    Wrote m (.createJournal j) [] [⟨.statement (.insertJournal j), .ok a⟩]
  | updateJournal {j : Journal} {fields : List String} {a : Answer} (h : a.affected ≠ 0) :
    Wrote m (.updateJournal j fields) [] [⟨.statement (.updateJournal j), .ok a⟩]
  | createAccount {account : Account} {a : Answer} :
    Wrote m (.createAccount account) [] [⟨.statement (.insertAccount account), .ok a⟩]
  | updateAccount {account : Account} {fields : List String} {a : Answer} (h : a.affected ≠ 0) :
    Wrote m (.updateAccount account fields) [] [⟨.statement (.updateAccount account), .ok a⟩]
  | createTemplate {t : TxTemplate} {a : Answer} :
    Wrote m (.createTemplate t) [] [⟨.statement (.insertTemplate t), .ok a⟩]
  | commitTransaction {t : Transaction} {ds : List BalanceDelta} {a : Answer}
    {entries moves : List Exchange} {rows : List BalanceSnapshot} (hds : deltas t.entries = .ok ds)
    (hentries : List.Forall₂ Accepts (t.entries.map Statement.insertEntry) entries)
    (hmoves : Moved m.now t.id ds rows moves) :
    Wrote m (.commitTransaction t) rows
      (⟨.statement (.insertTransaction t), .ok a⟩ :: (entries ++ moves))

/-- All that a change has to write was written. -/
def Complete (m : Moment) (c : StoreCall) (body : List Exchange) : Prop :=
  ∃ rows written appended, body = written ++ appended ∧ Wrote m c rows written ∧
    Appended (c.events rows) appended

/-! ## The parts of a change -/

section Parts

variable {m : Moment} {now : Timestamp} {id : TransactionId} {log : List Exchange}

theorem runs_appendAfter_ok {recordId : Nat → Uuid} {last final : UInt64}
    {events : List LedgerEvent} (h : (appendAfter recordId last events).Runs log (.ok final)) :
    ∃ records, recordsAfter (ε := StoreError) recordId last events = .ok (records, final) ∧
      List.Forall₂ Accepts (records.map Statement.insertRecord) log := by
  induction events generalizing recordId last log with
  | nil =>
    obtain ⟨rfl, hfinal⟩ := runs_pure.mp h
    cases hfinal
    exact ⟨[], rfl, .nil⟩
  | cons e es ih =>
    obtain ⟨sequence, hsequence, h⟩ := runs_done_bind_ok.mp h
    obtain ⟨e', hwritable, h⟩ := runs_done_bind_ok.mp h
    obtain ⟨answer, rest, rfl, hrest⟩ := runs_execute_bind_ok.mp h
    obtain ⟨records, hrecords, hinserts⟩ := ih hrest
    have he : e' = e := by
      split at hwritable
      · cases hwritable
        rfl
      · cases hwritable
    subst he
    refine ⟨.ofEvent (recordId 0) sequence e' :: records, ?_, .cons ⟨answer, rfl⟩ hinserts⟩
    exact bind_eq_ok.mpr ⟨sequence, hsequence, bind_eq_ok.mpr ⟨_, hrecords, rfl⟩⟩

/-- Records numbered below `2 ^ 63` are bound as these numbers. -/
theorem bound_numbers {records : List OutboxRecord} {n count : Nat}
    (h : records.map OutboxRecord.number = List.range' (n + 1) count)
    (hroom : n + count < pow2 63) :
    records.map (fun r => (Statement.insertRecord r).params[0]?) =
      (List.range' (n + 1) count).map fun i : Nat => some (.int i) := by
  rw [← h, List.map_map]
  refine List.map_congr_left fun r hr => ?_
  have hnumber : r.number ∈ List.range' (n + 1) count := h ▸ List.mem_map_of_mem hr
  have hlt := (List.mem_range'_1.mp hnumber).2
  exact congrArg some (ofWord64_of_lt (w := r.sequence) (by
    show r.number < _
    omega))

theorem runs_appendOutbox_ok {events : List LedgerEvent} {final : UInt64}
    (h : (appendOutbox m events).Runs log (.ok final)) : Appended events log := by
  obtain ⟨locked, rest, rfl, hrest⟩ := runs_execute_bind_ok.mp h
  obtain ⟨head, row, inserts, hrow, rfl, hread⟩ := runs_queryOne_bind_ok.mp hrest
  obtain ⟨last, hlast, happend⟩ := runs_done_bind_ok.mp hread
  obtain ⟨records, hrecords, hinserts⟩ := runs_appendAfter_ok happend
  have hnumbers := (numbers_of_recordsAfter hrecords).1
  refine .intro hrow hlast (StoreState.payloads_of_recordsAfter hrecords) hnumbers
    (fun n hn hroom => ?_) hinserts
  have hlastEq : last = UInt64.ofNat n := by
    rw [Row.get, hn] at hlast
    exact (Except.ok.inj hlast).symm
  have hlt : n < UInt64.size :=
    Nat.lt_of_le_of_lt (Nat.le_add_right _ _) (Nat.lt_trans hroom (by decide))
  rw [hlastEq, UInt64.toNat_ofNat_of_lt' hlt] at hnumbers
  exact bound_numbers hnumbers hroom

theorem runs_moveBalances_ok {ds : List BalanceDelta} {rows : List BalanceSnapshot}
    (h : (moveBalances now id ds).Runs log (.ok rows)) : Moved now id ds rows log := by
  induction ds generalizing log rows with
  | nil =>
    obtain ⟨rfl, hrows⟩ := runs_pure.mp h
    cases hrows
    exact .nil
  | cons d ds ih =>
    obtain ⟨first, b, rest, hmove, hrest, rfl⟩ := runs_bind_ok.mp h
    obtain ⟨others, bs, last, hmoves, hpure, rfl⟩ := runs_bind_ok.mp hrest
    obtain ⟨rfl, hrows⟩ := runs_pure.mp hpure
    cases hrows
    obtain ⟨ensured, asked, rfl, hlock⟩ := runs_execute_bind_ok.mp hmove
    obtain ⟨locked, row, moved, hrow, rfl, hread⟩ := runs_queryOne_bind_ok.mp hlock
    obtain ⟨current, hcurrent, happly⟩ := runs_done_bind_ok.mp hread
    obtain ⟨next, hnext, hupdate⟩ := runs_done_bind_ok.mp happly
    obtain ⟨updated, done, rfl, hdone⟩ := runs_execute_bind_ok.mp hupdate
    obtain ⟨rfl, hb⟩ := runs_pure.mp hdone
    cases hb
    rw [List.append_nil]
    exact .cons hrow hcurrent (mapError_eq_ok.mp hnext) (ih hmoves)

theorem runs_insertEntries_ok {entries : List Entry} {u : Unit}
    (h : (insertEntries entries).Runs log (.ok u)) :
    List.Forall₂ Accepts (entries.map Statement.insertEntry) log := by
  induction entries generalizing log with
  | nil =>
    obtain ⟨rfl, -⟩ := runs_pure.mp h
    exact .nil
  | cons e es ih =>
    obtain ⟨answer, rest, rfl, hrest⟩ := runs_execute_bind_ok.mp h
    exact .cons ⟨answer, rfl⟩ (ih hrest)

/-! ## Bodies send statements -/

theorem statementsOnly_appendAfter (recordId : Nat → Uuid) (last : UInt64)
    (events : List LedgerEvent) : (appendAfter recordId last events).StatementsOnly := by
  induction events generalizing recordId last with
  | nil => exact .done _
  | cons e es ih =>
    exact .bind (.done _) fun _ => .bind (.done _) fun _ => .bind (.command _ _) fun _ => ih _ _

theorem statementsOnly_appendOutbox (m : Moment) (events : List LedgerEvent) :
    (appendOutbox m events).StatementsOnly :=
  .bind (.command _ _) fun _ => .bind (.queryOne _ _) fun _ => .bind (.done _) fun _ =>
    statementsOnly_appendAfter _ _ _

theorem statementsOnly_insertEntries (entries : List Entry) :
    (insertEntries entries).StatementsOnly := by
  induction entries with
  | nil => exact .done _
  | cons e es ih => exact .bind (.command _ _) fun _ => ih

theorem statementsOnly_moveBalances (now : Timestamp) (id : TransactionId)
    (ds : List BalanceDelta) : (moveBalances now id ds).StatementsOnly := by
  induction ds with
  | nil => exact .done _
  | cons d ds ih =>
    refine .bind ?_ fun _ => .bind ih fun _ => .done _
    exact .bind (.command _ _) fun _ => .bind (.queryOne _ _) fun _ => .bind (.done _) fun _ =>
      .bind (.done _) fun _ => .bind (.command _ _) fun _ => .done _

end Parts

/-! ## Changes -/

section Changes

variable {m : Moment}

/-- The body of an insertion, with what it is complete for. -/
theorem complete_insertWith {c : StoreCall} {s : Statement} {e : LedgerEvent} {operation : String}
    (hwrote : ∀ a, Wrote m c [] [⟨.statement s, .ok a⟩]) (hevents : c.events [] = [e])
    {log : List Exchange} {last : UInt64}
    (h : (execute operation s >>= fun _ => appendOutbox m [e]).Runs log (.ok last)) :
    Complete m c log := by
  obtain ⟨a, rest, rfl, hrest⟩ := runs_execute_bind_ok.mp h
  exact ⟨[], _, rest, rfl, hwrote a, hevents ▸ runs_appendOutbox_ok hrest⟩

theorem complete_updateWith {c : StoreCall} {s : Statement} {e : LedgerEvent}
    {operation what : String} (hwrote : ∀ a, a.affected ≠ 0 → Wrote m c [] [⟨.statement s, .ok a⟩])
    (hevents : c.events [] = [e]) {log : List Exchange} {last : UInt64}
    (h : (execute operation s >>= fun answer =>
      if answer.affected = 0 then fail (.notFound what) else appendOutbox m [e]).Runs log
        (.ok last)) : Complete m c log := by
  obtain ⟨a, rest, rfl, hrest⟩ := runs_execute_bind_ok.mp h
  by_cases haffected : a.affected = 0
  · rw [if_pos haffected] at hrest
    cases (runs_fail.mp hrest).2
  · rw [if_neg haffected] at hrest
    exact ⟨[], _, rest, rfl, hwrote a haffected, hevents ▸ runs_appendOutbox_ok hrest⟩

theorem complete_writeTransaction {t : Transaction} {ds : List BalanceDelta}
    (hds : deltas t.entries = .ok ds) {log : List Exchange} {committed : CommittedPosting}
    (h : (writeTransaction m t ds).Runs log (.ok committed)) :
    Complete m (.commitTransaction t) log := by
  obtain ⟨first, a, _, hinsert, h₁, rfl⟩ := runs_bind_ok.mp h
  obtain ⟨entries, _, _, hentries, h₂, rfl⟩ := runs_bind_ok.mp h₁
  obtain ⟨moves, rows, _, hmoves, h₃, rfl⟩ := runs_bind_ok.mp h₂
  obtain ⟨appended, last, _, happended, h₄, rfl⟩ := runs_bind_ok.mp h₃
  obtain ⟨rfl, -⟩ := runs_pure.mp h₄
  rw [runs_command_ok.mp hinsert, List.append_nil]
  refine ⟨rows, ⟨.statement (.insertTransaction t), .ok a⟩ :: (entries ++ moves), appended, ?_,
    .commitTransaction hds (runs_insertEntries_ok hentries) (runs_moveBalances_ok hmoves),
    runs_appendOutbox_ok happended⟩
  simp

/-- A change is a session in a transaction, or refused before it begins. -/
theorem exists_body (m : Moment) {c : StoreCall} (hc : c.isRead = false) :
    (∃ e, session m c = fail e) ∨ ∃ body, session m c = inTransaction body ∧
      body.StatementsOnly ∧ ∀ log v, body.Runs log (.ok v) → Complete m c log := by
  have hinsert : ∀ (s : Statement) (e : LedgerEvent) (operation : String),
      (execute operation s >>= fun _ => appendOutbox m [e]).StatementsOnly :=
    fun s e operation => .bind (.command _ _) fun _ => statementsOnly_appendOutbox m [e]
  have hupdate : ∀ (s : Statement) (e : LedgerEvent) (operation what : String),
      (execute operation s >>= fun answer => if answer.affected = 0 then fail (.notFound what)
        else appendOutbox m [e]).StatementsOnly := by
    refine fun s e operation what => .bind (.command _ _) fun answer => ?_
    split
    · exact .done _
    · exact statementsOnly_appendOutbox m [e]
  cases c with
  | createJournal j =>
    exact .inr ⟨_, rfl, hinsert _ _ _, fun _ _ =>
      complete_insertWith (fun _ => .createJournal) rfl⟩
  | updateJournal j fields =>
    exact .inr ⟨_, rfl, hupdate _ _ _ _, fun _ _ =>
      complete_updateWith (fun _ h => .updateJournal h) rfl⟩
  | createAccount a =>
    exact .inr ⟨_, rfl, hinsert _ _ _, fun _ _ =>
      complete_insertWith (fun _ => .createAccount) rfl⟩
  | updateAccount a fields =>
    exact .inr ⟨_, rfl, hupdate _ _ _ _, fun _ _ =>
      complete_updateWith (fun _ h => .updateAccount h) rfl⟩
  | createTemplate t =>
    exact .inr ⟨_, rfl, hinsert _ _ _, fun _ _ =>
      complete_insertWith (fun _ => .createTemplate) rfl⟩
  | commitTransaction t =>
    cases hds : deltas t.entries with
    | error e =>
      refine .inl ⟨.invariant s!"balance delta: {e.message}", ?_⟩
      show commitTransaction m t = _
      unfold commitTransaction
      rw [hds]
      rfl
    | ok ds =>
      refine .inr ⟨writeTransaction m t ds, ?_, ?_, fun _ _ => complete_writeTransaction hds⟩
      · show commitTransaction m t = _
        unfold commitTransaction
        rw [hds]
        rfl
      exact .bind (.command _ _) fun _ => .bind (statementsOnly_insertEntries _) fun _ =>
        .bind (statementsOnly_moveBalances _ _ _) fun _ =>
          .bind (statementsOnly_appendOutbox _ _) fun _ => .done _
  | _ => cases hc

end Changes

/-! ## The order of commands -/

section Order

variable {before after body closing : List Exchange} {x : Exchange}

/-- Where a command that is not among the first ones stands. -/
theorem exists_split_of_not_mem (h : body ++ closing = before ++ x :: after) (hx : x ∉ body) :
    ∃ rest, before = body ++ rest ∧ closing = rest ++ x :: after := by
  rcases List.append_eq_append_iff.mp h with ⟨rest, hbefore, hclosing⟩ | ⟨rest, hbody, hafter⟩
  · exact ⟨rest, hbefore, hclosing⟩
  · cases rest with
    | nil => exact ⟨[], by simpa using hbody.symm, by simpa using hafter.symm⟩
    | cons y rest =>
      obtain ⟨rfl, -⟩ := List.cons.inj hafter
      exact absurd (hbody ▸ List.mem_append_right _ List.mem_cons_self) hx

/-- Where a command that is not among the last ones stands. -/
theorem exists_split_of_not_mem_closing (h : body ++ closing = before ++ x :: after)
    (hx : x ∉ closing) : ∃ rest, body = before ++ x :: rest ∧ after = rest ++ closing := by
  rcases List.append_eq_append_iff.mp h with ⟨rest, -, hclosing⟩ | ⟨rest, hbody, hafter⟩
  · exact absurd (hclosing ▸ List.mem_append_right _ List.mem_cons_self) hx
  · cases rest with
    | nil =>
      refine absurd ?_ hx
      rw [← List.nil_append closing, ← hafter]
      exact List.mem_cons_self
    | cons y rest =>
      obtain ⟨rfl, hrest⟩ := List.cons.inj hafter
      exact ⟨rest, hbody, hrest⟩

theorem eq_of_singleton {y : Exchange} (h : [y] = before ++ x :: after) :
    before = [] ∧ y = x ∧ after = [] := by
  cases before with
  | nil =>
    cases h
    exact ⟨rfl, rfl, rfl⟩
  | cons z before => cases before <;> cases (List.cons.inj h).2

end Order

section Closed

variable {α : Type} {body : Session α} {log : List Exchange} {result : StoreResult α}

/-- A statement is sent in the transaction, after its begin and statements alone. -/
theorem Session.Closed.statement (h : body.Closed log result) (hbody : body.StatementsOnly)
    {before after : List Exchange} {s : Statement} {reply : Except SessionFault Answer}
    (hlog : log = before ++ ⟨.statement s, reply⟩ :: after) :
    ∃ began sent, before = ⟨.begin, .ok began⟩ :: sent ∧
      ∀ x ∈ sent, ∃ s, x.command = .statement s := by
  have hmiddle : ∀ {first closing : List Exchange} {r : StoreResult α} {began : Answer},
      body.Runs first r → (∀ x ∈ closing, ∀ s, x.command ≠ .statement s) →
      ⟨.begin, .ok began⟩ :: first ++ closing = before ++ ⟨.statement s, reply⟩ :: after →
      ∃ began sent, before = ⟨.begin, .ok began⟩ :: sent ∧
        ∀ x ∈ sent, ∃ s, x.command = .statement s := by
    intro first closing r began hfirst hclosing heq
    obtain ⟨rest, hrest, -⟩ := exists_split_of_not_mem_closing heq
      fun hmem => hclosing _ hmem s rfl
    cases before with
    | nil => cases (List.cons.inj hrest).1
    | cons x sent =>
      obtain ⟨rfl, rfl⟩ := List.cons.inj hrest
      exact ⟨began, sent, rfl, fun x hx => hbody _ _ hfirst x (List.mem_append_left _ hx)⟩
  cases h with
  | refused fault => cases (eq_of_singleton hlog).2.1
  | rolledBack h began reply' => exact hmiddle h (by simp) hlog
  | committed h began done => exact hmiddle h (by simp) hlog
  | notCommitted h began fault reply' => exact hmiddle h (by simp) hlog

/-- A commit is sent once the body came out with a value, and is the last command, but for the
rollback where it is refused. -/
theorem Session.Closed.commit (h : body.Closed log result) (hbody : body.StatementsOnly)
    {before after : List Exchange} {reply : Except SessionFault Answer}
    (hlog : log = before ++ ⟨.commit, reply⟩ :: after) :
    ∃ began sent v, before = ⟨.begin, .ok began⟩ :: sent ∧ body.Runs sent (.ok v) ∧
      ((∃ done, reply = .ok done ∧ after = [] ∧ result = .ok v) ∨
        ∃ fault reply', reply = .error fault ∧ after = [⟨.rollback, reply'⟩]) := by
  have hmiddle : ∀ {first closing : List Exchange} {r : StoreResult α} {began : Answer},
      body.Runs first r →
      ⟨.begin, .ok began⟩ :: first ++ closing = before ++ ⟨.commit, reply⟩ :: after →
      ∃ rest, before = ⟨.begin, .ok began⟩ :: first ++ rest ∧
        closing = rest ++ ⟨.commit, reply⟩ :: after := by
    intro first closing r began hfirst heq
    refine exists_split_of_not_mem heq fun hmem => ?_
    rcases List.mem_cons.mp hmem with hbegin | hmem
    · cases hbegin
    · obtain ⟨s, hs⟩ := hbody _ _ hfirst _ hmem
      cases hs
  cases h with
  | refused fault => cases (eq_of_singleton hlog).2.1
  | rolledBack h began reply' =>
    obtain ⟨rest, rfl, hclosing⟩ := hmiddle h hlog
    cases (eq_of_singleton hclosing).2.1
  | @committed sent v h began done =>
    obtain ⟨rest, rfl, hclosing⟩ := hmiddle h hlog
    obtain ⟨rfl, hcommit, rfl⟩ := eq_of_singleton hclosing
    cases hcommit
    exact ⟨began, sent, v, List.append_nil _, h, .inl ⟨done, rfl, rfl, rfl⟩⟩
  | @notCommitted sent v h began fault reply' =>
    obtain ⟨rest, rfl, hclosing⟩ := hmiddle h hlog
    cases rest with
    | nil =>
      cases hclosing
      exact ⟨began, sent, v, List.append_nil _, h, .inr ⟨fault, reply', rfl, rfl⟩⟩
    | cons x rest =>
      cases (eq_of_singleton (List.cons.inj hclosing).2).2.1

theorem filter_isCommit_of_statementsOnly (hbody : body.StatementsOnly)
    (h : body.Runs log result) : log.filter Exchange.isCommit = [] := by
  refine List.filter_eq_nil_iff.mpr fun x hx => ?_
  obtain ⟨s, hs⟩ := hbody _ _ h x hx
  unfold Exchange.isCommit
  rw [hs]
  exact Bool.false_ne_true

/-- At most one commit is sent. -/
theorem Session.Closed.commits_le (h : body.Closed log result) (hbody : body.StatementsOnly) :
    (log.filter Exchange.isCommit).length ≤ 1 := by
  have hbegin : ∀ (reply : Except SessionFault Answer) (rest : List Exchange),
      (⟨.begin, reply⟩ :: rest).filter Exchange.isCommit = rest.filter Exchange.isCommit :=
    fun _ _ => rfl
  cases h with
  | refused fault => exact Nat.zero_le 1
  | rolledBack h began reply =>
    rw [List.filter_append, hbegin, filter_isCommit_of_statementsOnly hbody h]
    exact Nat.zero_le 1
  | committed h began done =>
    rw [List.filter_append, hbegin, filter_isCommit_of_statementsOnly hbody h]
    exact Nat.le_refl 1
  | notCommitted h began fault reply =>
    rw [List.filter_append, hbegin, filter_isCommit_of_statementsOnly hbody h]
    exact Nat.le_refl 1

/-- The session comes out with a value exactly if its commit was acknowledged. -/
theorem Session.Closed.ok_iff (h : body.Closed log result) (hbody : body.StatementsOnly) :
    (∃ v, result = .ok v) ↔ ∃ done, ⟨.commit, .ok done⟩ ∈ log := by
  constructor
  · rintro ⟨v, rfl⟩
    cases h with
    | committed h began done => exact ⟨done, List.mem_append_right _ List.mem_cons_self⟩
  · rintro ⟨done, hdone⟩
    obtain ⟨before, after, hlog⟩ := List.append_of_mem hdone
    obtain ⟨-, sent, v, -, -, ⟨-, -, -, hv⟩ | ⟨fault, -, hfault, -⟩⟩ := h.commit hbody hlog
    · exact ⟨v, hv⟩
    · cases hfault

end Closed

/-! ## All or nothing -/

/-- What was exchanged completely was accepted, statement by statement. -/
theorem Complete.accepted {m : Moment} {c : StoreCall} {body : List Exchange}
    (h : Complete m c body) : ∀ x ∈ body, ∃ s, Accepts s x := by
  have hall : ∀ {statements : List Statement} {log : List Exchange},
      List.Forall₂ Accepts statements log → ∀ x ∈ log, ∃ s, Accepts s x := by
    intro statements log h x hx
    obtain ⟨s, -, hs⟩ := exists_mem_of_forall₂ h hx
    exact ⟨s, hs⟩
  have hmoved : ∀ {ds : List BalanceDelta} {bs : List BalanceSnapshot} {log : List Exchange}
      {now : Timestamp} {id : TransactionId}, Moved now id ds bs log →
      ∀ x ∈ log, ∃ s, Accepts s x := by
    intro ds bs log now id h
    induction h with
    | nil => exact List.forall_mem_nil _
    | cons _ _ _ _ ih =>
      simp only [List.forall_mem_cons]
      exact ⟨⟨_, _, rfl⟩, ⟨_, _, rfl⟩, ⟨_, _, rfl⟩, ih⟩
  obtain ⟨rows, written, appended, rfl, hwrote, happended⟩ := h
  refine List.forall_mem_append.mpr ⟨?_, ?_⟩
  · cases hwrote with
    | commitTransaction hds hentries hmoves =>
      simp only [List.forall_mem_cons, List.forall_mem_append]
      exact ⟨⟨_, _, rfl⟩, hall hentries, hmoved hmoves⟩
    | _ => exact List.forall_mem_singleton.mpr ⟨_, _, rfl⟩
  · obtain ⟨-, -, -, -, -, hinserts⟩ := happended
    simp only [List.forall_mem_cons]
    exact ⟨⟨_, _, rfl⟩, ⟨_, _, rfl⟩, hall hinserts⟩

/-- Whatever a change is answered, its statements are sent in one transaction, and this one is
committed only once all that the change has to write is written: the value of the change and the
acknowledged commit go together. -/
theorem changes_as_a_whole (m : Moment) {c : StoreCall} (hc : c.isRead = false)
    (replies : Nat → Except SessionFault Answer) :
    let log := ((session m c).follow replies).1
    let result := ((session m c).follow replies).2
    (∀ before s reply after, log = before ++ ⟨.statement s, reply⟩ :: after →
      ∃ began sent, before = ⟨.begin, .ok began⟩ :: sent ∧
        ∀ x ∈ sent, ∃ s, x.command = .statement s) ∧
    (log.filter Exchange.isCommit).length ≤ 1 ∧
    (∀ before reply after, log = before ++ ⟨.commit, reply⟩ :: after →
      ∃ began body, before = ⟨.begin, .ok began⟩ :: body ∧ Complete m c body ∧
        (∀ x ∈ body, ∃ s, Accepts s x) ∧
        ((∃ done, reply = .ok done ∧ after = []) ∨
          ∃ fault reply', reply = .error fault ∧ after = [⟨.rollback, reply'⟩])) ∧
    ((∃ v, result = .ok v) ↔ ∃ done, ⟨.commit, .ok done⟩ ∈ log) := by
  intro log result
  have hruns : (session m c).Runs log result := runs_follow (session m c) replies
  rcases exists_body m hc with ⟨e, hfail⟩ | ⟨body, hsession, hbody, hcomplete⟩
  · rw [hfail] at hruns
    obtain ⟨hlog, hresult⟩ := runs_fail.mp hruns
    rw [hlog, hresult]
    refine ⟨fun before s reply after h => ?_, Nat.zero_le 1, fun before reply after h => ?_, ?_⟩
    · cases before <;> cases h
    · cases before <;> cases h
    · simp
  · rw [hsession] at hruns
    have hclosed := closed_of_runs hruns
    refine ⟨fun before s reply after h => hclosed.statement hbody h, hclosed.commits_le hbody,
      fun before reply after h => ?_, hclosed.ok_iff hbody⟩
    obtain ⟨began, sent, v, hbefore, hsent, hclose⟩ := hclosed.commit hbody h
    have hdone := hcomplete sent v hsent
    exact ⟨began, sent, hbefore, hdone, hdone.accepted,
      hclose.imp_left fun ⟨answer, hreply, hafter, _⟩ => ⟨answer, hreply, hafter⟩⟩

/-- A database whose last outbox record has the number 41. -/
def Sample.replies (i : Nat) : Except SessionFault Answer :=
  if i = 3 then .ok ⟨[.ofList [("last", .int 41)]], 1⟩ else .ok ⟨[], 1⟩

theorem changes_as_a_whole_journal :
    (StoreCall.createJournal (Sample.journal 1)).isRead = false ∧
      ∃ last, ((session (Sample.moment 10) (.createJournal (Sample.journal 1))).follow
        Sample.replies).2 = .ok last := by
  refine ⟨rfl, ?_⟩
  refine (changes_as_a_whole (Sample.moment 10) rfl Sample.replies).2.2.2.mpr ⟨⟨[], 1⟩, ?_⟩
  exact List.mem_of_getElem? (i := 5) rfl

end Database

end DoubleEntry
