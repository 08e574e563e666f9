import DoubleEntry.Database.Session
import DoubleEntry.Proofs.Results

/-!
# What a session and its database say to each other

A session answered by a sequence of replies exchanges a list of commands with them and comes out
with a result (`Session.follow`). `Session.Runs` is the same as a relation, which the parts of a
session compose: what a bind exchanges is what its first part exchanged, and then its second. So for
each kind of step one lemma says what it exchanges.

A session in a database transaction has four ways to go (`Session.Closed`): it may not begin, fail
and be rolled back, be committed, or be refused at the end.
-/

namespace DoubleEntry.Database

/-- A command with what it was answered. -/
structure Exchange where
  command : Command
  reply : Except SessionFault Answer

namespace Session

variable {α β : Type}

/-- Run a session against replies, the first one to its first command. -/
def follow : Session α → (Nat → Except SessionFault Answer) → List Exchange × StoreResult α
  | .done result, _ => ([], result)
  | .send c next, replies =>
    let (log, result) := (next (replies 0)).follow fun i => replies (i + 1)
    (⟨c, replies 0⟩ :: log, result)

/-- The session comes out with a result once it has exchanged this. -/
inductive Runs : Session α → List Exchange → StoreResult α → Prop
  | done (result : StoreResult α) : Runs (.done result) [] result
  | send {c : Command} {next : Except SessionFault Answer → Session α}
    {reply : Except SessionFault Answer} {log : List Exchange} {result : StoreResult α}
    (h : Runs (next reply) log result) : Runs (.send c next) (⟨c, reply⟩ :: log) result

theorem runs_follow (s : Session α) (replies : Nat → Except SessionFault Answer) :
    s.Runs (s.follow replies).1 (s.follow replies).2 := by
  induction s generalizing replies with
  | done result => exact .done result
  | send c next ih => exact .send (ih (replies 0) fun i => replies (i + 1))

section Runs

variable {log : List Exchange} {result : StoreResult α}

theorem runs_done {r : StoreResult α} : (done r).Runs log result ↔ log = [] ∧ result = r := by
  constructor
  · rintro ⟨⟩
    exact ⟨rfl, rfl⟩
  · rintro ⟨rfl, rfl⟩
    exact .done _

theorem runs_pure {a : α} : (pure a : Session α).Runs log result ↔ log = [] ∧ result = .ok a :=
  runs_done

theorem runs_fail {e : StoreError} :
    (fail e : Session α).Runs log result ↔ log = [] ∧ result = .error (.error e) :=
  runs_done

theorem runs_send {c : Command} {next : Except SessionFault Answer → Session α} :
    (send c next).Runs log result ↔
      ∃ reply rest, log = ⟨c, reply⟩ :: rest ∧ (next reply).Runs rest result := by
  constructor
  · rintro ⟨⟩
    next reply rest h => exact ⟨reply, rest, rfl, h⟩
  · rintro ⟨reply, rest, rfl, h⟩
    exact .send h

theorem runs_andThen {s : Session β} {f : StoreResult β → Session α} :
    (s.andThen f).Runs log result ↔
      ∃ first r rest, s.Runs first r ∧ (f r).Runs rest result ∧ log = first ++ rest := by
  induction s generalizing log with
  | done r =>
    constructor
    · exact fun h => ⟨[], r, log, .done r, h, rfl⟩
    · rintro ⟨first, r', rest, hfirst, hrest, rfl⟩
      obtain ⟨rfl, rfl⟩ := runs_done.mp hfirst
      exact hrest
  | send c next ih =>
    rw [andThen, runs_send]
    constructor
    · rintro ⟨reply, log', rfl, h⟩
      obtain ⟨first, r, rest, hfirst, hrest, rfl⟩ := (ih reply).mp h
      exact ⟨_, r, rest, .send hfirst, hrest, rfl⟩
    · rintro ⟨first, r, rest, hfirst, hrest, rfl⟩
      obtain ⟨reply, log', rfl, h⟩ := runs_send.mp hfirst
      exact ⟨reply, log' ++ rest, rfl, (ih reply).mpr ⟨log', r, rest, h, hrest, rfl⟩⟩

/-- A bind goes on with the value of its first part, or fails as that does. -/
theorem runs_bind {s : Session β} {f : β → Session α} :
    (s >>= f).Runs log result ↔
      (∃ first b rest, s.Runs first (.ok b) ∧ (f b).Runs rest result ∧ log = first ++ rest) ∨
        ∃ e, s.Runs log (.error e) ∧ result = .error e := by
  show (s.andThen _).Runs log result ↔ _
  rw [runs_andThen]
  constructor
  · rintro ⟨first, r, rest, hfirst, hrest, rfl⟩
    cases r with
    | ok b => exact .inl ⟨first, b, rest, hfirst, hrest, rfl⟩
    | error e =>
      obtain ⟨rfl, rfl⟩ := runs_done.mp hrest
      exact .inr ⟨e, by rwa [List.append_nil], rfl⟩
  · rintro (⟨first, b, rest, hfirst, hrest, rfl⟩ | ⟨e, h, rfl⟩)
    · exact ⟨first, .ok b, rest, hfirst, hrest, rfl⟩
    · exact ⟨log, .error e, [], h, .done _, (List.append_nil log).symm⟩

theorem runs_bind_ok {s : Session β} {f : β → Session α} {a : α} :
    (s >>= f).Runs log (.ok a) ↔
      ∃ first b rest, s.Runs first (.ok b) ∧ (f b).Runs rest (.ok a) ∧ log = first ++ rest := by
  rw [runs_bind]
  constructor
  · rintro (h | ⟨e, -, he⟩)
    · exact h
    · cases he
  · exact .inl

end Runs

/-! ## Commands -/

section Commands

variable {operation : String} {s : Statement} {log : List Exchange}

theorem runs_command {c : Command} {onFault : SessionFault → StoreError}
    {result : StoreResult Answer} :
    (command c onFault).Runs log result ↔
      ∃ reply, log = [⟨c, reply⟩] ∧ result = Failure.lift onFault reply := by
  unfold command
  rw [runs_send]
  constructor
  · rintro ⟨reply, rest, rfl, h⟩
    obtain ⟨rfl, rfl⟩ := runs_done.mp h
    exact ⟨reply, rfl, rfl⟩
  · rintro ⟨reply, rfl, rfl⟩
    exact ⟨reply, [], rfl, .done _⟩

theorem runs_command_ok {c : Command} {onFault : SessionFault → StoreError} {a : Answer} :
    (command c onFault).Runs log (.ok a) ↔ log = [⟨c, .ok a⟩] := by
  rw [runs_command]
  constructor
  · rintro ⟨reply, rfl, h⟩
    rw [lift_eq_ok.mp h.symm]
  · rintro rfl
    exact ⟨.ok a, rfl, rfl⟩

theorem runs_execute_ok {a : Answer} :
    (execute operation s).Runs log (.ok a) ↔ log = [⟨.statement s, .ok a⟩] :=
  runs_command_ok

/-- The first row of an answer, which has to be there. -/
def firstRow (operation : String) : Except SessionFault Answer → StoreResult Row
  | .error fault => .error (.error (fault.toStoreError operation))
  | .ok ⟨row :: _, _⟩ => .ok row
  | .ok ⟨[], _⟩ => .error (.error (.notFound s!"unexpected row not found in {operation}"))

theorem firstRow_eq_ok {reply : Except SessionFault Answer} {row : Row} :
    firstRow operation reply = .ok row ↔ ∃ a, reply = .ok a ∧ a.rows.head? = some row := by
  rcases reply with fault | ⟨_ | ⟨first, rows⟩, n⟩ <;> simp [firstRow]

theorem queryOne_eq (operation : String) (s : Statement) :
    queryOne operation s = .send (.statement s) fun reply => .done (firstRow operation reply) := by
  show send _ _ = _
  congr 1
  funext reply
  rcases reply with fault | ⟨_ | ⟨row, rows⟩, n⟩ <;> rfl

theorem runs_queryOne {result : StoreResult Row} :
    (queryOne operation s).Runs log result ↔
      ∃ reply, log = [⟨.statement s, reply⟩] ∧ result = firstRow operation reply := by
  rw [queryOne_eq, runs_send]
  constructor
  · rintro ⟨reply, rest, rfl, h⟩
    obtain ⟨rfl, rfl⟩ := runs_done.mp h
    exact ⟨reply, rfl, rfl⟩
  · rintro ⟨reply, rfl, rfl⟩
    exact ⟨reply, [], rfl, .done _⟩

theorem runs_queryOne_ok {row : Row} :
    (queryOne operation s).Runs log (.ok row) ↔
      ∃ a, log = [⟨.statement s, .ok a⟩] ∧ a.rows.head? = some row := by
  rw [runs_queryOne]
  constructor
  · rintro ⟨reply, rfl, h⟩
    obtain ⟨a, rfl, hhead⟩ := firstRow_eq_ok.mp h.symm
    exact ⟨a, rfl, hhead⟩
  · rintro ⟨a, rfl, hhead⟩
    exact ⟨.ok a, rfl, (firstRow_eq_ok.mpr ⟨a, rfl, hhead⟩).symm⟩

theorem runs_done_bind_ok {α β : Type} {r : StoreResult β} {f : β → Session α} {a : α} :
    (Session.done r >>= f).Runs log (.ok a) ↔ ∃ b, r = .ok b ∧ (f b).Runs log (.ok a) := by
  rw [runs_bind_ok]
  constructor
  · rintro ⟨first, b, rest, hfirst, hrest, rfl⟩
    obtain ⟨rfl, rfl⟩ := runs_done.mp hfirst
    exact ⟨b, rfl, hrest⟩
  · rintro ⟨b, rfl, h⟩
    exact ⟨[], b, log, .done _, h, rfl⟩

theorem runs_execute_bind_ok {α : Type} {operation : String} {s : Statement}
    {f : Answer → Session α} {a : α} :
    (execute operation s >>= f).Runs log (.ok a) ↔
      ∃ answer rest, log = ⟨.statement s, .ok answer⟩ :: rest ∧ (f answer).Runs rest (.ok a) := by
  rw [runs_bind_ok]
  constructor
  · rintro ⟨first, answer, rest, hfirst, hrest, rfl⟩
    rw [runs_execute_ok.mp hfirst]
    exact ⟨answer, rest, rfl, hrest⟩
  · rintro ⟨answer, rest, rfl, hrest⟩
    exact ⟨_, answer, rest, runs_execute_ok.mpr rfl, hrest, rfl⟩

theorem runs_queryOne_bind_ok {α : Type} {operation : String} {s : Statement}
    {f : Row → Session α} {a : α} :
    (queryOne operation s >>= f).Runs log (.ok a) ↔
      ∃ answer row rest, answer.rows.head? = some row ∧
        log = ⟨.statement s, .ok answer⟩ :: rest ∧ (f row).Runs rest (.ok a) := by
  rw [runs_bind_ok]
  constructor
  · rintro ⟨first, row, rest, hfirst, hrest, rfl⟩
    obtain ⟨answer, rfl, hrow⟩ := runs_queryOne_ok.mp hfirst
    exact ⟨answer, row, rest, hrow, rfl, hrest⟩
  · rintro ⟨answer, row, rest, hrow, rfl, hrest⟩
    exact ⟨_, row, rest, runs_queryOne_ok.mpr ⟨answer, rfl, hrow⟩, hrest, rfl⟩

end Commands

/-! ## Statements -/

/-- The session sends statements, and nothing else. -/
def StatementsOnly (s : Session α) : Prop :=
  ∀ log result, s.Runs log result → ∀ x ∈ log, ∃ sent, x.command = .statement sent

theorem StatementsOnly.done (r : StoreResult α) : (Session.done r).StatementsOnly := by
  intro log result h x hx
  obtain ⟨rfl, -⟩ := runs_done.mp h
  cases hx

theorem StatementsOnly.command (s : Statement) (onFault : SessionFault → StoreError) :
    (command (.statement s) onFault).StatementsOnly := by
  intro log result h x hx
  obtain ⟨reply, rfl, -⟩ := runs_command.mp h
  rw [List.mem_singleton.mp hx]
  exact ⟨s, rfl⟩

theorem StatementsOnly.bind {s : Session β} {f : β → Session α} (hs : s.StatementsOnly)
    (hf : ∀ b, (f b).StatementsOnly) : (s >>= f).StatementsOnly := by
  intro log result h x hx
  rcases runs_bind.mp h with ⟨first, b, rest, hfirst, hrest, rfl⟩ | ⟨e, herror, -⟩
  · rcases List.mem_append.mp hx with hx | hx
    · exact hs _ _ hfirst x hx
    · exact hf b _ _ hrest x hx
  · exact hs _ _ herror x hx

theorem StatementsOnly.queryOne (operation : String) (s : Statement) :
    (queryOne operation s).StatementsOnly := by
  intro log result h x hx
  obtain ⟨reply, rfl, -⟩ := runs_queryOne.mp h
  rw [List.mem_singleton.mp hx]
  exact ⟨s, rfl⟩

/-! ## Database transactions -/

/-- How a session in a database transaction goes. -/
inductive Closed (body : Session α) : List Exchange → StoreResult α → Prop
  | refused (fault : SessionFault) : Closed body [⟨.begin, .error fault⟩]
      (.error (.error (fault.toStoreError "begin_transaction")))
  | rolledBack {log : List Exchange} {f : Failure StoreError} (h : body.Runs log (.error f))
    (began : Answer) (reply : Except SessionFault Answer) :
    Closed body (⟨.begin, .ok began⟩ :: log ++ [⟨.rollback, reply⟩]) (.error f)
  | committed {log : List Exchange} {a : α} (h : body.Runs log (.ok a)) (began done : Answer) :
    Closed body (⟨.begin, .ok began⟩ :: log ++ [⟨.commit, .ok done⟩]) (.ok a)
  | notCommitted {log : List Exchange} {a : α} (h : body.Runs log (.ok a)) (began : Answer)
    (fault : SessionFault) (reply : Except SessionFault Answer) :
    Closed body
      (⟨.begin, .ok began⟩ :: log ++ [⟨.commit, .error fault⟩, ⟨.rollback, reply⟩])
      (.error (.error (fault.toStoreError "commit_transaction")))

theorem closed_of_runs {body : Session α} {log : List Exchange} {result : StoreResult α}
    (h : (inTransaction body).Runs log result) : body.Closed log result := by
  obtain ⟨began, log, rfl, h'⟩ := runs_send.mp h
  cases began with
  | error fault =>
    obtain ⟨rfl, rfl⟩ := runs_fail.mp h'
    exact .refused fault
  | ok began =>
    obtain ⟨first, r, rest, hbody, hclose, rfl⟩ := runs_andThen.mp h'
    cases r with
    | error f =>
      obtain ⟨reply, _, rfl, hdone⟩ := runs_send.mp hclose
      obtain ⟨rfl, rfl⟩ := runs_done.mp hdone
      exact .rolledBack hbody began reply
    | ok a =>
      obtain ⟨reply, rest, rfl, hclosed⟩ := runs_send.mp hclose
      cases reply with
      | ok done =>
        obtain ⟨rfl, rfl⟩ := runs_done.mp hclosed
        exact .committed hbody began done
      | error fault =>
        obtain ⟨reply, _, rfl, hdone⟩ := runs_send.mp hclosed
        obtain ⟨rfl, rfl⟩ := runs_done.mp hdone
        exact .notCommitted hbody began fault reply

/-! ## Answers of a kind -/

/-- As long as all answers are of a kind, the session sends these commands and comes out with this
value. -/
def Yields (kind : Exchange → Prop) (s : Session α) (commands : List Command) (a : α) : Prop :=
  ∀ log result, s.Runs log result → (∀ x ∈ log, kind x) →
    result = .ok a ∧ log.map Exchange.command = commands

section Kind

variable {kind : Exchange → Prop}

/-- Where every command has an answer of the kind, there is a run with such answers. -/
theorem exists_runs (h : ∀ c, ∃ reply, kind ⟨c, reply⟩) (s : Session α) :
    ∃ log result, s.Runs log result ∧ ∀ x ∈ log, kind x := by
  induction s with
  | done result => exact ⟨[], result, .done result, List.forall_mem_nil _⟩
  | send c next ih =>
    obtain ⟨reply, hreply⟩ := h c
    obtain ⟨log, result, hruns, hlog⟩ := ih reply
    exact ⟨_, result, .send hruns, List.forall_mem_cons.mpr ⟨hreply, hlog⟩⟩

theorem Yields.pure (a : α) : Yields kind (pure a : Session α) [] a := by
  intro log result h _
  obtain ⟨rfl, rfl⟩ := runs_pure.mp h
  exact ⟨rfl, rfl⟩

theorem Yields.bind {s : Session β} {f : β → Session α} {first rest : List Command} {b : β} {a : α}
    (hs : Yields kind s first b) (hf : Yields kind (f b) rest a) :
    Yields kind (s >>= f) (first ++ rest) a := by
  intro log result h hlog
  rcases runs_bind.mp h with ⟨log₁, b', log₂, h₁, h₂, rfl⟩ | ⟨e, herror, -⟩
  · obtain ⟨hlog₁, hlog₂⟩ := List.forall_mem_append.mp hlog
    obtain ⟨hb, hfirst⟩ := hs _ _ h₁ hlog₁
    cases hb
    obtain ⟨ha, hrest⟩ := hf _ _ h₂ hlog₂
    exact ⟨ha, by rw [List.map_append, hfirst, hrest]⟩
  · cases (hs _ _ herror hlog).1

theorem Yields.bind_pure {s : Session β} {f : β → α} {commands : List Command} {b : β}
    (hs : Yields kind s commands b) :
    Yields kind (s >>= fun b => Pure.pure (f b)) commands (f b) := by
  rw [← List.append_nil commands]
  exact hs.bind (.pure (f b))

theorem Yields.done_bind {r : StoreResult β} {f : β → Session α} {commands : List Command} {b : β}
    {a : α} (hr : r = .ok b) (hf : Yields kind (f b) commands a) :
    Yields kind (Session.done r >>= f) commands a := by
  rw [hr]
  exact hf

theorem Yields.command_bind {c : Command} {onFault : SessionFault → StoreError}
    {f : Answer → Session α} {rest : List Command} {a : α}
    (hc : ∀ reply, kind ⟨c, reply⟩ → ∃ answer, reply = .ok answer)
    (hf : ∀ answer, Yields kind (f answer) rest a) :
    Yields kind (command c onFault >>= f) (c :: rest) a := by
  intro log result h hlog
  rcases runs_bind.mp h with ⟨log₁, answer, log₂, h₁, h₂, rfl⟩ | ⟨e, herror, -⟩
  · obtain rfl := runs_command_ok.mp h₁
    obtain ⟨ha, hrest⟩ := hf answer _ _ h₂ (List.forall_mem_append.mp hlog).2
    exact ⟨ha, by rw [List.map_append, hrest]; rfl⟩
  · obtain ⟨reply, rfl, hreply⟩ := runs_command.mp herror
    obtain ⟨answer, rfl⟩ := hc reply (hlog _ List.mem_cons_self)
    cases hreply

theorem Yields.queryOne_bind {operation : String} {s : Statement} {f : Row → Session α}
    {rest : List Command} {a : α} (holds : Row → Prop)
    (hs : ∀ reply, kind ⟨.statement s, reply⟩ →
      ∃ answer row, reply = .ok answer ∧ answer.rows.head? = some row ∧ holds row)
    (hf : ∀ row, holds row → Yields kind (f row) rest a) :
    Yields kind (queryOne operation s >>= f) (.statement s :: rest) a := by
  intro log result h hlog
  rcases runs_bind.mp h with ⟨log₁, row, log₂, h₁, h₂, rfl⟩ | ⟨e, herror, -⟩
  · obtain ⟨answer, rfl, hrow⟩ := runs_queryOne_ok.mp h₁
    obtain ⟨hlog₁, hlog₂⟩ := List.forall_mem_append.mp hlog
    obtain ⟨answer', row', hreply, hrow', hholds⟩ := hs _ (hlog₁ _ List.mem_cons_self)
    cases hreply
    cases hrow.symm.trans hrow'
    obtain ⟨ha, hrest⟩ := hf row hholds _ _ h₂ hlog₂
    exact ⟨ha, by rw [List.map_append, hrest]; rfl⟩
  · obtain ⟨reply, rfl, hreply⟩ := runs_queryOne.mp herror
    obtain ⟨answer, row, rfl, hrow, -⟩ := hs reply (hlog _ List.mem_cons_self)
    cases hreply.trans (firstRow_eq_ok.mpr ⟨answer, rfl, hrow⟩)

theorem Yields.inTransaction {body : Session α} {commands : List Command} {a : α}
    (haccepts : ∀ x, kind x → ∃ answer, x.reply = .ok answer)
    (hbody : Yields kind body commands a) :
    Yields kind (inTransaction body) (.begin :: commands ++ [.commit]) a := by
  intro log result h hlog
  cases closed_of_runs h with
  | refused fault =>
    obtain ⟨answer, hanswer⟩ := haccepts _ (hlog _ List.mem_cons_self)
    cases hanswer
  | rolledBack hruns began reply =>
    obtain ⟨hlog, -⟩ := List.forall_mem_append.mp hlog
    cases (hbody _ _ hruns (List.forall_mem_cons.mp hlog).2).1
  | committed hruns began done =>
    obtain ⟨hlog, -⟩ := List.forall_mem_append.mp hlog
    obtain ⟨ha, hcommands⟩ := hbody _ _ hruns (List.forall_mem_cons.mp hlog).2
    refine ⟨ha, ?_⟩
    rw [List.map_append, List.map_cons, hcommands]
    rfl
  | notCommitted hruns began fault reply =>
    obtain ⟨-, hclosing⟩ := List.forall_mem_append.mp hlog
    obtain ⟨answer, hanswer⟩ := haccepts _ (hclosing _ List.mem_cons_self)
    cases hanswer

end Kind

end Session

end DoubleEntry.Database
