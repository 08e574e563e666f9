import DoubleEntry.Database.Store
import DoubleEntry.Proofs.Balance.Deltas
import DoubleEntry.Proofs.Database.Simulation
import Mathlib.Data.Fintype.Card
import Mathlib.Data.Fintype.EquivFin
import Mathlib.Data.Set.Insert

/-!
# Commits wait for one another in one order

A commit locks the balance rows it moves and the outbox, and keeps these locks until its database
transaction ends. Any number of commits at work together are told apart by what they still have to
send and what they hold (`Committer`); a statement that asks for a lock is answered once no other
commit holds it (`Step`).

The rows are locked in the order of their keys, and the outbox last. So a commit only ever waits for
a lock that comes after all it holds (`Session.Orderly`), and where commits wait for each other, the
holder of the last lock waited for does not wait itself.

Main statement: `commits_never_deadlock`.
-/

namespace DoubleEntry.Database

open Session Std
open DoubleEntry.Sample (moment dollarsOf)

/-! ## Locks -/

/-- What a commit keeps to itself until it ends. -/
inductive Lock where
  | row (k : BalanceKey)
  | outbox

/-- Rows come in the order of their keys, and the outbox after them. -/
def Lock.Before : Lock → Lock → Prop
  | .row k, .row k' => compare k k' = .lt
  | .row _, .outbox => True
  | .outbox, _ => False

instance : IsTrans Lock Lock.Before where
  trans a b c hab hbc := by
    cases a with
    | outbox => exact hab.elim
    | row k =>
      cases c with
      | outbox => trivial
      | row k'' =>
        cases b with
        | outbox => exact hbc.elim
        | row k' => exact TransCmp.lt_trans hab hbc

instance : Std.Irrefl Lock.Before where
  irrefl a h := by
    cases a with
    | outbox => exact h
    | row k =>
      have hself : compare k k = .eq := ReflCmp.compare_self
      cases hself.symm.trans h

/-! ## What asks for a lock -/

/-- The statement waits while another transaction holds the lock, and may hold it from then on. -/
inductive Statement.Awaits : Statement → Lock → Prop
  | ensureBalance (k : BalanceKey) (now : Timestamp) : Awaits (.ensureBalance k now) (.row k)
  | lockBalance (k : BalanceKey) : Awaits (.lockBalance k) (.row k)
  | updateBalance (k : BalanceKey) (b : BalanceSnapshot) : Awaits (.updateBalance k b) (.row k)
  | lockOutbox : Awaits .lockOutbox .outbox

/-- With this answer the statement has got the lock. A row that is not there is not locked. -/
inductive Statement.Takes : Statement → Answer → Lock → Prop
  | lockBalance {k : BalanceKey} {a : Answer} (h : a.rows ≠ []) : Takes (.lockBalance k) a (.row k)
  | lockOutbox {a : Answer} : Takes .lockOutbox a .outbox

/-- The command waits while another transaction holds the lock. -/
def Command.Awaits (c : Command) (l : Lock) : Prop := ∃ s, c = .statement s ∧ s.Awaits l

/-- The locks held after a command and its reply. A lock is kept until the transaction ends: until
its commit is acknowledged, or it is rolled back. -/
def Command.Leaves (c : Command) (reply : Except SessionFault Answer) (held held' : Set Lock) :
    Prop :=
  match c, reply with
  | .statement s, .ok a =>
    held ⊆ held' ∧ (∀ l ∈ held', l ∈ held ∨ s.Awaits l) ∧ ∀ l, s.Takes a l → l ∈ held'
  | .commit, .ok _ => held' = ∅
  | .rollback, _ => held' = ∅
  | _, _ => held' = held

/-- Whatever asks for a row binds its key first. -/
theorem Statement.Awaits.take_params {s : Statement} {k : BalanceKey} (h : s.Awaits (.row k)) :
    s.params.take 4 = keyParams k ∧ s.params.length ∈ [4, 5, 10] := by
  cases h with
  | ensureBalance now => exact ⟨rfl, (by decide : 5 ∈ [4, 5, 10])⟩
  | lockBalance => exact ⟨rfl, (by decide : 4 ∈ [4, 5, 10])⟩
  | updateBalance b => exact ⟨rfl, (by decide : 10 ∈ [4, 5, 10])⟩

theorem Statement.Awaits.eq_lockOutbox {s : Statement} (h : s.Awaits .outbox) :
    s = .lockOutbox := by
  cases h
  rfl

/-- A statement on one row asks for this one alone. -/
theorem Statement.Awaits.eq_row {s : Statement} {k : BalanceKey} {l : Lock}
    (hkey : s.params.take 4 = keyParams k) (h : s.Awaits l) : l = .row k := by
  cases l with
  | row k' =>
    rw [h.take_params.1] at hkey
    rw [keyParams_inj hkey]
  | outbox =>
    rw [h.eq_lockOutbox] at hkey
    cases hkey

/-- Statements that ask for a lock are told by the number of their parameters. -/
theorem Statement.not_awaits {s : Statement} (h : s.params.length ∉ [1, 4, 5, 10]) (l : Lock) :
    ¬ s.Awaits l := by
  intro hawaits
  refine h (List.mem_cons.mpr ?_)
  cases l with
  | row k => exact .inr hawaits.take_params.2
  | outbox => exact .inl (congrArg (fun s => s.params.length) hawaits.eq_lockOutbox)

theorem Command.Awaits.statement {s : Statement} {l : Lock}
    (h : (Command.statement s).Awaits l) : s.Awaits l := by
  obtain ⟨_, heq, hs⟩ := h
  cases heq
  exact hs

theorem Command.Leaves.mem {c : Command} {reply : Except SessionFault Answer}
    {held held' : Set Lock} (h : c.Leaves reply held held') {l : Lock} (hl : l ∈ held') :
    l ∈ held ∨ c.Awaits l ∧ ∃ a, reply = .ok a := by
  unfold Leaves at h
  split at h
  · next s a =>
    exact (h.2.1 l hl).imp_right fun hs => ⟨⟨s, rfl, hs⟩, a, rfl⟩
  · rw [h] at hl
    exact hl.elim
  · rw [h] at hl
    exact hl.elim
  · rw [h] at hl
    exact .inl hl

/-- Every command can leave some locks. -/
theorem Command.exists_leaves (c : Command) (reply : Except SessionFault Answer)
    (held : Set Lock) : ∃ held', c.Leaves reply held held' := by
  unfold Leaves
  split
  · next s a =>
    refine ⟨{l | l ∈ held ∨ s.Awaits l}, fun l hl => .inl hl, fun l hl => hl, fun l hl => .inr ?_⟩
    cases hl with
    | lockBalance h => exact .lockBalance _
    | lockOutbox => exact .lockOutbox
  · exact ⟨∅, rfl⟩
  · exact ⟨∅, rfl⟩
  · exact ⟨held, rfl⟩

/-! ## Sessions that take their locks in order -/

namespace Session

variable {α β : Type}

/-- With these locks held, the session only ever waits for locks it holds or that come after all it
holds, and ends with locks and a result as in `post`. -/
def Orderly (post : Set Lock → StoreResult α → Prop) : Session α → Set Lock → Prop
  | .done result, held => post held result
  | .send c next, held =>
    (∀ l, c.Awaits l → l ∈ held ∨ ∀ l' ∈ held, l'.Before l) ∧
      ∀ reply held', c.Leaves reply held held' → (next reply).Orderly post held'

/-- What holds of the locks where there is a value. -/
def WithValue (P : Set Lock → Prop) (held : Set Lock) (result : StoreResult α) : Prop :=
  ∀ a, result = .ok a → P held

section Orderly

variable {held : Set Lock} {P Q : Set Lock → Prop}

theorem Orderly.andThen {s : Session β} {f : StoreResult β → Session α}
    {mid : Set Lock → StoreResult β → Prop} {post : Set Lock → StoreResult α → Prop}
    (hs : s.Orderly mid held) (hf : ∀ held' r, mid held' r → (f r).Orderly post held') :
    (s.andThen f).Orderly post held := by
  induction s generalizing held with
  | done r => exact hf held r hs
  | send c next ih =>
    exact ⟨hs.1, fun reply held' h => ih reply (hs.2 reply held' h)⟩

theorem Orderly.bind {s : Session β} {f : β → Session α} (hs : s.Orderly (WithValue P) held)
    (hf : ∀ b held', P held' → (f b).Orderly (WithValue Q) held') :
    (s >>= f).Orderly (WithValue Q) held := by
  refine Orderly.andThen hs fun held' r hr => ?_
  cases r with
  | ok b => exact hf b held' (hr b rfl)
  | error e =>
    intro a ha
    cases ha

theorem orderly_done {r : StoreResult α} (h : P held) : (done r).Orderly (WithValue P) held :=
  fun _ _ => h

theorem orderly_done_bind {r : StoreResult β} {f : β → Session α}
    (hf : ∀ b, (f b).Orderly (WithValue P) held) :
    (Session.done r >>= f).Orderly (WithValue P) held :=
  .bind (P := (· = held)) (orderly_done rfl) fun b _ h => h ▸ hf b

/-- One statement that waits for no lock but one it may take, and goes on with its reply. -/
theorem orderly_send {s : Statement} {f : Except SessionFault Answer → StoreResult α}
    (hwait : ∀ l, s.Awaits l → l ∈ held ∨ ∀ l' ∈ held, l'.Before l)
    (hP : ∀ held' : Set Lock, (∀ l ∈ held', l ∈ held ∨ s.Awaits l) → P held') :
    (send (.statement s) fun reply => .done (f reply)).Orderly (WithValue P) held := by
  refine ⟨fun l hl => hwait l hl.statement, fun reply held' h _ _ => hP held' fun l hl => ?_⟩
  exact (h.mem hl).imp_right fun ⟨hc, _⟩ => hc.statement

/-- A statement that asks for no lock. -/
theorem orderly_send_free {s : Statement} {f : Except SessionFault Answer → StoreResult α}
    (hs : ∀ l, ¬ s.Awaits l) (hP : ∀ held' ⊆ held, P held') :
    (send (.statement s) fun reply => .done (f reply)).Orderly (WithValue P) held :=
  orderly_send (fun l hl => absurd hl (hs l)) fun held' h =>
    hP held' fun l hl => (h l hl).resolve_right (hs l)

/-- A statement that asks for the next lock, or again for the one taken last. -/
theorem orderly_send_next {s : Statement} {f : Except SessionFault Answer → StoreResult α}
    {before : Set Lock} {next : Lock} (hs : ∀ l, s.Awaits l → l = next)
    (hbefore : ∀ l ∈ before, l.Before next) (hheld : held ⊆ insert next before) :
    (send (.statement s) fun reply => .done (f reply)).Orderly
      (WithValue (· ⊆ insert next before)) held := by
  refine orderly_send (fun l hl => ?_) fun held' h l hl => ?_
  · obtain rfl := hs l hl
    by_cases hmem : l ∈ held
    · exact .inl hmem
    · refine .inr fun l' hl' => hbefore l' ((hheld hl').resolve_left ?_)
      rintro rfl
      exact hmem hl'
  · rcases h l hl with hold | hnew
    · exact hheld hold
    · exact .inl (hs l hnew)

end Orderly

end Session

/-! ## A commit takes its locks in order -/

section Commit

variable {held before : Set Lock} {m : Moment} {now : Timestamp} {id : TransactionId}

theorem orderly_insertEntries (entries : List Entry) (hheld : held ⊆ before) :
    (insertEntries entries).Orderly (WithValue (· ⊆ before)) held := by
  induction entries generalizing held with
  | nil => exact orderly_done hheld
  | cons e es ih =>
    refine .bind (P := (· ⊆ before)) (orderly_send_free ?_ fun _ h => h.trans hheld) fun _ _ => ih
    exact Statement.not_awaits (by decide : 12 ∉ [1, 4, 5, 10])

/-- A row is asked for by all three statements that move it, and by then comes after all that is
held. -/
theorem orderly_moveBalance (d : BalanceDelta) (hbefore : ∀ l ∈ before, l.Before (.row d.key))
    (hheld : held ⊆ before) :
    (moveBalance now id d).Orderly (WithValue (· ⊆ insert (.row d.key) before)) held := by
  have hnext : ∀ {s : Statement} {α : Type} {f : Except SessionFault Answer → StoreResult α}
      {held : Set Lock}, s.params.take 4 = Statement.keyParams d.key →
      held ⊆ insert (.row d.key) before →
      (send (.statement s) fun reply => .done (f reply)).Orderly
        (WithValue (· ⊆ insert (.row d.key) before)) held :=
    fun hs => orderly_send_next (fun _ hl => hl.eq_row hs) hbefore
  refine .bind (hnext rfl (hheld.trans (Set.subset_insert _ _))) fun _ _ hheld => ?_
  refine .bind (queryOne_eq _ _ ▸ hnext rfl hheld) fun _ _ hheld => ?_
  refine orderly_done_bind fun _ => orderly_done_bind fun _ => ?_
  exact .bind (hnext rfl hheld) fun _ _ hheld => orderly_done hheld

theorem orderly_moveBalances {ds : List BalanceDelta}
    (hds : (ds.map BalanceDelta.key).Pairwise fun k k' => compare k k' = .lt)
    (hbefore : ∀ l ∈ before, ∀ d ∈ ds, l.Before (.row d.key)) (hheld : held ⊆ before) :
    (moveBalances now id ds).Orderly
      (WithValue (· ⊆ before ∪ {l | ∃ d ∈ ds, l = .row d.key})) held := by
  induction ds generalizing held before with
  | nil => exact orderly_done (hheld.trans Set.subset_union_left)
  | cons d ds ih =>
    obtain ⟨hd, hds⟩ := List.pairwise_cons.mp hds
    refine .bind (orderly_moveBalance d (fun l hl => hbefore l hl d List.mem_cons_self) hheld)
      fun b held₁ hheld₁ => ?_
    refine .bind (ih hds (fun l hl d' hd' => ?_) hheld₁) fun bs held₂ hheld₂ =>
      orderly_done (hheld₂.trans ?_)
    · rcases hl with rfl | hl
      · exact hd d'.key (List.mem_map_of_mem hd')
      · exact hbefore l hl d' (List.mem_cons_of_mem _ hd')
    · rintro l ((rfl | hl) | ⟨d', hd', rfl⟩)
      · exact .inr ⟨d, List.mem_cons_self, rfl⟩
      · exact .inl hl
      · exact .inr ⟨d', List.mem_cons_of_mem _ hd', rfl⟩

theorem orderly_appendAfter (recordId : Nat → Uuid) (last : UInt64) (events : List LedgerEvent) :
    (appendAfter recordId last events).Orderly (WithValue fun _ => True) held := by
  induction events generalizing recordId last held with
  | nil => exact orderly_done trivial
  | cons e es ih =>
    refine orderly_done_bind fun _ => orderly_done_bind fun _ => ?_
    refine .bind (P := fun _ => True) (orderly_send_free ?_ fun _ _ => trivial) fun _ _ _ => ih _ _
    exact Statement.not_awaits (by decide : 6 ∉ [1, 4, 5, 10])

/-- The lock of the outbox comes after all rows. -/
theorem orderly_appendOutbox (events : List LedgerEvent) (hheld : ∀ l ∈ held, l.Before .outbox) :
    (appendOutbox m events).Orderly (WithValue fun _ => True) held := by
  refine .bind (P := (· ⊆ insert .outbox held)) ?_ fun _ _ _ => ?_
  · refine orderly_send_next (fun l hl => ?_) hheld (Set.subset_insert _ _)
    cases l with
    | row k => exact absurd hl.take_params.2 (by decide : 1 ∉ [4, 5, 10])
    | outbox => rfl
  · refine .bind (P := fun _ => True) (queryOne_eq _ _ ▸ orderly_send_free ?_ fun _ _ => trivial)
      fun _ _ _ => orderly_done_bind fun _ => orderly_appendAfter _ _ _
    exact Statement.not_awaits (by decide : 0 ∉ [1, 4, 5, 10])

/-- Everything a commit takes, it takes in order. -/
theorem orderly_writeTransaction {t : Transaction} {ds : List BalanceDelta}
    (hds : deltas t.entries = .ok ds) :
    (writeTransaction m t ds).Orderly (WithValue fun _ => True) ∅ := by
  refine .bind (P := (· ⊆ ∅)) (orderly_send_free ?_ fun _ h => h) fun _ held₀ h₀ => ?_
  · exact Statement.not_awaits (by decide : 11 ∉ [1, 4, 5, 10])
  refine .bind (orderly_insertEntries t.entries h₀) fun _ held₁ h₁ => ?_
  refine .bind (orderly_moveBalances (deltas_in_order hds).1 (fun l hl => hl.elim) h₁)
    fun rows held₂ h₂ => ?_
  refine .bind (P := fun _ => True) (orderly_appendOutbox _ fun l hl => ?_) fun _ _ _ =>
    orderly_done trivial
  rcases h₂ hl with hempty | ⟨d, -, rfl⟩
  · exact hempty.elim
  · trivial

/-- A database transaction ends with no locks, however it ends. -/
theorem orderly_inTransaction {α : Type} {body : Session α}
    (hbody : body.Orderly (WithValue fun _ => True) ∅) :
    (inTransaction body).Orderly (fun held _ => held = ∅) ∅ := by
  have hwaits : ∀ {c : Command} {held : Set Lock}, (∀ s, c ≠ .statement s) →
      ∀ l, c.Awaits l → l ∈ held ∨ ∀ l' ∈ held, l'.Before l :=
    fun hc l hl => absurd hl.choose_spec.1 (hc _)
  have hrollBack : ∀ (f : Failure StoreError) (held : Set Lock),
      (rollBack f : Session α).Orderly (fun held _ => held = ∅) held :=
    fun f held => ⟨hwaits (by simp), fun reply held' h => h⟩
  refine ⟨hwaits (by simp), fun reply held' h => ?_⟩
  cases reply with
  | error fault => exact h
  | ok began =>
    obtain rfl : held' = ∅ := h
    refine Orderly.andThen hbody fun held result _ => ?_
    cases result with
    | error f => exact hrollBack f held
    | ok a =>
      refine ⟨hwaits (by simp), fun reply held' h => ?_⟩
      cases reply with
      | ok done => exact h
      | error fault => exact hrollBack _ _

theorem orderly_commitTransaction (m : Moment) (t : Transaction) :
    (commitTransaction m t).Orderly (fun held _ => held = ∅) ∅ := by
  unfold commitTransaction
  cases hds : deltas t.entries with
  | error e => exact rfl
  | ok ds => exact orderly_inTransaction (orderly_writeTransaction hds)

end Commit

/-! ## How often a row is locked -/

section Counting

variable {α β : Type} {k : BalanceKey} {n n' : Nat}

open Classical in
/-- How often the row of a key was locked. -/
noncomputable def timesLocked (k : BalanceKey) (log : List Exchange) : Nat :=
  log.countP fun x => decide (x.command = .statement (.lockBalance k))

/-- The session locks the row of a key this often where it comes out with a value, and no more often
where it fails. -/
def Session.LocksRow (k : BalanceKey) (n : Nat) (s : Session α) : Prop :=
  ∀ log result, s.Runs log result →
    timesLocked k log ≤ n ∧ ∀ a, result = .ok a → timesLocked k log = n

theorem timesLocked_append (first rest : List Exchange) :
    timesLocked k (first ++ rest) = timesLocked k first + timesLocked k rest :=
  List.countP_append

theorem timesLocked_singleton_of_ne {x : Exchange} (h : x.command ≠ .statement (.lockBalance k)) :
    timesLocked k [x] = 0 :=
  List.countP_eq_zero.mpr fun y hy => by simpa [List.mem_singleton.mp hy] using h

theorem timesLocked_lockBalance (k' : BalanceKey) (reply : Except SessionFault Answer) :
    timesLocked k [⟨.statement (.lockBalance k'), reply⟩] = [k'].count k := by
  by_cases h : k' = k
  · subst h
    simp [timesLocked]
  · rw [timesLocked_singleton_of_ne, List.count_singleton, if_neg (by simpa using h)]
    intro heq
    exact h (keyParams_inj (congrArg Statement.params (Command.statement.inj heq)))

theorem locksRow_done (r : StoreResult α) : (Session.done r).LocksRow k 0 := by
  intro log result h
  obtain ⟨rfl, rfl⟩ := runs_done.mp h
  exact ⟨Nat.le_refl 0, fun _ _ => rfl⟩

theorem Session.LocksRow.bind {s : Session β} {f : β → Session α} (hs : s.LocksRow k n)
    (hf : ∀ b, (f b).LocksRow k n') : (s >>= f).LocksRow k (n + n') := by
  intro log result h
  rcases runs_bind.mp h with ⟨first, b, rest, hfirst, hrest, rfl⟩ | ⟨e, herror, rfl⟩
  · have hcount := (hs _ _ hfirst).2 b rfl
    obtain ⟨hle, heq⟩ := hf b _ _ hrest
    rw [timesLocked_append, hcount]
    exact ⟨Nat.add_le_add_left hle n, fun a ha => congrArg (n + ·) (heq a ha)⟩
  · exact ⟨Nat.le_trans (hs _ _ herror).1 (Nat.le_add_right n n'), by simp⟩

theorem locksRow_done_bind {r : StoreResult β} {f : β → Session α} (hf : ∀ b, (f b).LocksRow k n) :
    (Session.done r >>= f).LocksRow k n :=
  Nat.zero_add n ▸ (locksRow_done r).bind hf

/-- One statement, which locks the row so often whatever it is answered. -/
theorem locksRow_send {s : Statement} {f : Except SessionFault Answer → StoreResult α}
    (h : ∀ reply, timesLocked k [⟨.statement s, reply⟩] = n) :
    (send (.statement s) fun reply => .done (f reply)).LocksRow k n := by
  intro log result hruns
  obtain ⟨reply, rest, rfl, hdone⟩ := runs_send.mp hruns
  obtain ⟨rfl, -⟩ := runs_done.mp hdone
  exact ⟨Nat.le_of_eq (h reply), fun _ _ => h reply⟩

/-- Only a statement with the parameters of a key alone locks a row. -/
theorem locksRow_send_bind {s : Statement} {g : Except SessionFault Answer → StoreResult β}
    {f : β → Session α} (h : s.params.length ≠ 4) (hf : ∀ b, (f b).LocksRow k n) :
    ((send (.statement s) fun reply => .done (g reply)) >>= f).LocksRow k n := by
  rw [← Nat.zero_add n]
  refine .bind (locksRow_send fun _ => timesLocked_singleton_of_ne fun heq => ?_) hf
  exact h (congrArg (fun s => s.params.length) (Command.statement.inj heq))

theorem locksRow_moveBalance (now : Timestamp) (id : TransactionId) (d : BalanceDelta) :
    (moveBalance now id d).LocksRow k ([d.key].count k) := by
  refine locksRow_send_bind (s := .ensureBalance d.key now) (by decide : 5 ≠ 4) fun _ => ?_
  rw [← Nat.add_zero (List.count _ _)]
  refine .bind (queryOne_eq _ _ ▸ locksRow_send (timesLocked_lockBalance d.key)) fun _ => ?_
  refine locksRow_done_bind fun _ => locksRow_done_bind fun next => ?_
  exact locksRow_send_bind (s := .updateBalance d.key next) (by decide : 10 ≠ 4) fun _ =>
    locksRow_done _

theorem locksRow_moveBalances (now : Timestamp) (id : TransactionId) (ds : List BalanceDelta) :
    (moveBalances now id ds).LocksRow k ((ds.map BalanceDelta.key).count k) := by
  induction ds with
  | nil => exact locksRow_done _
  | cons d ds ih =>
    have hcount : ((d :: ds).map BalanceDelta.key).count k =
        [d.key].count k + ((ds.map BalanceDelta.key).count k + 0) := by
      rw [List.map_cons, ← List.singleton_append, List.count_append, Nat.add_zero]
    rw [hcount]
    exact (locksRow_moveBalance now id d).bind fun _ => ih.bind fun _ => locksRow_done _

theorem locksRow_insertEntries (entries : List Entry) : (insertEntries entries).LocksRow k 0 := by
  induction entries with
  | nil => exact locksRow_done _
  | cons e es ih => exact locksRow_send_bind (s := .insertEntry e) (by decide : 12 ≠ 4) fun _ => ih

theorem locksRow_appendAfter (recordId : Nat → Uuid) (last : UInt64) (events : List LedgerEvent) :
    (appendAfter recordId last events).LocksRow k 0 := by
  induction events generalizing recordId last with
  | nil => exact locksRow_done _
  | cons e es ih =>
    exact locksRow_done_bind fun sequence => locksRow_done_bind fun e =>
      locksRow_send_bind (s := .insertRecord (.ofEvent (recordId 0) sequence e))
        (by decide : 6 ≠ 4) fun _ => ih _ _

theorem locksRow_appendOutbox (m : Moment) (events : List LedgerEvent) :
    (appendOutbox m events).LocksRow k 0 := by
  refine locksRow_send_bind (s := .lockOutbox) (by decide : 1 ≠ 4) fun _ => ?_
  rw [queryOne_eq]
  exact locksRow_send_bind (s := .outboxHead) (by decide : 0 ≠ 4) fun _ =>
    locksRow_done_bind fun _ => locksRow_appendAfter _ _ _

theorem locksRow_writeTransaction (m : Moment) (t : Transaction) (ds : List BalanceDelta) :
    (writeTransaction m t ds).LocksRow k ((ds.map BalanceDelta.key).count k) := by
  refine locksRow_send_bind (s := .insertTransaction t) (by decide : 11 ≠ 4) fun _ => ?_
  rw [← Nat.zero_add (List.count _ _)]
  refine (locksRow_insertEntries t.entries).bind fun _ => ?_
  rw [← Nat.add_zero (List.count _ _)]
  refine (locksRow_moveBalances m.now t.id ds).bind fun rows => ?_
  exact (locksRow_appendOutbox m _).bind fun _ => locksRow_done _

/-- A database transaction locks the rows that its body locks. -/
theorem locksRow_inTransaction {body : Session α} (h : body.LocksRow k n) :
    (inTransaction body).LocksRow k n := by
  have hother : ∀ {x : Exchange}, (∀ s, x.command ≠ .statement s) → timesLocked k [x] = 0 :=
    fun hx => timesLocked_singleton_of_ne (hx _)
  have hbody : ∀ {log closing : List Exchange} {r : StoreResult α} {began : Answer},
      body.Runs log r → timesLocked k closing = 0 →
      timesLocked k (⟨.begin, .ok began⟩ :: log ++ closing) ≤ n ∧
        ∀ a, r = .ok a → timesLocked k (⟨.begin, .ok began⟩ :: log ++ closing) = n := by
    intro log closing r began hruns hclosing
    have hcount : timesLocked k (⟨.begin, .ok began⟩ :: log ++ closing) = timesLocked k log := by
      rw [timesLocked_append, hclosing, ← List.singleton_append, timesLocked_append,
        hother (by simp), Nat.zero_add, Nat.add_zero]
    rw [hcount]
    exact h log r hruns
  intro log result hruns
  cases closed_of_runs hruns with
  | refused fault => exact ⟨by rw [hother (by simp)]; exact Nat.zero_le n, by simp⟩
  | rolledBack hrun began reply => exact hbody hrun (hother (by simp))
  | committed hrun began done => exact hbody hrun (hother (by simp))
  | notCommitted hrun began fault reply =>
    refine ⟨(hbody hrun ?_).1, by simp⟩
    rw [← List.singleton_append, timesLocked_append, hother (by simp), hother (by simp)]

/-- A commit locks the row of every key it touches once, and no other rows. -/
theorem locksRow_commitTransaction (m : Moment) (t : Transaction) (k : BalanceKey) :
    (commitTransaction m t).LocksRow k (if t.Touches k then 1 else 0) := by
  unfold commitTransaction
  cases hds : deltas t.entries with
  | error e =>
    intro log result h
    obtain ⟨rfl, rfl⟩ := runs_fail.mp h
    exact ⟨Nat.zero_le _, by simp⟩
  | ok ds =>
    obtain ⟨hnodup, hkeys, -⟩ := deltas_eq_ok hds
    have hcount : (ds.map BalanceDelta.key).count k = if t.Touches k then 1 else 0 := by
      rw [hnodup.count]
      exact if_congr (hkeys k) rfl rfl
    rw [← hcount]
    exact locksRow_inTransaction (locksRow_writeTransaction m t ds)

end Counting

/-! ## Commits at work together -/

/-- A commit under way. -/
structure Committer where
  /-- What it has yet to send. -/
  rest : Session CommittedPosting
  held : Set Lock
  /-- What it has exchanged so far. -/
  log : List Exchange

/-- A commit before its first command. -/
def Committer.start (asked : Moment × Transaction) : Committer :=
  ⟨commitTransaction asked.1 asked.2, ∅, []⟩

def Committer.Unfinished (c : Committer) : Prop := ∃ command next, c.rest = .send command next

namespace Commits

variable {n : Nat} {asked : Fin n → Moment × Transaction} {commits commits' : Fin n → Committer}
  {i : Fin n} {reply : Except SessionFault Answer}

/-- One commit sends its next command and gets a reply. The command may fail at any time, but is
answered only once no other commit holds a lock it asks for. -/
inductive Step (commits : Fin n → Committer) (i : Fin n) (reply : Except SessionFault Answer) :
    (Fin n → Committer) → Prop
  | intro {c : Command} {next : Except SessionFault Answer → Session CommittedPosting}
    {held : Set Lock} (hrest : (commits i).rest = .send c next)
    (hfree : ∀ a, reply = .ok a → ∀ l, c.Awaits l → ∀ j, j ≠ i → l ∉ (commits j).held)
    (hheld : c.Leaves reply (commits i).held held) :
    Step commits i reply
      (Function.update commits i ⟨next reply, held, (commits i).log ++ [⟨c, reply⟩]⟩)

/-- What commits come to that take their steps in any order. -/
inductive Reachable (asked : Fin n → Moment × Transaction) : (Fin n → Committer) → Prop
  | start : Reachable asked fun i => .start (asked i)
  | step {commits commits' : Fin n → Committer} {i : Fin n} {reply : Except SessionFault Answer}
    (h : Reachable asked commits) (hstep : Step commits i reply commits') :
    Reachable asked commits'

/-- Commits that lock in order, each lock held by one of them. -/
structure InOrder (asked : Fin n → Moment × Transaction) (commits : Fin n → Committer) : Prop where
  orderly : ∀ i, (commits i).rest.Orderly (fun held _ => held = ∅) (commits i).held
  exclusive : ∀ i j l, l ∈ (commits i).held → l ∈ (commits j).held → i = j
  continues : ∀ i rest result, (commits i).rest.Runs rest result →
    (commitTransaction (asked i).1 (asked i).2).Runs ((commits i).log ++ rest) result

theorem inOrder_start (asked : Fin n → Moment × Transaction) :
    InOrder asked fun i => .start (asked i) where
  orderly _ := orderly_commitTransaction _ _
  exclusive _ _ _ h := h.elim
  continues _ _ _ h := h

theorem InOrder.step (h : InOrder asked commits) (hstep : Step commits i reply commits') :
    InOrder asked commits' := by
  obtain ⟨hrest, hfree, hheld⟩ := hstep
  next c next held =>
  have hother : ∀ j, j ≠ i → ∀ l ∈ held, l ∉ (commits j).held := by
    intro j hj l hl hmem
    rcases hheld.mem hl with hold | ⟨hawaits, a, ha⟩
    · exact hj (h.exclusive j i l hmem hold)
    · exact hfree a ha l hawaits j hj hmem
  refine ⟨?_, fun j j' l hl hl' => ?_, ?_⟩
  · refine (Function.forall_update_iff commits fun _ c =>
      c.rest.Orderly (fun held _ => held = ∅) c.held).mpr ⟨?_, fun j _ => h.orderly j⟩
    have horderly := h.orderly i
    rw [hrest] at horderly
    exact horderly.2 reply held hheld
  · by_cases hj : j = i <;> by_cases hj' : j' = i
    · rw [hj, hj']
    · rw [hj, Function.update_self] at hl
      rw [Function.update_of_ne hj'] at hl'
      exact absurd hl' (hother j' hj' l hl)
    · rw [Function.update_of_ne hj] at hl
      rw [hj', Function.update_self] at hl'
      exact absurd hl (hother j hj l hl')
    · rw [Function.update_of_ne hj] at hl
      rw [Function.update_of_ne hj'] at hl'
      exact h.exclusive j j' l hl hl'
  · refine (Function.forall_update_iff commits fun j c => ∀ rest result, c.rest.Runs rest result →
      (commitTransaction (asked j).1 (asked j).2).Runs (c.log ++ rest) result).mpr
        ⟨fun rest result hruns => ?_, fun j _ => h.continues j⟩
    have hwhole := h.continues i (⟨c, reply⟩ :: rest) result (hrest ▸ .send hruns)
    rwa [List.append_assoc, List.singleton_append]

theorem Reachable.inOrder (h : Reachable asked commits) : InOrder asked commits := by
  induction h with
  | start => exact inOrder_start asked
  | step _ hstep ih => exact ih.step hstep

/-- A commit that holds a lock goes on. -/
theorem InOrder.unfinished_of_held (h : InOrder asked commits) {l : Lock}
    (hl : l ∈ (commits i).held) : (commits i).Unfinished := by
  cases hrest : (commits i).rest with
  | send c next => exact ⟨c, next, hrest⟩
  | done result =>
    have hdone := h.orderly i
    rw [hrest] at hdone
    rw [show (commits i).held = ∅ from hdone] at hl
    exact hl.elim

/-- The commit waits for a lock that another one holds. -/
def Blocked (commits : Fin n → Committer) (i : Fin n) (l : Lock) : Prop :=
  (∃ c next, (commits i).rest = .send c next ∧ c.Awaits l) ∧ ∃ j, j ≠ i ∧ l ∈ (commits j).held

/-- Among unfinished commits there is one that waits for no other. Of the locks waited for take one
that none comes after: its holder, were it to wait, would wait for a later one. -/
theorem InOrder.exists_not_blocked (h : InOrder asked commits) (hi : (commits i).Unfinished) :
    ∃ i, (commits i).Unfinished ∧ ∀ l, ¬ Blocked commits i l := by
  by_contra hall
  push Not at hall
  choose wanted hwanted using fun i : {i // (commits i).Unfinished} => hall i i.2
  let After (i j : {i // (commits i).Unfinished}) : Prop := (wanted j).Before (wanted i)
  have htrans : IsTrans _ After := ⟨fun _ _ _ hij hjk => trans_of Lock.Before hjk hij⟩
  have hirrefl : Std.Irrefl After := ⟨fun i => irrefl_of Lock.Before (wanted i)⟩
  obtain ⟨last, -, hlast⟩ := (Finite.wellFounded_of_trans_of_irrefl After).has_min Set.univ
    ⟨⟨i, hi⟩, trivial⟩
  obtain ⟨-, holder, -, hheld⟩ := hwanted last
  have hholder := h.unfinished_of_held hheld
  obtain ⟨⟨c, next, hrest, hawaits⟩, other, hne, hother⟩ := hwanted ⟨holder, hholder⟩
  have horderly := h.orderly holder
  rw [hrest] at horderly
  rcases horderly.1 _ hawaits with hown | hbefore
  · exact hne (h.exclusive other holder _ hother hown)
  · exact hlast ⟨holder, hholder⟩ trivial (hbefore _ hheld)

/-- A command that waits for no other commit can be answered. -/
theorem exists_step {c : Command} {next : Except SessionFault Answer → Session CommittedPosting}
    (hrest : (commits i).rest = .send c next)
    (hfree : ∀ l, c.Awaits l → ∀ j, j ≠ i → l ∉ (commits j).held) (a : Answer) :
    ∃ commits', Step commits i (.ok a) commits' ∧ (commits' i).rest = next (.ok a) ∧
      (∀ j, j ≠ i → commits' j = commits j) ∧
      ∀ s l, c = .statement s → s.Takes a l → l ∈ (commits' i).held := by
  obtain ⟨held, hheld⟩ := c.exists_leaves (.ok a) (commits i).held
  refine ⟨_, .intro hrest (fun _ _ => hfree) hheld, ?_, fun j hj => ?_, fun s l hs hl => ?_⟩
  · rw [Function.update_self]
  · rw [Function.update_of_ne hj]
  · subst hs
    rw [Function.update_self]
    exact hheld.2.2 l hl

/-- A commit that waits for no other goes on with any answer. -/
theorem exists_step_of_not_blocked (hi : (commits i).Unfinished)
    (hfree : ∀ l, ¬ Blocked commits i l) (a : Answer) :
    ∃ commits', Step commits i (.ok a) commits' := by
  obtain ⟨c, next, hrest⟩ := hi
  obtain ⟨commits', hstep, -⟩ := exists_step hrest
    (fun l hl j hj hmem => hfree l ⟨⟨c, next, hrest, hl⟩, j, hj, hmem⟩) a
  exact ⟨commits', hstep⟩

end Commits

open Commits

/-- Commits that take their steps in any order never wait for each other all at once: as long as one
is unfinished, one of the unfinished can take its next step, whatever the database answers. Each
commit locks the row of a key once if it touches the key and not at all otherwise; one that fails
may not have come to lock it. -/
theorem commits_never_deadlock {n : Nat} {asked : Fin n → Moment × Transaction}
    {commits : Fin n → Committer} (h : Reachable asked commits) :
    ((∃ i, (commits i).Unfinished) →
      ∃ i, (commits i).Unfinished ∧ ∀ answer, ∃ commits', Step commits i (.ok answer) commits') ∧
    ∀ i k, timesLocked k (commits i).log ≤ (if (asked i).2.Touches k then 1 else 0) ∧
      ∀ posted, (commits i).rest = .done (.ok posted) →
        timesLocked k (commits i).log = if (asked i).2.Touches k then 1 else 0 := by
  have horder := h.inOrder
  refine ⟨fun ⟨i, hi⟩ => ?_, fun i k => ?_⟩
  · obtain ⟨j, hj, hfree⟩ := horder.exists_not_blocked hi
    exact ⟨j, hj, exists_step_of_not_blocked hj hfree⟩
  · have hlocks := locksRow_commitTransaction (asked i).1 (asked i).2 k
    constructor
    · have hrest := runs_follow (commits i).rest fun _ => .error .broken
      have htotal := (hlocks _ _ (horder.continues i _ _ hrest)).1
      rw [timesLocked_append] at htotal
      exact Nat.le_trans (Nat.le_add_right _ _) htotal
    · intro posted hdone
      have hruns := horder.continues i [] (.ok posted) (hdone ▸ .done _)
      rw [List.append_nil] at hruns
      exact (hlocks _ _ hruns).2 posted rfl

/-- Two commits that move one row. -/
def Sample.deposits (i : Fin 2) : Moment × Transaction :=
  (moment (10 + 20 * i), Sample.deposit (20 + 20 * i))

/-- The first commit has locked the row, and the second one waits for it. -/
theorem commits_never_deadlock_deposits :
    ∃ commits, Reachable Sample.deposits commits ∧ Blocked commits 1 (.row (dollarsOf 2)) ∧
      ∃ i, (commits i).Unfinished ∧ ∀ answer, ∃ commits', Step commits i (.ok answer) commits' := by
  have hone : (1 : Fin 2) ≠ 0 := by decide
  have hfree : ∀ {commits : Fin 2 → Committer}, commits 1 = .start (Sample.deposits 1) →
      ∀ (c : Command) l, c.Awaits l → ∀ j, j ≠ 0 → l ∉ (commits j).held := by
    intro commits hstart c l _ j hj
    rw [Fin.eq_one_of_ne_zero j hj, hstart]
    exact fun h => h
  have hquiet : ∀ {commits : Fin 2 → Committer} {s : Statement},
      s.params.length ∉ [1, 4, 5, 10] →
      ∀ l, (Command.statement s).Awaits l → ∀ j, j ≠ 1 → l ∉ (commits j).held :=
    fun hs l hl => absurd hl.statement (Statement.not_awaits hs l)
  let c₀ : Fin 2 → Committer := fun i => .start (Sample.deposits i)
  obtain ⟨c₁, s₁, r₁, o₁, -⟩ := exists_step (show (c₀ 0).rest = _ from rfl) (hfree rfl _) ⟨[], 0⟩
  have e₁ := o₁ 1 hone
  obtain ⟨c₂, s₂, r₂, o₂, -⟩ := exists_step (r₁.trans rfl) (hfree e₁ _) ⟨[], 0⟩
  have e₂ := (o₂ 1 hone).trans e₁
  obtain ⟨c₃, s₃, r₃, o₃, -⟩ := exists_step (r₂.trans rfl) (hfree e₂ _) ⟨[], 0⟩
  have e₃ := (o₃ 1 hone).trans e₂
  obtain ⟨c₄, s₄, r₄, o₄, -⟩ := exists_step (r₃.trans rfl) (hfree e₃ _) ⟨[], 0⟩
  have e₄ := (o₄ 1 hone).trans e₃
  obtain ⟨c₅, s₅, -, o₅, t₅⟩ := exists_step (r₄.trans rfl) (hfree e₄ _) ⟨[∅], 0⟩
  have e₅ := (o₅ 1 hone).trans e₄
  have hlocked := t₅ (.lockBalance (dollarsOf 2)) (.row (dollarsOf 2)) rfl (.lockBalance (by simp))
  have hbegin : ∀ l, ¬ Command.begin.Awaits l := fun _ ⟨_, heq, _⟩ => by cases heq
  obtain ⟨c₆, s₆, r₆, o₆, -⟩ := exists_step ((congrArg Committer.rest e₅).trans rfl)
    (fun l hl => absurd hl (hbegin l)) ⟨[], 0⟩
  obtain ⟨c₇, s₇, r₇, o₇, -⟩ := exists_step (r₆.trans rfl)
    (hquiet (by decide : 11 ∉ [1, 4, 5, 10])) ⟨[], 0⟩
  obtain ⟨c₈, s₈, r₈, o₈, -⟩ := exists_step (r₇.trans rfl)
    (hquiet (by decide : 12 ∉ [1, 4, 5, 10])) ⟨[], 0⟩
  rw [← o₆ 0 hone.symm, ← o₇ 0 hone.symm, ← o₈ 0 hone.symm] at hlocked
  have hblocked : Blocked c₈ 1 (.row (dollarsOf 2)) :=
    ⟨⟨_, _, r₈.trans rfl, _, rfl, .ensureBalance _ _⟩, 0, hone.symm, hlocked⟩
  have hreachable : Reachable Sample.deposits c₈ :=
    .step (.step (.step (.step (.step (.step (.step (.step .start s₁) s₂) s₃) s₄) s₅) s₆) s₇) s₈
  exact ⟨c₈, hreachable, hblocked, (commits_never_deadlock hreachable).1 ⟨1, _, _, r₈.trans rfl⟩⟩

end DoubleEntry.Database
