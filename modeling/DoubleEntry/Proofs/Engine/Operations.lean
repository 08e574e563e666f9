import DoubleEntry.Engine.Ledger
import DoubleEntry.Proofs.Store.Outcome
import Mathlib.Data.List.Induction

/-!
# Operations and runs of the ledger

An `Operation` is what can be asked of the ledger, with its arguments; a `Request` is an operation
together with what it takes from outside: the time, the identifiers made for it and the moment of
its store call. `StoreState.perform` runs one request on the tables in memory, and `stateAfter` any
number of them from empty tables on, so the states of the form `stateAfter rs` are those that the
ledger can reach.

A `Chronicle` keeps the commits beside the tables, with their times, in the order in which they were
made. Keeping it changes nothing else (`state_chronicleAfter`).
-/

namespace DoubleEntry

/-! ## Running programs -/

namespace Prog

variable {ε α β σ τ : Type}

theorem run_call (backend : Backend σ) (c : StoreCall)
    (next : Except StoreError c.Reply → Prog ε α) (s : σ) :
    (Prog.call c next).run backend s = match backend c s with
      | (.ok reply, s') => (next (.ok reply)).run backend s'
      | (.error (.error e), s') => (next (.error e)).run backend s'
      | (.error .overflow, s') => (.error .overflow, s') := by
  rcases h : backend c s with ⟨(e | _) | reply, s'⟩
  · simp only [run, h]
  · simp only [run, h]
  · simp only [run, h]

theorem run_bind (backend : Backend σ) (p : Prog ε α) (f : α → Prog ε β) (s : σ) :
    (p >>= f).run backend s = match p.run backend s with
      | (.ok a, s') => (f a).run backend s'
      | (.error e, s') => (.error e, s') := by
  show (p.bind f).run backend s = _
  induction p generalizing s with
  | done result => cases result <;> rfl
  | call c next ih =>
    show (Prog.call c fun reply => (next reply).bind f).run backend s = _
    rw [run_call, run_call]
    split
    · exact ih _ _
    · exact ih _ _
    · rfl

/-- What every call preserves, every program preserves. -/
theorem run_invariant {backend : Backend σ} {I : σ → Prop}
    (hcall : ∀ c s, I s → I (backend c s).2) (p : Prog ε α) {s : σ} (hs : I s) :
    I (p.run backend s).2 := by
  induction p generalizing s with
  | done result => exact hs
  | call c next ih =>
    have h := hcall c s hs
    rw [run_call]
    split
    · next heq => rw [heq] at h; exact ih _ h
    · next heq => rw [heq] at h; exact ih _ h
    · next heq => rw [heq] at h; exact h

/-- A backend seen through a view of its states runs every program alike. -/
theorem run_view {backend : Backend σ} {seen : Backend τ} (view : σ → τ)
    (hcall : ∀ c s, seen c (view s) = ((backend c s).1, view (backend c s).2)) (p : Prog ε α)
    (s : σ) : p.run seen (view s) = ((p.run backend s).1, view (p.run backend s).2) := by
  induction p generalizing s with
  | done result => rfl
  | call c next ih =>
    rw [run_call, run_call, hcall]
    generalize backend c s = r
    obtain ⟨result, s'⟩ := r
    cases result with
    | ok reply => exact ih _ _
    | error f =>
      cases f with
      | error e => exact ih _ _
      | overflow => rfl

end Prog

/-! ## Operations -/

namespace Ledger

/-- What can be asked of the ledger. -/
inductive Operation where
  | createJournal (new : NewJournal)
  | findJournal (id : JournalId)
  | updateJournal (id : JournalId) (u : JournalUpdate)
  | createAccount (new : NewAccount)
  | findAccount (id : AccountId)
  | findAccountByCode (code : String)
  | updateAccount (id : AccountId) (u : AccountUpdate)
  | createTemplate (new : NewTxTemplate)
  | findTemplate (code : String)
  | post (templateCode : String) (supplied : Params)
  | void (id : TransactionId)
  | findTransaction (id : TransactionId)
  | findTransactionByExternalId (x : String)
  | accountBalance (account : AccountId) (journal : JournalId) (currency : Currency)
  | listAccountEntries (account : AccountId) (after : Option EntryCursor) (limit : UInt64)
  | outboxAfter (after limit : UInt64)

/-- What an operation comes out with. -/
def Operation.Result : Operation → Type
  | .createJournal _ => Journal
  | .findJournal _ => Journal
  | .updateJournal _ _ => Journal
  | .createAccount _ => Account
  | .findAccount _ => Account
  | .findAccountByCode _ => Account
  | .updateAccount _ _ => Account
  | .createTemplate _ => TxTemplate
  | .findTemplate _ => TxTemplate
  | .post _ _ => Transaction
  | .void _ => Transaction
  | .findTransaction _ => Transaction
  | .findTransactionByExternalId _ => Transaction
  | .accountBalance _ _ _ => AccountBalance
  | .listAccountEntries _ _ _ => EntryPage
  | .outboxAfter _ _ => List OutboxRecord

/-- The program of an operation, with the time and the identifiers made for it. -/
def Operation.action (stamp : Stamp) : (o : Operation) → Action o.Result
  | .createJournal new => Ledger.createJournal new stamp.now
  | .findJournal id => Ledger.findJournal id
  | .updateJournal id u => Ledger.updateJournal id u stamp.now
  | .createAccount new => Ledger.createAccount new stamp.now
  | .findAccount id => Ledger.findAccount id
  | .findAccountByCode code => Ledger.findAccountByCode code
  | .updateAccount id u => Ledger.updateAccount id u stamp.now
  | .createTemplate new => Ledger.createTemplate new stamp.now
  | .findTemplate code => Ledger.findTemplate code
  | .post templateCode supplied => Ledger.post templateCode supplied stamp
  | .void id => Ledger.void id stamp
  | .findTransaction id => Ledger.findTransaction id
  | .findTransactionByExternalId x => Ledger.findTransactionByExternalId x
  | .accountBalance account journal currency => Ledger.accountBalance account journal currency
  | .listAccountEntries account after limit => Ledger.listAccountEntries account after limit
  | .outboxAfter after limit => Ledger.outboxAfter after limit

/-- An operation with what it takes from outside. -/
structure Request where
  operation : Operation
  stamp : Stamp
  moment : Moment

end Ledger

open Ledger

/-! ## Runs -/

/-- What a request comes out with, and the tables after it. -/
def StoreState.perform (s : StoreState) (r : Request) :
    Except (Failure EngineError) r.operation.Result × StoreState :=
  (r.operation.action r.stamp).run (StoreState.run r.moment) s

/-- The tables after any number of requests, whether they succeed or not. -/
def stateAfter (requests : List Request) : StoreState :=
  requests.foldl (fun s r => (s.perform r).2) .empty

/-- A transaction with the time at which it was committed. -/
structure Commit where
  time : Timestamp
  transaction : Transaction

/-- The tables with the commits made so far, oldest first. -/
structure Chronicle where
  state : StoreState
  commits : List Commit

namespace Chronicle

/-- Nothing stored and nothing committed. -/
def empty : Chronicle := ⟨.empty, []⟩

/-- The commit made by a call that comes out with a result. -/
def commitOf (m : Moment) : (c : StoreCall) → StoreResult c.Reply → List Commit
  | .commitTransaction t, .ok _ => [⟨m.now, t⟩]
  | _, _ => []

/-- Answer a call as the tables do, and note the commit it makes. -/
def run (m : Moment) : Backend Chronicle := fun c h =>
  let (result, s) := StoreState.run m c h.state
  (result, ⟨s, h.commits ++ commitOf m c result⟩)

/-- What a request comes out with, and the chronicle after it. -/
def perform (h : Chronicle) (r : Request) :
    Except (Failure EngineError) r.operation.Result × Chronicle :=
  (r.operation.action r.stamp).run (Chronicle.run r.moment) h

theorem perform_state (h : Chronicle) (r : Request) :
    h.state.perform r = ((h.perform r).1, (h.perform r).2.state) :=
  Prog.run_view Chronicle.state (fun _ _ => rfl) _ h

end Chronicle

/-- The chronicle after any number of requests. -/
def chronicleAfter (requests : List Request) : Chronicle :=
  requests.foldl (fun h r => (h.perform r).2) .empty

/-- The commits of any number of requests, oldest first. -/
def commitsAfter (requests : List Request) : List Commit := (chronicleAfter requests).commits

theorem chronicleAfter_concat (requests : List Request) (r : Request) :
    chronicleAfter (requests ++ [r]) = ((chronicleAfter requests).perform r).2 := by
  unfold chronicleAfter
  rw [List.foldl_append]
  rfl

theorem stateAfter_concat (requests : List Request) (r : Request) :
    stateAfter (requests ++ [r]) = ((stateAfter requests).perform r).2 := by
  unfold stateAfter
  rw [List.foldl_append]
  rfl

/-- The chronicle tells of the same tables. -/
theorem state_chronicleAfter (requests : List Request) :
    (chronicleAfter requests).state = stateAfter requests := by
  induction requests using List.reverseRecOn with
  | nil => rfl
  | append_singleton requests r ih =>
    rw [chronicleAfter_concat, stateAfter_concat, ← ih, Chronicle.perform_state]

/-- What holds at the beginning and is preserved by every request holds after any number. -/
theorem chronicleAfter_invariant {I : Chronicle → Prop} (hempty : I .empty)
    (hstep : ∀ h r, I h → I (Chronicle.perform h r).2) (requests : List Request) :
    I (chronicleAfter requests) := by
  induction requests using List.reverseRecOn with
  | nil => exact hempty
  | append_singleton requests r ih =>
    rw [chronicleAfter_concat]
    exact hstep _ r ih

/-! ## Runs of calls -/

/-- The chronicle after more calls. -/
def Chronicle.runAll (h : Chronicle) (calls : List (Moment × StoreCall)) : Chronicle :=
  calls.foldl (fun h p => (Chronicle.run p.1 p.2 h).2) h

/-- The chronicle after any store calls, of whatever programs and in whatever order. -/
def chronicleOf (calls : List (Moment × StoreCall)) : Chronicle :=
  calls.foldl (fun h p => (Chronicle.run p.1 p.2 h).2) .empty

theorem chronicleOf_concat (calls : List (Moment × StoreCall)) (m : Moment) (c : StoreCall) :
    chronicleOf (calls ++ [(m, c)]) = (Chronicle.run m c (chronicleOf calls)).2 := by
  unfold chronicleOf
  rw [List.foldl_append]
  rfl

/-- What holds at the beginning and is preserved by every call holds after any calls. -/
theorem chronicleOf_invariant {I : Chronicle → Prop} (hempty : I .empty)
    (hcall : ∀ m c h, I h → I (Chronicle.run m c h).2) (calls : List (Moment × StoreCall)) :
    I (chronicleOf calls) := by
  induction calls using List.reverseRecOn with
  | nil => exact hempty
  | append_singleton calls p ih =>
    rw [chronicleOf_concat]
    exact hcall _ _ _ ih

/-- Requests make calls. -/
theorem exists_chronicleOf_eq (requests : List Request) :
    ∃ calls, chronicleOf calls = chronicleAfter requests := by
  refine chronicleAfter_invariant (I := fun h => ∃ calls, chronicleOf calls = h) ⟨[], rfl⟩
    (fun h r hcalls => ?_) requests
  refine Prog.run_invariant (I := fun h => ∃ calls, chronicleOf calls = h) ?_ _ hcalls
  rintro c _ ⟨calls, rfl⟩
  exact ⟨calls ++ [(r.moment, c)], chronicleOf_concat calls r.moment c⟩

/-! ## A sample ledger

Accounts under one journal and a template that moves an amount between two of them. Statements with
hypotheses are shown on it to say something. -/

namespace Sample

def uuid (n : Nat) : Uuid := ⟨BitVec.ofNat 128 n⟩

def now : Timestamp := ⟨⟨2024, 1, 1, by decide⟩, 0, 0, by decide, by decide⟩

/-- A moment whose record identifiers are numbered from `n`. -/
def moment (n : Nat) : Moment := ⟨now, fun i => uuid (n + i)⟩

def journal (n : Nat) : Journal := ⟨⟨uuid n⟩, "General", none, none, now, now⟩

/-- A request whose fresh identifiers are numbered from `n`. -/
def request (n : Nat) (o : Operation) : Request :=
  ⟨o, ⟨now, ⟨uuid n⟩, fun i => ⟨uuid (n + i)⟩⟩, ⟨now, fun i => uuid (n + i)⟩⟩

def dollar : Currency := ⟨"USD", by decide⟩

/-- The settled dollars of an account. -/
def dollarsOf (n : Nat) : BalanceKey := ⟨⟨uuid n⟩, ⟨uuid 1⟩, dollar, .settled⟩

def account (n : Nat) (code : String) : NewAccount := ⟨⟨uuid n⟩, code, code, .debit, none, ∅⟩

/-- Debit one account and credit another, in dollars. -/
def transferTemplate : NewTxTemplate where
  id := ⟨uuid 9⟩
  code := "TRANSFER"
  description := none
  params := [⟨"debit", .uuid, none, none⟩, ⟨"credit", .uuid, none, none⟩,
    ⟨"amount", .decimal, none, none⟩, ⟨"key", .string, none, none⟩]
  transaction := ⟨"uuid('00000000-0000-0000-0000-000000000001')", "date('2024-01-01')", none,
    some "params.key", none, none⟩
  entries := [⟨"IN", "params.debit", "'USD'", .debit, .settled, "params.amount", none⟩,
    ⟨"OUT", "params.credit", "'USD'", .credit, .settled, "params.amount", none⟩]
  metadata := none

/-- The parameters for moving an amount, given by coefficient and scale. -/
def transferParams (debit credit : Nat) (coeff : Int) (scale : Nat) (key : String) : Params :=
  .ofList [("amount", .decimal ((Decimal.make? coeff scale).getD .zero)),
    ("credit", .uuid (uuid credit)), ("debit", .uuid (uuid debit)), ("key", .string key)]

def transfer (debit credit : Nat) (coeff : Int) (scale : Nat) (key : String) : Operation :=
  .post "TRANSFER" (transferParams debit credit coeff scale key)

/-- A ledger with three accounts and nothing posted. -/
def opened : List Request :=
  [request 10 (.createJournal ⟨⟨uuid 1⟩, "General", none, none⟩),
    request 20 (.createAccount (account 2 "cash")),
    request 30 (.createAccount (account 3 "sales")),
    request 40 (.createAccount (account 4 "fees")),
    request 50 (.createTemplate transferTemplate)]

end Sample

end DoubleEntry
