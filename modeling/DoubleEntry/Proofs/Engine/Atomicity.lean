import DoubleEntry.Proofs.Engine.Writes
import DoubleEntry.Proofs.Updates

/-!
# Operations are all or nothing

A request that fails leaves all tables and the outbox as they were, and one that changes anything
succeeds and tells of it in the outbox. Nothing at all is written by operations that only read, by
updates to what is stored already, and by a posting whose external identifier is taken.

Main statement: `StoreState.perform_atomic`. It is about `StoreState.run`, which makes changes in
place: that nothing is left behind rests on every check standing before the first write.
-/

namespace DoubleEntry

open Ledger

/-! ## Operations with nothing to write -/

/-- The operation only reads. -/
def Ledger.Operation.isRead : Operation → Bool
  | .findJournal _ => true
  | .findAccount _ => true
  | .findAccountByCode _ => true
  | .findTemplate _ => true
  | .findTransaction _ => true
  | .findTransactionByExternalId _ => true
  | .accountBalance _ _ _ => true
  | .listAccountEntries _ _ _ => true
  | .outboxAfter _ _ => true
  | _ => false

/-- The transaction stored under the external identifier of a posting, if there is one. -/
def StoreState.posted? (s : StoreState) (code : String) (supplied : Params) :
    Option Transaction := do
  let template ← s.templates.get? code
  let bound ← (template.bindParams supplied).toOption
  let header ← (template.resolveHeader bound.params).toOption
  let x ← header.externalId
  s.transactionByExternalId x

theorem StoreState.posted?_eq_some {s : StoreState} {code : String} {supplied : Params}
    {stored : Transaction} (h : s.posted? code supplied = some stored) :
    ∃ template bound header x, s.templates.get? code = some template ∧
      template.bindParams supplied = .ok bound ∧
      template.resolveHeader bound.params = .ok header ∧
      header.externalId = some x ∧ s.transactionByExternalId x = some stored := by
  obtain ⟨template, htemplate, h⟩ := Option.bind_eq_some_iff.mp h
  obtain ⟨bound, hbound, h⟩ := Option.bind_eq_some_iff.mp h
  obtain ⟨header, hheader, h⟩ := Option.bind_eq_some_iff.mp h
  obtain ⟨x, hx, hstored⟩ := Option.bind_eq_some_iff.mp h
  exact ⟨template, bound, header, x, htemplate, toOption_eq_some.mp hbound,
    toOption_eq_some.mp hheader, hx, hstored⟩

/-- The tables have all that the operation would write. -/
inductive StoreState.Idle (s : StoreState) : Operation → Prop
  | read {o : Operation} (h : o.isRead = true) : s.Idle o
  | updateJournal {id : JournalId} {u : JournalUpdate}
    (h : ∀ j, s.journals.get? id = some j → u.Idle j) : s.Idle (.updateJournal id u)
  | updateAccount {id : AccountId} {u : AccountUpdate}
    (h : ∀ a, s.accounts.get? id = some a → u.Idle a) : s.Idle (.updateAccount id u)
  | post {code : String} {supplied : Params} {stored : Transaction}
    (h : s.posted? code supplied = some stored) : s.Idle (.post code supplied)

theorem Writes.not_idle {stamp : Stamp} {s : StoreState} {o : Operation} {c : StoreCall}
    {result : o.Result} (h : Writes stamp s o c result) : ¬ s.Idle o := by
  intro hidle
  cases hidle with
  | read hread => cases h <;> cases hread
  | updateJournal hj =>
    cases h with
    | updateJournal hold hu hfields =>
      exact hfields ((Journal.fields_eq_nil_iff hu).mpr (hj _ hold))
  | updateAccount ha =>
    cases h with
    | updateAccount hold hu hfields =>
      exact hfields ((Account.fields_eq_nil_iff hu).mpr (ha _ hold))
  | post hposted =>
    obtain ⟨template, bound, header, x, ht, hb, hh, hx, hstored⟩ :=
      StoreState.posted?_eq_some hposted
    cases h with
    | post htemplate hbound hheader hnew =>
      cases ht.symm.trans htemplate
      cases hb.symm.trans hbound
      cases hh.symm.trans hheader
      rw [hnew x hx] at hstored
      cases hstored

/-! ## Requests -/

namespace StoreState

/-- A request leaves the tables as they are, or makes the one call of its operation. -/
theorem perform_cases (s : StoreState) (r : Request) :
    (s.perform r).2 = s ∨
      ∃ c reply s' result, Writes r.stamp s r.operation c result ∧
        s.answer r.moment c = .ok (reply, s') ∧ s.perform r = (.ok result, s') := by
  have hstate := Chronicle.perform_state ⟨s, []⟩ r
  rcases Chronicle.perform_cases ⟨s, []⟩ r with hsame | ⟨c, reply, s', result, hw, hanswer, hrun⟩
  · left
    rw [show s.perform r = _ from hstate, hsame]
  · right
    refine ⟨c, reply, s', result, hw, hanswer, ?_⟩
    rw [show s.perform r = _ from hstate, hrun]

/-- A posting whose external identifier is taken answers with who holds it. -/
theorem perform_posted {s : StoreState} {code : String} {supplied : Params} {stored : Transaction}
    (h : s.posted? code supplied = some stored) (stamp : Stamp) (m : Moment) :
    s.perform ⟨.post code supplied, stamp, m⟩ = (.ok stored, s) := by
  obtain ⟨template, bound, header, x, htemplate, hbound, hheader, hx, hstored⟩ := posted?_eq_some h
  refine perform_of_run ?_
  show (Ledger.post code supplied stamp).run (Chronicle.run m) ⟨s, []⟩ = _
  unfold Ledger.post
  rw [Prog.run_bind, Chronicle.run_ask_read rfl rfl]
  dsimp only
  rw [htemplate]
  dsimp only
  rw [hbound]
  show (Prog.ofExcept _ (template.resolveHeader bound.params) >>= _).run _ _ = _
  rw [hheader]
  show (alreadyPosted header.externalId >>= _).run _ _ = _
  rw [Prog.run_bind, run_alreadyPosted, hx, Option.bind_some]
  dsimp only
  rw [hstored]
  rfl

/-- Whatever is asked of the ledger, at any state: a failure leaves the state as it was; where the
state changes, the request has succeeded and the outbox has grown; where the tables have all that
the operation would write, the state stays as it is; and a posting that is stored already is
answered with the stored transaction. -/
theorem perform_atomic (s : StoreState) (r : Request) :
    (∀ f, (s.perform r).1 = .error f → (s.perform r).2 = s) ∧
    ((s.perform r).2 ≠ s →
      (∃ result, (s.perform r).1 = .ok result) ∧ s.Grows (s.perform r).2) ∧
    (s.Idle r.operation → (s.perform r).2 = s) ∧
    (∀ code supplied stored, s.posted? code supplied = some stored →
      s.perform ⟨.post code supplied, r.stamp, r.moment⟩ = (.ok stored, s)) := by
  refine ⟨fun f hf => ?_, fun hne => ?_, fun hidle => ?_, fun _ _ _ h => perform_posted h _ _⟩
  · rcases perform_cases s r with hsame | ⟨_, _, _, _, _, _, hrun⟩
    · exact hsame
    · rw [hrun] at hf
      cases hf
  · rcases perform_cases s r with hsame | ⟨c, reply, s', result, _, hanswer, hrun⟩
    · exact absurd hsame hne
    · rw [hrun] at hne ⊢
      exact ⟨⟨result, rfl⟩, (grows_of_answer hanswer).resolve_left hne⟩
  · rcases perform_cases s r with hsame | ⟨_, _, _, _, hw, _, _⟩
    · exact hsame
    · exact absurd hidle hw.not_idle

/-- On the sample ledger with one transfer: a void of nothing fails, another transfer changes the
tables, reading does not, and the transfer made again is answered with the one stored. -/
theorem perform_atomic_sample :
    let s := stateAfter (Sample.opened ++ [Sample.request 100 (Sample.transfer 2 3 250 2 "a")])
    let again := Sample.transfer 2 3 250 2 "a"
    let next := Sample.request 200 (Sample.transfer 3 4 125 3 "b")
    let unknown := Sample.request 300 (.void ⟨Sample.uuid 0⟩)
    (∃ f, (s.perform unknown).1 = .error f ∧ (s.perform unknown).2 = s) ∧
      (s.perform next).2 ≠ s ∧ s.Grows (s.perform next).2 ∧
      (s.perform (Sample.request 400 (.outboxAfter 0 10))).2 = s ∧
      ∃ stored, s.perform (Sample.request 500 again) = (.ok stored, s) := by
  intro s again next unknown
  obtain ⟨f, hf⟩ : ∃ f, (s.perform unknown).1 = .error f := exists_eq_error (by decide +kernel)
  have hne : (s.perform next).2 ≠ s := by
    intro h
    have hlength := congrArg (fun s => s.outbox.length) h
    revert hlength
    decide +kernel
  obtain ⟨stored, hstored⟩ : ∃ stored,
      s.posted? "TRANSFER" (Sample.transferParams 2 3 250 2 "a") = some stored :=
    Option.isSome_iff_exists.mp (by decide +kernel)
  exact ⟨⟨f, hf, (perform_atomic s unknown).1 f hf⟩, hne, ((perform_atomic s next).2.1 hne).2,
    (perform_atomic s (Sample.request 400 (.outboxAfter 0 10))).2.2.1 (.read rfl),
    stored, (perform_atomic s (Sample.request 500 again)).2.2.2 _ _ stored hstored⟩

end StoreState

end DoubleEntry
