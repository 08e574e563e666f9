import DoubleEntry.Proofs.Balance.Checked
import DoubleEntry.Proofs.Engine.WellFormed
import DoubleEntry.Proofs.Uuid

/-!
# Overflows that a commit can meet

A commit adds up the entries of its transaction key by key, and then adds each delta to the row of
its key. An overflow at either place is reported as a broken invariant. The first place is safe:
every transaction that an operation hands over has passed the balance check, or is the reversal of
one that has, and so has its deltas. What is left to overflow are the stored totals.

Main statement: `deltas_never_overflow`.
-/

namespace DoubleEntry

open Ledger OrdMap

/-! ## Broken invariants -/

namespace StoreState

variable {α β : Type} {s : StoreState} {m : Moment} {what : String}

/-- The result is not that an invariant would be broken. -/
def NoInvariant (r : StoreResult α) : Prop := ∀ what, r ≠ .error (.error (.invariant what))

theorem NoInvariant.bind {x : StoreResult β} {f : β → StoreResult α} (hx : NoInvariant x)
    (hf : ∀ b, NoInvariant (f b)) : NoInvariant (x >>= f) := by
  intro what h
  rcases bind_eq_error.mp h with hfail | ⟨b, -, hfail⟩
  · exact hx what hfail
  · exact hf b what hfail

theorem noInvariant_refuseIf {stands : Bool} {e : StoreError} (he : ∀ what, e ≠ .invariant what) :
    NoInvariant (refuseIf stands e) := by
  intro what h
  obtain ⟨-, hsame⟩ := refuseIf_eq_error h
  exact he what (Failure.error.inj hsame).symm

theorem noInvariant_append (s : StoreState) (m : Moment) (events : List LedgerEvent) :
    NoInvariant (s.append m events) := by
  intro what h
  cases eq_overflow_of_append h

theorem noInvariant_codesWith (s : StoreState) (j : Journal) : NoInvariant (s.codesWith j) := by
  intro what h
  unfold codesWith refuseIf at h
  split at h
  · cases h
  · split at h <;> cases h

theorem noInvariant_checkExternalId (s : StoreState) (t : Transaction) :
    NoInvariant (s.checkExternalId t) := by
  unfold checkExternalId
  split
  · intro what h
    cases h
  · exact noInvariant_refuseIf (by simp)

theorem noInvariant_checkReverses (s : StoreState) (t : Transaction) :
    NoInvariant (s.checkReverses t) := by
  unfold checkReverses
  split
  · intro what h
    cases h
  · exact (noInvariant_refuseIf (by simp)).bind fun _ => noInvariant_refuseIf (by simp)

/-- Only commits can break an invariant. -/
theorem noInvariant_answer {c : StoreCall} (hc : ∀ t, c ≠ .commitTransaction t) :
    NoInvariant (s.answer m c) := by
  cases c with
  | createJournal j =>
    exact (noInvariant_refuseIf (by simp)).bind fun _ =>
      (noInvariant_codesWith s j).bind fun _ => noInvariant_append _ m _
  | updateJournal j fields =>
    exact (noInvariant_refuseIf (by simp)).bind fun _ => noInvariant_append _ m _
  | createAccount a =>
    exact (noInvariant_refuseIf (by simp)).bind fun _ =>
      (noInvariant_refuseIf (by simp)).bind fun _ => noInvariant_append _ m _
  | updateAccount a fields =>
    exact (noInvariant_refuseIf (by simp)).bind fun _ => noInvariant_append _ m _
  | createTemplate t =>
    exact (noInvariant_refuseIf (by simp)).bind fun _ => noInvariant_append _ m _
  | commitTransaction t => exact absurd rfl (hc t)
  | _ => intro what h; cases h

/-- They do so before they write. -/
theorem planCommit_of_invariant {t : Transaction}
    (h : s.answer m (.commitTransaction t) = .error (.error (.invariant what))) :
    s.planCommit m.now t = .error (.error (.invariant what)) := by
  rcases bind_eq_error.mp h with hplan | ⟨rows, -, hrest⟩
  · exact hplan
  · refine absurd hrest ((noInvariant_append _ m _).bind (fun p what h => ?_) what)
    cases h

/-- What a commit reports as broken: that it has no deltas, or that one of them does not fit on top
of the row of its key. -/
theorem planCommit_eq_invariant {now : Timestamp} {t : Transaction}
    (h : s.planCommit now t = .error (.error (.invariant what))) :
    (∃ e, deltas t.entries = .error e) ∨
      ∃ ds, deltas t.entries = .ok ds ∧ ∃ d ∈ ds, ∃ e,
        applyDelta (s.balances.get? d.key) d t.id now = .error (.error e) ∧
        what = s!"balance {d.key.accountId}: {e.message}" := by
  rcases bind_eq_error.mp h with hdeltas | ⟨ds, hdeltas, h⟩
  · cases hds : deltas t.entries with
    | ok ds =>
      rw [hds] at hdeltas
      cases hdeltas
    | error e => exact Or.inl ⟨e, rfl⟩
  · refine Or.inr ⟨ds, lift_eq_ok.mp hdeltas, ?_⟩
    rcases bind_eq_error.mp h with hfail | ⟨_, -, h⟩
    · exact absurd hfail (noInvariant_checkExternalId s t what)
    rcases bind_eq_error.mp h with hfail | ⟨_, -, h⟩
    · exact absurd hfail (noInvariant_checkReverses s t what)
    obtain ⟨d, hd, hrow⟩ := exists_mem_of_mapM_eq_error h
    refine ⟨d, hd, ?_⟩
    unfold nextBalance at hrow
    cases happly : applyDelta (s.balances.get? d.key) d t.id now with
    | ok b =>
      rw [happly] at hrow
      cases hrow
    | error f =>
      rw [happly] at hrow
      cases f with
      | overflow => cases hrow
      | error e =>
        cases hrow
        exact ⟨e, rfl, rfl⟩

end StoreState

/-! ## Missing deltas -/

/-- The failure of a commit that could not compute its deltas. -/
def StoreError.NoDeltas (e : StoreError) : Prop :=
  ∃ text, e = .invariant ("balance delta: " ++ text)

/-- The same as an operation reports it. -/
def EngineError.NoDeltas (e : EngineError) : Prop :=
  ∃ text, e = .invariantViolation ("balance delta: " ++ text)

/-- An identifier has a digit where the other text has the third letter of `delta`. -/
theorem balanceText_ne_deltaText (id : AccountId) (message text : String) :
    s!"balance {id}: {message}" ≠ "balance delta: " ++ text := by
  intro h
  have hchars : "balance ".toList ++ (id.uuid.chars ++ (": ".toList ++ message.toList)) =
      "balance delta: ".toList ++ text.toList := by
    have htexts := congrArg String.toList h
    simpa [String.toList_append, toString] using htexts
  obtain ⟨a, _, _, _, _, hid, ha, -⟩ := id.uuid.chars_eq
  have hletter := congrArg (fun cs : List Char => cs[10]?) hchars
  simp [hid, ha, List.getElem?_append] at hletter
  have hdigit : (Uuid.hexValue? 'l').isSome = true := by
    refine Uuid.isSome_of_getElem?_chars (u := id.uuid) (i := 2) (by decide) ?_
    rw [hid]
    simp [ha, hletter, List.getElem?_append]
  exact absurd hdigit (by decide)

theorem unitsText_ne_deltaText (added total text : String) :
    s!"units overflow adding {added} to {total}" ≠ "balance delta: " ++ text := by
  intro h
  have hfirst := congrArg (fun s : String => s.toList[0]?) h
  simp [String.toList_append, toString] at hfirst

/-- A transaction that has its deltas is never reported to have none: what is reported as broken is
that a delta does not fit on top of a row. -/
theorem StoreState.commit_overflow {s : StoreState} {m : Moment} {t : Transaction}
    {ds : List BalanceDelta} {what : String} (hds : deltas t.entries = .ok ds)
    (h : (StoreState.run m (.commitTransaction t) s).1 = .error (.error (.invariant what))) :
    ∃ d ∈ ds, ∃ e, applyDelta (s.balances.get? d.key) d t.id m.now = .error (.error e) ∧
      what = s!"balance {d.key.accountId}: {e.message}" := by
  have hplan := planCommit_of_invariant (run_fst_eq_error.mp h)
  rcases planCommit_eq_invariant hplan with ⟨e, he⟩ | ⟨ds', hds', hrow⟩
  · cases hds.symm.trans he
  · cases hds.symm.trans hds'
    exact hrow

theorem StoreState.not_noDeltas_of_run {s : StoreState} {m : Moment} {c : StoreCall}
    {e : StoreError} (hc : ∀ t, c = .commitTransaction t → ∃ ds, deltas t.entries = .ok ds)
    (h : (StoreState.run m c s).1 = .error (.error e)) : ¬ e.NoDeltas := by
  rintro ⟨text, rfl⟩
  by_cases hcommit : ∃ t, c = .commitTransaction t
  · obtain ⟨t, rfl⟩ := hcommit
    obtain ⟨ds, hds⟩ := hc t rfl
    obtain ⟨d, -, e, -, htext⟩ := commit_overflow hds h
    exact balanceText_ne_deltaText _ _ _ htext.symm
  · exact noInvariant_answer (not_exists.mp hcommit) _ (run_fst_eq_error.mp h)

theorem EngineError.not_noDeltas_ofValue (e : ValueError) : ¬ (ofValue e).NoDeltas := by
  rintro ⟨text, h⟩
  cases e with
  | unitsOverflow total added =>
    exact unitsText_ne_deltaText (toString added) (toString total) text
      (EngineError.invariantViolation.inj h)
  | _ => cases h

theorem EngineError.not_noDeltas_ofPosting (e : PostingError) : ¬ (ofPosting e).NoDeltas := by
  cases e with
  | value e => exact not_noDeltas_ofValue e
  | _ =>
    rintro ⟨text, h⟩
    cases h

theorem EngineError.not_noDeltas_ofStore {e : StoreError} (he : ¬ e.NoDeltas) :
    ¬ (ofStore e).NoDeltas := by
  rintro ⟨text, h⟩
  cases e with
  | invariant what =>
    cases h
    exact he ⟨text, rfl⟩
  | _ => cases h

/-! ## Failures passed on -/

namespace Ledger

variable {α β : Type}

/-- The program reports missing deltas only where one of its calls does. -/
inductive PassesOn : Action α → Prop
  | done {result : Except (Failure EngineError) α}
    (h : ∀ e, result = .error (.error e) → ¬ e.NoDeltas) : PassesOn (.done result)
  | call {c : StoreCall} {next : Except StoreError c.Reply → Action α}
    (h : ∀ reply, (∀ e, reply = .error e → ¬ e.NoDeltas) → PassesOn (next reply)) :
    PassesOn (.call c next)

namespace PassesOn

theorem ok (a : α) : PassesOn (.done (.ok a)) := .done nofun

theorem fail {e : EngineError} (he : ¬ e.NoDeltas) : PassesOn (α := α) (.fail e) := by
  refine .done fun e' h => ?_
  cases h
  exact he

theorem bind {p : Action β} {f : β → Action α} (hp : PassesOn p) (hf : ∀ b, PassesOn (f b)) :
    PassesOn (p >>= f) := by
  show PassesOn (p.bind f)
  induction hp with
  | @done result h =>
    cases result with
    | ok b => exact hf b
    | error e => exact .done fun e' he => h e' (congrArg _ (Except.error.inj he))
  | call _ ih => exact .call ih

theorem ofExcept {δ : Type} {g : δ → EngineError} (hg : ∀ d, ¬ (g d).NoDeltas) (x : Except δ α) :
    PassesOn (Prog.ofExcept g x) := by
  cases x with
  | ok a => exact .ok a
  | error d => exact .fail (hg d)

theorem ofValue (x : Except ValueError α) : PassesOn (Prog.ofExcept .ofValue x) :=
  .ofExcept EngineError.not_noDeltas_ofValue x

theorem ofPosting (x : Except PostingError α) : PassesOn (Prog.ofExcept .ofPosting x) :=
  .ofExcept EngineError.not_noDeltas_ofPosting x

theorem ask (c : StoreCall) : PassesOn (Ledger.ask c) := by
  refine .call fun reply h => ?_
  cases reply with
  | ok a => exact .ok a
  | error e => exact .fail (EngineError.not_noDeltas_ofStore (h e rfl))

/-- A call that is made last. -/
theorem write (c : StoreCall) (a : α) : PassesOn (do let _ ← Ledger.ask c; pure a) :=
  .bind (.ask c) fun _ => .ok a

theorem found (what : String) (o : Option α) : PassesOn (Ledger.found what o) := by
  cases o with
  | some a => exact .ok a
  | none => exact .fail nofun

/-- A lookup. -/
theorem find (c : StoreCall) (what : String) (o : c.Reply → Option α) :
    PassesOn (Ledger.ask c >>= fun reply => Ledger.found what (o reply)) :=
  .bind (.ask c) fun _ => .found what _

theorem commit (t : Transaction) : PassesOn (Ledger.commit t) := by
  refine .call fun reply h => ?_
  cases reply with
  | ok committed => exact .ok _
  | error e =>
    cases e with
    | duplicateExternalId what =>
      show PassesOn (Ledger.ask (.findTransactionByExternalId (t.externalId.getD "")) >>= _)
      refine .bind (.ask _) fun winner => ?_
      cases winner with
      | some winner => exact .ok winner
      | none => exact .fail nofun
    | _ => exact .fail (EngineError.not_noDeltas_ofStore (h _ rfl))

theorem ensureAccounts (ids : List AccountId) : PassesOn (Ledger.ensureAccounts ids) := by
  refine .bind (.ask _) fun accounts => ?_
  split
  · exact .fail nofun
  · exact .ok ()

theorem postNew (template : TxTemplate) (header : ResolvedHeader) (params : Params)
    (stamp : Stamp) : PassesOn (Ledger.postNew template header params stamp) :=
  .bind (.find _ _ _) fun _ => .bind (.ofPosting _) fun _ => .bind (.ensureAccounts _) fun _ =>
    .bind (.ofPosting _) fun t => .commit t

theorem post (code : String) (supplied : Params) (stamp : Stamp) :
    PassesOn (Ledger.post code supplied stamp) := by
  refine .bind (.ask _) fun template => ?_
  cases template with
  | none => exact .fail nofun
  | some template =>
    refine .bind (.ofPosting _) fun bound => .bind (.ofPosting _) fun header => .bind ?_ fun o => ?_
    · cases header.externalId with
      | none => exact .ok none
      | some x => exact .ask _
    · cases o with
      | some stored => exact .ok stored
      | none => exact .postNew template header bound.params stamp

end PassesOn

theorem passesOn_action (stamp : Stamp) (o : Operation) : PassesOn (o.action stamp) := by
  cases o with
  | createJournal new => exact .bind (.ofValue _) fun _ => .write _ _
  | findJournal id => exact .find _ _ _
  | updateJournal id u =>
    refine .bind (.find _ _ _) fun _ => .bind (.ofValue _) fun p => ?_
    dsimp only
    split
    · exact .ok _
    · exact .write _ _
  | createAccount new => exact .bind (.ofValue _) fun _ => .write _ _
  | findAccount id => exact .find _ _ _
  | findAccountByCode code => exact .find _ _ _
  | updateAccount id u =>
    refine .bind (.find _ _ _) fun _ => .bind (.ofValue _) fun p => ?_
    dsimp only
    split
    · exact .ok _
    · exact .write _ _
  | createTemplate new => exact .bind (.ofPosting _) fun _ => .write _ _
  | findTemplate code => exact .find _ _ _
  | post code supplied => exact .post code supplied stamp
  | void id => exact .bind (.find _ _ _) fun target => .commit _
  | findTransaction id => exact .find _ _ _
  | findTransactionByExternalId x => exact .find _ _ _
  | accountBalance account journal currency =>
    exact .bind (.find _ _ _) fun _ => .bind (.ask _) fun _ => .ok _
  | listAccountEntries account after limit =>
    exact .bind (.find _ _ _) fun _ => .bind (.ask _) fun _ => .ok _
  | outboxAfter after limit => exact .ask _

end Ledger

/-! ## All operations -/

/-- What is vetted before a commit has deltas. -/
theorem StoreState.Vetted.exists_deltas {s : StoreState} {c : StoreCall} (h : s.Vetted c) :
    ∀ t, c = .commitTransaction t → ∃ ds, deltas t.entries = .ok ds := by
  rintro t rfl
  exact exists_deltas_of_checked h.1.balanced

/-- A program that vets its calls and passes on their failures never reports missing deltas. -/
theorem Ledger.PassesOn.meets {α : Type} {own : Stamp} {p : Action α} (hp : PassesOn p)
    {h : Chronicle} (hmeets : p.Meets targetsContract own (fun _ _ => True) h) :
    p.Meets targetsContract own
      (fun _ result => ∀ e, result = .error (.error e) → ¬ e.NoDeltas) h := by
  induction hp generalizing h with
  | done hresult => exact hresult
  | @call c next _ ih =>
    intro h' hrely hclosed
    obtain ⟨hvetted, hnext⟩ := hmeets h' hrely hclosed
    refine ⟨hvetted, fun m => ?_⟩
    have hnext := hnext m
    have hreply : ∀ e, (Chronicle.run m c h').1 = .error (.error e) → ¬ e.NoDeltas := fun e he =>
      StoreState.not_noDeltas_of_run (StoreState.Vetted.exists_deltas hvetted) he
    rcases hrun : Chronicle.run m c h' with ⟨(e | _) | reply, h''⟩ <;>
      simp only [hrun] at hnext hreply ⊢
    · refine ih (.error e) (fun e' he' => ?_) hnext
      cases he'
      exact hreply e rfl
    · exact nofun
    · exact ih (.ok reply) nofun hnext

theorem meets_passingOn (asked : List (Operation × Stamp)) (turns : List Turn) :
    (interleave asked turns).Meets targetsContract
      fun _ _ _ result => ∀ e, result = .error (.error e) → ¬ e.NoDeltas :=
  targetsContract_sound.meets_interleave StoreState.Closed.empty
    (fun _ _ _ _ _ _ _ hresult => hresult) (fun _ _ _ _ _ _ _ => trivial)
    (fun a _ => (passesOn_action a.2 a.1).meets (vets_action a.1)) turns

/-- The transaction that a program is about to commit. -/
def Prog.committing? {ε α : Type} : Prog ε α → Option Transaction
  | .call (.commitTransaction t) _ => some t
  | _ => none

theorem exists_deltas_of_committing {asked : List (Operation × Stamp)} {turns : List Turn} {i : Nat}
    {c : Caller} (hc : (interleave asked turns).callers[i]? = some c) {t : Transaction}
    (ht : c.rest.committing? = some t) : ∃ ds, deltas t.entries = .ok ds := by
  have hmeets := meets_passingOn asked turns
  have hcaller := hmeets.callers i c hc
  generalize c.rest = p at hcaller ht
  unfold Prog.committing? at ht
  split at ht
  · cases ht
    have hvetted : (interleave asked turns).chronicle.state.Vetted (.commitTransaction t) :=
      (hcaller _ (targetsContract_sound.refl _ _) hmeets.invariant).1
    exact hvetted.exists_deltas t rfl
  · cases ht

theorem not_noDeltas_of_done {asked : List (Operation × Stamp)} {turns : List Turn} {i : Nat}
    {c : Caller} (hc : (interleave asked turns).callers[i]? = some c) {e : EngineError}
    (he : c.rest = .done (.error (.error e))) : ¬ e.NoDeltas := by
  have hcaller := (meets_passingOn asked turns).callers i c hc
  rw [he] at hcaller
  exact hcaller e rfl

/-- What is assembled from materialized entries has deltas, and so has every reversal of it, of that
again, and so on. Hence a transaction that an operation is about to commit has deltas, whatever
operations are at work together and whatever turns they have taken; and whatever the state of the
store, an invariant that it reports as broken is that of a stored total to which a delta cannot be
added, never that deltas cannot be computed. No operation comes out with that error, at work with
others or requested after others. -/
theorem deltas_never_overflow :
    (∀ (source template : TxTemplate) params header entries stamp t stamps,
      source.materializeEntries params = .ok entries →
      Transaction.assemble template header entries stamp = .ok t →
      ∃ ds, deltas (t.reversals stamps).entries = .ok ds) ∧
    (∀ asked turns (i : Nat) c t, (interleave asked turns).callers[i]? = some c →
      c.rest.committing? = some t →
      ∃ ds, deltas t.entries = .ok ds ∧ ∀ s m what,
        (StoreState.run m (.commitTransaction t) s).1 = .error (.error (.invariant what)) →
        (∃ d ∈ ds, ∃ e, applyDelta (s.balances.get? d.key) d t.id m.now = .error (.error e) ∧
          what = s!"balance {d.key.accountId}: {e.message}") ∧
        ∀ text, what ≠ "balance delta: " ++ text) ∧
    (∀ asked turns (i : Nat) c text, (interleave asked turns).callers[i]? = some c →
      c.rest ≠ .done (.error (.error (.invariantViolation ("balance delta: " ++ text))))) ∧
    ∀ requests (r : Request) text, ((chronicleAfter requests).perform r).1 ≠
      .error (.error (.invariantViolation ("balance delta: " ++ text))) := by
  refine ⟨fun _ _ _ _ _ _ _ stamps hentries ht => exists_deltas_of_assembled hentries ht stamps,
    fun asked turns i c t hc ht => ?_, fun asked turns i c text hc hdone => ?_,
    fun requests r text hresult => ?_⟩
  · obtain ⟨ds, hds⟩ := exists_deltas_of_committing hc ht
    refine ⟨ds, hds, fun s m what hfail => ?_⟩
    obtain ⟨d, hd, e, happly, rfl⟩ := StoreState.commit_overflow hds hfail
    exact ⟨⟨d, hd, e, happly, rfl⟩, balanceText_ne_deltaText _ _⟩
  · exact not_noDeltas_of_done hc hdone ⟨text, rfl⟩
  · obtain ⟨asked, turns, i, hcaller⟩ := exists_turns_done requests r
    rw [hresult] at hcaller
    exact not_noDeltas_of_done hcaller rfl ⟨text, rfl⟩

/-- A transfer of the largest amount has deltas, as have its void and the void of that. A second one
does not fit on top of the first: the store reports so, and the operation passes it on. -/
theorem deltas_never_overflow_sample :
    let largest := fun key => Sample.transfer 3 2 79228162514264337593543950335 0 key
    let asked := askedBy (Sample.opened ++
      [Sample.request 100 (largest "a"), Sample.request 200 (largest "b")])
    let turns := Sample.turnsOf [0, 1, 2, 3, 4, 5, 5, 5, 5, 5, 6, 6, 6, 6]
    let stamps := [(Sample.request 300 (largest "")).stamp, (Sample.request 400 (largest "")).stamp]
    let what := "balance 00000000-0000-0000-0000-000000000002: units overflow adding " ++
      "79228162514264337593543950335 to 79228162514264337593543950335"
    (∃ (template : TxTemplate) (header : ResolvedHeader) (entries : List ResolvedEntry)
        (t : Transaction),
      template.materializeEntries
        (Sample.transferParams 3 2 79228162514264337593543950335 0 "a") = .ok entries ∧
      Transaction.assemble template header entries (Sample.request 100 (largest "a")).stamp =
        .ok t ∧
      ∃ ds, deltas (t.reversals stamps).entries = .ok ds) ∧
    ∃ (c : Caller) (t : Transaction) (ds : List BalanceDelta),
      (interleave asked turns).callers[6]? = some c ∧ c.rest.committing? = some t ∧
      deltas t.entries = .ok ds ∧
      (StoreState.run (Sample.moment 500) (.commitTransaction t)
        (interleave asked turns).chronicle.state).1 = .error (.error (.invariant what)) ∧
      (∃ d ∈ ds, ∃ e, applyDelta ((interleave asked turns).chronicle.state.balances.get? d.key) d
        t.id Sample.now = .error (.error e) ∧ what = s!"balance {d.key.accountId}: {e.message}") ∧
      ∀ text, c.rest ≠
        .done (.error (.error (.invariantViolation ("balance delta: " ++ text)))) := by
  intro largest asked turns stamps what
  refine ⟨?_, ?_⟩
  · let params := Sample.transferParams 3 2 79228162514264337593543950335 0 "a"
    obtain ⟨t, ht⟩ := exists_eq_ok (show (do
      let template ← Sample.transferTemplate.create Sample.now
      let entries ← template.materializeEntries params
      let header ← template.resolveHeader params
      Transaction.assemble template header entries
        (Sample.request 100 (largest "a")).stamp).isOk = true by decide +kernel)
    obtain ⟨template, -, ht⟩ := bind_eq_ok.mp ht
    obtain ⟨entries, hentries, ht⟩ := bind_eq_ok.mp ht
    obtain ⟨header, -, ht⟩ := bind_eq_ok.mp ht
    exact ⟨template, header, entries, t, hentries, ht,
      deltas_never_overflow.1 _ _ _ _ _ _ t stamps hentries ht⟩
  · have hfails : (((interleave asked turns).callers[6]?).bind fun c => c.rest.committing?).any
        (fun t => ((StoreState.run (Sample.moment 500) (.commitTransaction t)
          (interleave asked turns).chronicle.state).1.map fun _ => ()) =
            .error (.error (.invariant what))) = true := by
      decide +kernel
    obtain ⟨t, hcommitting, hreported⟩ := (Option.any_eq_true _ _).mp hfails
    obtain ⟨c, hc, ht⟩ := Option.bind_eq_some_iff.mp hcommitting
    have hwhat := map_eq_error.mp (of_decide_eq_true hreported)
    obtain ⟨ds, hds, hrow⟩ := deltas_never_overflow.2.1 asked turns 6 c t hc ht
    exact ⟨c, t, ds, hc, ht, hds, hwhat, (hrow _ _ what hwhat).1,
      fun text => deltas_never_overflow.2.2.1 asked turns 6 c text hc⟩

end DoubleEntry
