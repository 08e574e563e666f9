import DoubleEntry.Proofs.Engine.Committed
import DoubleEntry.Proofs.Engine.Contract

/-!
# Postings that race

Two postings with one external identifier may both find that it is free. The store lets one of them
commit, and the other looks up who was faster. So whoever takes which turn, there is one transaction
for each external identifier, and whoever is answered at all is answered with it.

What a posting has found out holds on: templates stay as they are, and so does every commit. What it
has not found may be there by now, other than its own transaction, since no one else has its
identifier. This is `postingContract`, and `meets_post` that a posting keeps to it.

Main statement: `posts_once`.
-/

namespace DoubleEntry

open Ledger OrdMap

/-! ## New transactions carry their stamp -/

namespace Transaction

theorem entrySequence_eq_ok {index : Nat} {sequence : UInt32}
    (h : entrySequence index = .ok sequence) : index + 1 < pow2 32 := by
  unfold entrySequence at h
  split at h
  · assumption
  · cases h

theorem assemble_stampedBy {template : TxTemplate} {header : ResolvedHeader}
    {entries : List ResolvedEntry} {stamp : Stamp} {t : Transaction}
    (h : assemble template header entries stamp = .ok t) :
    t.StampedBy stamp ∧ t.externalId = header.externalId := by
  obtain ⟨assembled, hassembled, h⟩ := bind_eq_ok.mp h
  obtain ⟨hlength, hentries⟩ := List.forall₂_iff_get.mp (forall₂_of_mapM_eq_ok hassembled)
  cases h
  have hentry : ∀ i e, assembled[i]? = some e → i + 1 < pow2 32 ∧ e.id = stamp.entryId i ∧
      e.transactionId = stamp.transactionId := by
    intro i e he
    obtain ⟨hi, rfl⟩ := List.getElem?_eq_some_iff.mp he
    have hmade := hentries i (hlength ▸ hi) hi
    simp only [List.get_eq_getElem, List.getElem_zipIdx, Nat.zero_add] at hmade
    obtain ⟨sequence, hsequence, hmade⟩ := bind_eq_ok.mp hmade
    have hmade := Except.ok.inj hmade
    rw [← hmade]
    exact ⟨entrySequence_eq_ok hsequence, rfl, rfl⟩
  refine ⟨⟨rfl, fun i e he => (hentry i e he).2, ?_⟩, rfl⟩
  by_cases hnone : assembled.length = 0
  · show assembled.length < pow2 32
    rw [hnone]
    decide
  · have hlast : assembled.length - 1 < assembled.length := by omega
    have hshort := (hentry _ _ (List.getElem?_eq_getElem hlast)).1
    show assembled.length < pow2 32
    omega

theorem reversal_stampedBy {t : Transaction} (hshort : t.entries.length < pow2 32) (stamp : Stamp) :
    (t.reversal stamp).StampedBy stamp := by
  refine ⟨rfl, fun i e he => ?_, ?_⟩
  · obtain ⟨p, hp, rfl⟩ := Option.map_eq_some_iff.mp (List.getElem?_map.symm.trans he)
    rw [List.getElem?_zipIdx, Nat.zero_add] at hp
    obtain ⟨e₀, -, rfl⟩ := Option.map_eq_some_iff.mp hp
    exact ⟨rfl, rfl⟩
  · show (List.map _ _).length < _
    rwa [List.length_map, List.length_zipIdx]

end Transaction

/-! ## Who holds an external identifier -/

namespace StoreState

variable {m : Moment} {s : StoreState} {t : Transaction}

/-- A commit fails for a duplicate only if its external identifier is taken. -/
theorem taken_of_commit_eq_duplicate {what : String}
    (h : s.commit m t = .error (.error (.duplicateExternalId what))) :
    ∃ x, t.externalId = some x ∧ s.externalIds.contains x = true := by
  rcases bind_eq_error.mp h with hplan | ⟨rows, -, h⟩
  · rcases bind_eq_error.mp hplan with hdeltas | ⟨ds, -, hplan⟩
    · cases hds : deltas t.entries with
      | ok ds => rw [hds] at hdeltas; cases hdeltas
      | error e => rw [hds] at hdeltas; cases hdeltas
    rcases bind_eq_error.mp hplan with hexternal | ⟨_, -, hplan⟩
    · unfold checkExternalId at hexternal
      cases hx : t.externalId with
      | none => rw [hx] at hexternal; cases hexternal
      | some x =>
        rw [hx] at hexternal
        exact ⟨x, rfl, (refuseIf_eq_error hexternal).1⟩
    rcases bind_eq_error.mp hplan with hreverses | ⟨_, -, hplan⟩
    · unfold checkReverses at hreverses
      split at hreverses
      · cases hreverses
      · rcases bind_eq_error.mp hreverses with hmissing | ⟨_, -, hvoided⟩
        · cases (refuseIf_eq_error hmissing).2
        · cases (refuseIf_eq_error hvoided).2
    · obtain ⟨d, -, hrow⟩ := exists_mem_of_mapM_eq_error hplan
      unfold nextBalance at hrow
      cases happly : applyDelta (s.balances.get? d.key) d t.id m.now with
      | ok b => rw [happly] at hrow; cases hrow
      | error f => rw [happly] at hrow; cases f <;> cases hrow
  · rcases bind_eq_error.mp h with happend | ⟨p, -, h⟩
    · cases eq_overflow_of_append happend
    · cases h

end StoreState

/-! ## The contract of postings -/

namespace Chronicle

/-- Templates stay as they are, and commits are added at the end. -/
structure Grows (h h' : Chronicle) : Prop where
  templates : ∀ code t, h.state.templates.get? code = some t →
    h'.state.templates.get? code = some t
  committed : h.committed <+: h'.committed

namespace Grows

theorem refl (h : Chronicle) : h.Grows h := ⟨fun _ _ ht => ht, List.prefix_refl _⟩

theorem trans {h₁ h₂ h₃ : Chronicle} (h : h₁.Grows h₂) (h' : h₂.Grows h₃) : h₁.Grows h₃ :=
  ⟨fun code t ht => h'.templates code t (h.templates code t ht), h.committed.trans h'.committed⟩

theorem mem {h h' : Chronicle} (hgrows : h.Grows h') {t : Transaction} (ht : t ∈ h.committed) :
    t ∈ h'.committed := hgrows.committed.subset ht

end Grows

/-- A call commits its transaction, or no one's. -/
theorem committed_run (m : Moment) (c : StoreCall) (h : Chronicle) :
    (Chronicle.run m c h).2.committed = h.committed ∨
      ∃ t, c = .commitTransaction t ∧ (Chronicle.run m c h).2.committed = h.committed ++ [t] := by
  rcases run_effect m c h with hsame | ⟨s₁, events, records, hs₁, -, hrun⟩
  · exact Or.inl (congrArg committed hsame)
  · rw [hrun]
    cases hs₁ with
    | commit hplan => exact Or.inr ⟨_, rfl, List.map_append⟩
    | _ =>
      left
      exact List.map_append.trans (List.append_nil _)

theorem grows_run (m : Moment) (c : StoreCall) (h : Chronicle) :
    h.Grows (Chronicle.run m c h).2 := by
  refine ⟨fun code t ht => ?_, ?_⟩
  · rcases run_effect m c h with hsame | ⟨s₁, events, records, hs₁, -, hrun⟩
    · rwa [hsame]
    · rw [hrun]
      exact hs₁.get?_templates ht
  · rcases committed_run m c h with hsame | ⟨t, -, hnew⟩
    · exact hsame ▸ List.prefix_refl _
    · exact hnew ▸ List.prefix_append _ _

/-- Nothing has been committed under the stamp. -/
def Unused (own : Stamp) (h : Chronicle) : Prop :=
  ∀ t ∈ h.committed, t.id ≠ own.transactionId

end Chronicle

/-- Who has a stamp commits at most one transaction, and one that carries the stamp. -/
def postingContract (stamps : List Stamp) : Contract where
  invariant := Chronicle.Kept stamps
  rely own h h' := h.Grows h' ∧ (h.Unused own → h'.Unused own)
  allowed own h c := ∀ t, c = .commitTransaction t →
    own ∈ stamps ∧ t.StampedBy own ∧ h.Unused own
  apart a b := a.transactionId ≠ b.transactionId

theorem postingContract_sound {stamps : List Stamp} (hfresh : FreshStamps stamps) :
    (postingContract stamps).Sound where
  refl own h := ⟨.refl h, id⟩
  trans own h₁ h₂ h₃ h h' := ⟨h.1.trans h'.1, fun hunused => h'.2 (h.2 hunused)⟩
  keeps own m c h hkept hallowed := by
    refine Chronicle.Kept.run hkept hfresh m c fun t ht => ?_
    obtain ⟨hown, hstamped, hunused⟩ := hallowed t ht
    refine ⟨own, hown, hstamped, fun u hu => ?_⟩
    rw [hstamped.id]
    exact hunused u hu
  spares own other m c h hapart _ hallowed := by
    refine ⟨Chronicle.grows_run m c h, fun hunused t ht => ?_⟩
    rcases Chronicle.committed_run m c h with hsame | ⟨u, hu, hnew⟩
    · rw [hsame] at ht
      exact hunused t ht
    · rw [hnew, List.mem_append, List.mem_singleton] at ht
      rcases ht with ht | rfl
      · exact hunused t ht
      · rw [(hallowed t hu).2.1.id]
        exact hapart

/-! ## Postings keep to the contract -/

/-- The operation has not come to nothing for an external identifier. -/
def ConflictFree {α : Type} (result : Except (Failure EngineError) α) : Prop :=
  ∀ what, result ≠ .error (.error (.duplicateExternalId what))

theorem EngineError.ofValue_ne_duplicate (e : ValueError) (what : String) :
    ofValue e ≠ .duplicateExternalId what := by
  cases e <;> nofun

theorem EngineError.ofPosting_ne_duplicate (e : PostingError) (what : String) :
    ofPosting e ≠ .duplicateExternalId what := by
  cases e with
  | value e => exact ofValue_ne_duplicate e what
  | _ => nofun

theorem EngineError.ofStore_ne_duplicate {e : StoreError}
    (he : ∀ what, e ≠ .duplicateExternalId what) (what : String) :
    ofStore e ≠ .duplicateExternalId what := by
  cases e with
  | duplicateExternalId other => exact absurd rfl (he other)
  | _ => nofun

section ConflictFree

variable {α : Type}

theorem conflictFree_ok (a : α) : ConflictFree (.ok a) := nofun

theorem conflictFree_overflow : ConflictFree (α := α) (.error .overflow) := nofun

theorem conflictFree_error {e : EngineError} (he : ∀ what, e ≠ .duplicateExternalId what) :
    ConflictFree (α := α) (.error (.error e)) := by
  intro what h
  exact he what (Failure.error.inj (Except.error.inj h))

theorem forall_of_error {ε : Type} {P : α → Prop} {e : ε} (a : α) (h : Except.error e = .ok a) :
    P a := by
  cases h

theorem conflictFree_lookup (what : String) (o : Option α) : ConflictFree (lookup what o) := by
  cases o <;> nofun

end ConflictFree

/-- A transaction has been committed, with the external identifier that was asked for. -/
def Settled (x? : Option String) (h : Chronicle) (t : Transaction) : Prop :=
  t ∈ h.committed ∧ ∀ x, x? = some x → t.externalId = some x

theorem Settled.grows {x? : Option String} {h h' : Chronicle} {t : Transaction}
    (ht : Settled x? h t) (hgrows : h.Grows h') : Settled x? h' t := ⟨hgrows.mem ht.1, ht.2⟩

section Postings

variable {stamps : List Stamp} {own : Stamp} {h : Chronicle}

theorem postingContract_read (h : Chronicle) (c : StoreCall)
    (hc : c.isRead = true) : (postingContract stamps).allowed own h c := by
  rintro t rfl
  cases hc

/-- Whoever loses the race finds the winner. Without an external identifier there is no race. -/
theorem meets_commit (hown : own ∈ stamps) {t : Transaction} (ht : t.StampedBy own)
    (hunused : h.Unused own) :
    (Ledger.commit t).Meets (postingContract stamps) own (fun h' result => h.Grows h' ∧
      ConflictFree result ∧ ∀ u, result = .ok u → Settled t.externalId h' u ∧
        (t.externalId = none → u = t)) h := by
  intro h₁ hrely₁ hkept₁
  refine ⟨?_, fun m => ?_⟩
  · rintro _ ⟨⟩
    exact ⟨hown, ht, hrely₁.2 hunused⟩
  have hgrows := Chronicle.grows_run m (.commitTransaction t) h₁
  rw [Chronicle.run_eq_answer] at hgrows ⊢
  cases hanswer : h₁.state.answer m (.commitTransaction t) with
  | ok p =>
    obtain ⟨reply, s'⟩ := p
    rw [hanswer] at hgrows
    refine ⟨hrely₁.1.trans hgrows, conflictFree_ok _, fun u hu => ?_⟩
    cases hu
    rw [(StoreState.commit_eq_ok hanswer).1]
    refine ⟨⟨?_, fun x hx => hx⟩, fun _ => rfl⟩
    exact List.mem_map_of_mem (List.mem_append_right _ List.mem_cons_self)
  | error f =>
    cases f with
    | overflow => exact ⟨hrely₁.1, conflictFree_overflow, forall_of_error⟩
    | error e =>
      cases e with
      | duplicateExternalId what =>
        obtain ⟨x, hx, htaken⟩ := StoreState.taken_of_commit_eq_duplicate hanswer
        obtain ⟨id, hid⟩ := contains_iff.mp htaken
        obtain ⟨winner, hwinner, hwx, -⟩ := (hkept₁.externalIds x id).mp hid
        refine Prog.Meets.ask (fun s => s.transactionByExternalId (t.externalId.getD ""))
          (fun _ _ => rfl) rfl (fun h => postingContract_read h _ rfl) ?_
        intro h₂ hrely₂ hkept₂
        have hfound : h₂.state.transactionByExternalId (t.externalId.getD "") = some winner := by
          rw [hx]
          exact hkept₂.transactionByExternalId_iff.mpr ⟨hrely₂.1.mem hwinner, hwx⟩
        rw [hfound]
        refine ⟨hrely₁.1.trans hrely₂.1, conflictFree_ok _, fun u hu => ?_⟩
        cases hu
        refine ⟨⟨hrely₂.1.mem hwinner, fun y hy => ?_⟩, fun hnone => nomatch hx.symm.trans hnone⟩
        rw [← hy, hx, hwx]
      | _ =>
        exact ⟨hrely₁.1, conflictFree_error (EngineError.ofStore_ne_duplicate nofun),
          forall_of_error⟩

theorem meets_ensureAccounts (ids : List AccountId) :
    (ensureAccounts ids).Meets (postingContract stamps) own (fun h' result =>
      (postingContract stamps).rely own h h' ∧ ConflictFree result) h := by
  refine Prog.Meets.ask (fun s => (distinctIds ids).filterMap fun id => s.accounts.get? id)
    (fun _ _ => rfl) rfl (fun h => postingContract_read h _ rfl) ?_
  intro h' hrely _
  split
  · exact ⟨hrely, conflictFree_error nofun⟩
  · exact ⟨hrely, conflictFree_ok _⟩

theorem meets_postNew (hown : own ∈ stamps) (template : TxTemplate) (header : ResolvedHeader)
    (params : Params) (hunused : h.Unused own) :
    (postNew template header params own).Meets (postingContract stamps) own
      (fun h' result => h.Grows h' ∧ ConflictFree result ∧
        ∀ u, result = .ok u → Settled header.externalId h' u) h := by
  refine (meets_findJournal postingContract_read header.journalId).bind ?_ ?_
  · rintro h₁ journal ⟨hrely₁, -, -⟩
    refine Prog.Meets.bind_ofExcept (fun entries _ => ?_) fun e _ =>
      ⟨hrely₁.1, conflictFree_error (EngineError.ofPosting_ne_duplicate e), forall_of_error⟩
    refine (meets_ensureAccounts _).bind ?_ ?_
    · rintro h₂ _ ⟨hrely₂, -⟩
      have hgrows := hrely₁.1.trans hrely₂.1
      refine Prog.Meets.bind_ofExcept (fun t ht => ?_) fun e _ =>
        ⟨hgrows, conflictFree_error (EngineError.ofPosting_ne_duplicate e), forall_of_error⟩
      obtain ⟨hstamped, hexternal⟩ := Transaction.assemble_stampedBy ht
      rw [← hexternal]
      refine (meets_commit hown hstamped (hrely₂.2 (hrely₁.2 hunused))).imp ?_
      rintro h₃ result ⟨hgrows₃, hfree, hok⟩
      exact ⟨hgrows.trans hgrows₃, hfree, fun u hu => (hok u hu).1⟩
    · rintro h₂ e ⟨hrely₂, hfree⟩
      exact ⟨hrely₁.1.trans hrely₂.1, fun what he => hfree what (by cases he; rfl), forall_of_error⟩
  · rintro h₁ e ⟨hrely₁, -, hresult⟩
    refine ⟨hrely₁.1, fun what he => ?_, forall_of_error⟩
    have hfree := conflictFree_lookup s!"journal {header.journalId}"
      (h₁.state.journals.get? header.journalId)
    rw [← hresult] at hfree
    exact hfree what (by cases he; rfl)

/-- What a posting comes out with: a committed transaction, with the external identifier that the
template of the posting resolves to. -/
def PostOutcome (code : String) (supplied : Params) (h : Chronicle)
    (result : Except (Failure EngineError) Transaction) : Prop :=
  ConflictFree result ∧ ∀ t, result = .ok t → ∃ template bound header,
    h.state.templates.get? code = some template ∧ template.bindParams supplied = .ok bound ∧
    template.resolveHeader bound.params = .ok header ∧ Settled header.externalId h t

theorem meets_post (hown : own ∈ stamps) (code : String) (supplied : Params)
    (hunused : h.Unused own) :
    (Ledger.post code supplied own).Meets (postingContract stamps) own
      (PostOutcome code supplied) h := by
  refine Prog.Meets.ask (fun s => s.templates.get? code) (fun _ _ => rfl) rfl
    (fun h => postingContract_read h _ rfl) ?_
  intro h₁ hrely₁ hkept₁
  cases htemplate : h₁.state.templates.get? code with
  | none => exact ⟨conflictFree_error nofun, forall_of_error⟩
  | some template =>
    refine Prog.Meets.bind_ofExcept (fun bound hbound => ?_) fun e _ =>
      ⟨conflictFree_error (EngineError.ofPosting_ne_duplicate e), forall_of_error⟩
    refine Prog.Meets.bind_ofExcept (fun header hheader => ?_) fun e _ =>
      ⟨conflictFree_error (EngineError.ofPosting_ne_duplicate e), forall_of_error⟩
    have hnew : ∀ h₂, h₁.Grows h₂ → h₂.Unused own →
        (postNew template header bound.params own).Meets (postingContract stamps) own
          (PostOutcome code supplied) h₂ := by
      intro h₂ hgrows₂ hunused₂
      refine (meets_postNew hown template header bound.params hunused₂).imp ?_
      rintro h₃ result ⟨hgrows₃, hfree, hok⟩
      refine ⟨hfree, fun t ht => ⟨template, bound, header, ?_, hbound, hheader, hok t ht⟩⟩
      exact (hgrows₂.trans hgrows₃).templates code template htemplate
    cases hx : header.externalId with
    | none => exact hnew h₁ (.refl h₁) (hrely₁.2 hunused)
    | some x =>
      refine Prog.Meets.ask (fun s => s.transactionByExternalId x) (fun _ _ => rfl) rfl
        (fun h => postingContract_read h _ rfl) ?_
      intro h₂ hrely₂ hkept₂
      cases hstored : h₂.state.transactionByExternalId x with
      | none => exact hnew h₂ hrely₂.1 (hrely₂.2 (hrely₁.2 hunused))
      | some stored =>
        obtain ⟨hmem, hsx⟩ := hkept₂.transactionByExternalId_iff.mp hstored
        refine ⟨conflictFree_ok _, fun t ht => ?_⟩
        cases ht
        refine ⟨template, bound, header, hrely₂.1.templates code template htemplate, hbound,
          hheader, hmem, fun y hy => ?_⟩
        rw [hsx, ← hx, hy]

/-- What a void comes out with: the reversal that it has committed. -/
def VoidOutcome (own : Stamp) (id : TransactionId) (h : Chronicle)
    (result : Except (Failure EngineError) Transaction) : Prop :=
  ∀ r, result = .ok r → r ∈ h.committed ∧ r.id = own.transactionId ∧ r.reverses = some id

theorem meets_void (hown : own ∈ stamps) (id : TransactionId) (hunused : h.Unused own) :
    (Ledger.void id own).Meets (postingContract stamps) own (VoidOutcome own id) h := by
  refine (meets_findTransaction postingContract_read id).bind ?_ fun _ _ _ => forall_of_error
  rintro h₁ target ⟨hrely₁, hkept₁, htarget⟩
  obtain ⟨hmem, hid⟩ := (hkept₁.transactions id target).mp (lookup_eq_ok htarget.symm)
  obtain ⟨stamp, -, hstamped⟩ := hkept₁.stamped target hmem
  have hreversal := Transaction.reversal_stampedBy hstamped.short own
  refine (meets_commit hown hreversal (hrely₁.2 hunused)).imp ?_
  rintro h₂ result ⟨-, -, hok⟩ r hr
  obtain ⟨hsettled, hsame⟩ := hok r hr
  obtain rfl := hsame rfl
  exact ⟨hsettled.1, rfl, congrArg some hid⟩

/-- What is known of the results of postings and voids. -/
def postOutcomes : Outcomes
  | .post code supplied, _, h, result => PostOutcome code supplied h result
  | .void id, own, h, result => VoidOutcome own id h result
  | _, _, _, _ => True

/-- All operations but two commit nothing and promise nothing. -/
theorem post_or_void_or_quiet (o : Operation) :
    (∃ code supplied, o = .post code supplied) ∨ (∃ id, o = .void id) ∨
      (∀ t, o.writesBy (.commitTransaction t) = false) ∧
        ∀ own h result, postOutcomes o own h result := by
  cases o with
  | post code supplied => exact Or.inl ⟨code, supplied, rfl⟩
  | void id => exact Or.inr (Or.inl ⟨id, rfl⟩)
  | _ => exact Or.inr (Or.inr ⟨fun _ => rfl, fun _ _ _ => trivial⟩)

theorem meets_action (hown : own ∈ stamps) (o : Operation) (hunused : h.Unused own) :
    (o.action own).Meets (postingContract stamps) own (postOutcomes o own) h := by
  rcases post_or_void_or_quiet o with ⟨code, supplied, rfl⟩ | ⟨id, rfl⟩ | ⟨hwrites, houtcome⟩
  · exact meets_post hown code supplied hunused
  · exact meets_void hown id hunused
  · refine ((callsOnly_action own o).meets ?_ h).imp fun h result _ => houtcome own h result
    rintro h' _ (hread | hcommits) t rfl
    · cases hread
    · rw [hwrites] at hcommits
      cases hcommits

end Postings

theorem PostOutcome.grows {code : String} {supplied : Params} {h h' : Chronicle}
    {result : Except (Failure EngineError) Transaction} (hr : PostOutcome code supplied h result)
    (hgrows : h.Grows h') : PostOutcome code supplied h' result := by
  refine ⟨hr.1, fun t ht => ?_⟩
  obtain ⟨template, bound, header, htemplate, hbound, hheader, hsettled⟩ := hr.2 t ht
  exact ⟨template, bound, header, hgrows.templates code template htemplate, hbound, hheader,
    hsettled.grows hgrows⟩

theorem VoidOutcome.grows {own : Stamp} {id : TransactionId} {h h' : Chronicle}
    {result : Except (Failure EngineError) Transaction} (hr : VoidOutcome own id h result)
    (hgrows : h.Grows h') : VoidOutcome own id h' result :=
  fun r hok => (hr r hok).imp_left hgrows.mem

/-- Callers at different places have different identifiers. -/
theorem FreshStamps.transactionId_ne {asked : List (Operation × Stamp)}
    (hfresh : FreshStamps (asked.map Prod.snd)) {i j : Nat} {a b : Operation × Stamp}
    (hij : i ≠ j) (ha : asked[i]? = some a) (hb : asked[j]? = some b) :
    a.2.transactionId ≠ b.2.transactionId := by
  intro hsame
  have hids := hfresh.transactions
  rw [List.map_map] at hids
  have hget : ∀ {k : Nat} {c : Operation × Stamp}, asked[k]? = some c →
      (asked.map (Stamp.transactionId ∘ Prod.snd))[k]? = some c.2.transactionId := by
    intro k c hc
    rw [List.getElem?_map, hc]
    rfl
  obtain ⟨hlt, -⟩ := List.getElem?_eq_some_iff.mp (hget ha)
  refine hij ((List.getElem?_inj hlt hids).mp ?_)
  rw [hget ha, hget hb, hsame]

/-- Any operations together keep to the contract of postings. -/
theorem meets_interleave {asked : List (Operation × Stamp)}
    (hfresh : FreshStamps (asked.map Prod.snd)) (turns : List Turn) :
    (interleave asked turns).Meets (postingContract (asked.map Prod.snd)) postOutcomes := by
  refine (postingContract_sound hfresh).meets_interleave Chronicle.Kept.empty ?_ ?_ ?_ turns
  · intro o own h h' result hrely _ hr
    cases o with
    | post code supplied => exact PostOutcome.grows hr hrely.1
    | void id => exact VoidOutcome.grows hr hrely.1
    | _ => trivial
  · exact fun i j a b hij ha hb => hfresh.transactionId_ne hij ha hb
  · intro a ha
    exact meets_action (List.mem_map_of_mem ha) a.1 fun _ ht => nomatch ht

/-- Any operations at work together, on stamps that are fresh, whatever turns they take. No two
transactions that are stored have one external identifier. No posting fails for a duplicate. And
one that is answered is answered with a stored transaction that has been applied once; where its
header has an external identifier, it is the transaction that is stored under it. -/
theorem posts_once {asked : List (Operation × Stamp)} (hfresh : FreshStamps (asked.map Prod.snd))
    (turns : List Turn) :
    let n := interleave asked turns
    (∀ id id' t t' x, n.chronicle.state.transactions.get? id = some t →
      n.chronicle.state.transactions.get? id' = some t' →
      t.externalId = some x → t'.externalId = some x → id = id' ∧ t = t') ∧
    ∀ code supplied stamp result,
      ⟨.post code supplied, stamp, .done result⟩ ∈ n.callers →
      (∀ what, result ≠ .error (.error (.duplicateExternalId what))) ∧
      ∀ t, result = .ok t → n.chronicle.AppliedOnce t ∧ ∃ template bound header,
        n.chronicle.state.templates.get? code = some template ∧
        template.bindParams supplied = .ok bound ∧
        template.resolveHeader bound.params = .ok header ∧
        ∀ x, header.externalId = some x → t.externalId = some x ∧
          n.chronicle.state.transactionByExternalId x = some t := by
  intro n
  obtain ⟨hkept, hcallers⟩ := meets_interleave hfresh turns
  obtain ⟨calls, hcalls⟩ := exists_chronicleOf_interleave asked turns
  have hsummed : n.chronicle.Summed := hcalls ▸ summed_chronicleOf calls
  constructor
  · intro id id' t t' x hid hid' hx hx'
    obtain ⟨ht, rfl⟩ := (hkept.transactions id t).mp hid
    obtain ⟨ht', rfl⟩ := (hkept.transactions id' t').mp hid'
    obtain rfl := hkept.eq_of_externalId ht ht' hx hx'
    exact ⟨rfl, rfl⟩
  · intro code supplied stamp result hmem
    obtain ⟨i, hi⟩ := List.getElem?_of_mem hmem
    obtain ⟨hfree, hok⟩ : PostOutcome code supplied n.chronicle result := hcallers i _ hi
    refine ⟨hfree, fun t ht => ?_⟩
    obtain ⟨template, bound, header, htemplate, hbound, hheader, hmem, hexternal⟩ := hok t ht
    refine ⟨hkept.appliedOnce hsummed hmem, template, bound, header, htemplate, hbound, hheader,
      fun x hx => ?_⟩
    exact ⟨hexternal x hx, hkept.transactionByExternalId_iff.mpr ⟨hmem, hexternal x hx⟩⟩

namespace Sample

/-- A stamp whose identifiers are those of no other number. -/
def stamp (n : Nat) : Stamp := ⟨now, ⟨uuid n⟩, fun i => ⟨uuid (n * pow2 32 + i)⟩⟩

theorem uuid_inj {a b : Nat} (ha : a < pow2 96) (hb : b < pow2 96) (h : uuid a = uuid b) :
    a = b := by
  rw [pow2_96] at ha hb
  have hbits := congrArg (fun u : Uuid => u.bits.toNat) h
  simp only [uuid, BitVec.toNat_ofNat] at hbits
  omega

theorem freshStamps {n : Nat} (hn : n < pow2 32) : FreshStamps ((List.range n).map stamp) where
  transactions := by
    rw [pow2_32] at hn
    rw [List.map_map]
    refine List.Nodup.map_on (fun a ha b hb hsame => ?_) List.nodup_range
    rw [List.mem_range] at ha hb
    refine uuid_inj ?_ ?_ (congrArg Id.uuid hsame) <;> rw [pow2_96] <;> omega
  entries := by
    rw [pow2_32] at *
    intro x hx y hy i j hi hj hsame
    obtain ⟨a, ha, rfl⟩ := List.mem_map.mp hx
    obtain ⟨b, hb, rfl⟩ := List.mem_map.mp hy
    rw [List.mem_range] at ha hb
    have hab : a * pow2 32 + i = b * pow2 32 + j := by
      refine uuid_inj ?_ ?_ (congrArg Id.uuid hsame) <;> rw [pow2_96, pow2_32] <;> omega
    rw [pow2_32] at hab
    obtain rfl : a = b := by omega
    exact ⟨rfl, by omega⟩

/-- Requests on stamps that are fresh. -/
def numbered (operations : List Operation) : List Request :=
  operations.zipIdx.map fun p => ⟨p.1, stamp p.2, ⟨now, fun i => uuid (p.2 * 100 + i)⟩⟩

theorem freshStamps_numbered {operations : List Operation} (h : operations.length < pow2 32) :
    FreshStamps ((numbered operations).map Request.stamp) := by
  have hstamps : (numbered operations).map Request.stamp =
      (List.range operations.length).map stamp := by
    unfold numbered
    rw [List.range_eq_range', ← List.zipIdx_map_snd 0 operations, List.map_map, List.map_map]
    rfl
  rw [hstamps]
  exact freshStamps h

/-- A transfer is posted, then voided, and an account is renamed. -/
def corrected : List Request :=
  numbered (opened.map Request.operation ++ [transfer 2 3 750 2 "t1",
    .void (stamp 5).transactionId, .updateAccount ⟨uuid 2⟩ ⟨some "till", none, none⟩])

/-- The sample ledger is opened, and two transfers with one external identifier are asked for. -/
def race : List (Operation × Stamp) :=
  (opened.map Request.operation ++
    [transfer 2 3 750 2 "race", transfer 3 4 125 2 "race"]).zipIdx.map fun p => (p.1, stamp p.2)

/-- The transfers make their calls by turns. Both find nothing stored, and the second commits
first. -/
def raceTurns : List Turn :=
  [0, 1, 2, 3, 4, 5, 6, 5, 6, 5, 6, 5, 6, 6, 5, 5].zipIdx.map fun p =>
    ⟨p.1, now, fun i => uuid (p.2 * 100 + i)⟩

/-- The transaction that a posting was answered with. -/
def posted? : Caller → Option Transaction
  | ⟨.post _ _, _, .done (.ok t)⟩ => some t
  | _ => none

theorem eq_of_posted? {c : Caller} {t : Transaction} (h : posted? c = some t) :
    ∃ code supplied stamp, c = ⟨.post code supplied, stamp, .done (.ok t)⟩ := by
  unfold posted? at h
  split at h
  · cases h
    exact ⟨_, _, _, rfl⟩
  · cases h

end Sample

/-- Both transfers are answered with the transaction of the second. -/
theorem posts_once_sample :
    FreshStamps (Sample.race.map Prod.snd) ∧ ∃ t, t.id = (Sample.stamp 6).transactionId ∧
      (∃ code supplied stamp, (interleave Sample.race Sample.raceTurns).callers[5]? =
        some ⟨.post code supplied, stamp, .done (.ok t)⟩) ∧
      (∃ code supplied stamp, (interleave Sample.race Sample.raceTurns).callers[6]? =
        some ⟨.post code supplied, stamp, .done (.ok t)⟩) ∧
      (interleave Sample.race Sample.raceTurns).chronicle.AppliedOnce t := by
  have hfresh : FreshStamps (Sample.race.map Prod.snd) :=
    Sample.freshStamps (n := 7) (by decide)
  have hfacts : ∀ i, i = 5 ∨ i = 6 →
      ((interleave Sample.race Sample.raceTurns).callers[i]?.bind Sample.posted?).map
        (fun t => (t.id, t.externalId)) = some ((Sample.stamp 6).transactionId, some "race") := by
    rintro i (rfl | rfl) <;> decide +kernel
  have hposted : ∀ i, i = 5 ∨ i = 6 → ∃ t code supplied stamp,
      (interleave Sample.race Sample.raceTurns).callers[i]? =
        some ⟨.post code supplied, stamp, .done (.ok t)⟩ ∧
      t.id = (Sample.stamp 6).transactionId ∧ t.externalId = some "race" := by
    intro i hi
    obtain ⟨t, ht, hfacts⟩ := Option.map_eq_some_iff.mp (hfacts i hi)
    obtain ⟨c, hc, ht⟩ := Option.bind_eq_some_iff.mp ht
    obtain ⟨code, supplied, stamp, rfl⟩ := Sample.eq_of_posted? ht
    exact ⟨t, code, supplied, stamp, hc, congrArg Prod.fst hfacts, congrArg Prod.snd hfacts⟩
  obtain ⟨t, code, supplied, stamp, hc, hid, hx⟩ := hposted 5 (Or.inl rfl)
  obtain ⟨t', code', supplied', stamp', hc', -, hx'⟩ := hposted 6 (Or.inr rfl)
  obtain ⟨hunique, hposts⟩ := posts_once hfresh Sample.raceTurns
  obtain ⟨-, hok⟩ := hposts code supplied stamp _ (List.mem_of_getElem? hc)
  obtain ⟨-, hok'⟩ := hposts code' supplied' stamp' _ (List.mem_of_getElem? hc')
  obtain ⟨happlied, -⟩ := hok t rfl
  obtain ⟨-, rfl⟩ := hunique _ _ _ _ _ happlied.stored (hok' t' rfl).1.stored hx hx'
  exact ⟨hfresh, t, hid, ⟨code, supplied, stamp, hc⟩, ⟨code', supplied', stamp', hc'⟩, happlied⟩

end DoubleEntry
