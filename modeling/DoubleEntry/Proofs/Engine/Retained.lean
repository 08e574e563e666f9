import DoubleEntry.Proofs.Engine.Racing
import DoubleEntry.Proofs.Engine.Rows

/-!
# What is stored stays

Tables are overwritten by key and updates store whole rows back, yet nothing that is stored is ever
lost or changed, but for what updates are there to change. Each table has its own reason. Templates,
external identifiers and voids are stored only under keys that the store has found free. That a
transaction and its entries have keys of their own takes fresh identifiers (`Stores.keepsPostings`).
Journals and accounts are looked up before they are changed, and what is fixed of them is written
back (`rowsContract`).

Main statement: `retains_history`.
-/

namespace DoubleEntry

open Ledger OrdMap

/-! ## Tables that only grow -/

namespace StoreState

/-- The outbox goes on where it was, and the tables that are never updated have all their rows. -/
structure KeepsPostings (s s' : StoreState) : Prop where
  outbox : s.outbox <+: s'.outbox
  templates : Keeps id s.templates s'.templates
  transactions : Keeps id s.transactions s'.transactions
  externalIds : Keeps id s.externalIds s'.externalIds
  voided : Keeps id s.voided s'.voided
  entries : Keeps id s.accountEntries s'.accountEntries

theorem KeepsPostings.refl (s : StoreState) : s.KeepsPostings s :=
  ⟨List.prefix_refl _, .refl _, .refl _, .refl _, .refl _, .refl _⟩

theorem KeepsPostings.trans {s s' s'' : StoreState} (h : s.KeepsPostings s')
    (h' : s'.KeepsPostings s'') : s.KeepsPostings s'' :=
  ⟨h.outbox.trans h'.outbox, h.templates.trans h'.templates, h.transactions.trans h'.transactions,
    h.externalIds.trans h'.externalIds, h.voided.trans h'.voided, h.entries.trans h'.entries⟩

variable {s s₁ : StoreState} {now : Timestamp} {c : StoreCall} {events : List LedgerEvent}
  {t : Transaction} {rows : List BalanceSnapshot}

/-- An external identifier is stored only while it is free. -/
theorem keeps_externalIdsWith (h : s.checkExternalId t = .ok ()) :
    Keeps id s.externalIds (s.externalIdsWith t) := by
  unfold checkExternalId at h
  unfold externalIdsWith
  cases hx : t.externalId with
  | none => exact .refl _
  | some x =>
    rw [hx] at h
    exact .put_new (refuseIf_eq_ok.mp h)

/-- A transaction is voided only while it is not. -/
theorem keeps_voidedWith (h : s.checkReverses t = .ok ()) :
    Keeps id s.voided (s.voidedWith t) := by
  unfold voidedWith
  cases ht : t.reverses with
  | none => exact .refl _
  | some target => exact .put_new (checkReverses_eq_ok h ht).2

/-- A commit adds to what is there, if its identifiers are new. -/
theorem keepsPostings_record (hplan : s.planCommit now t = .ok rows)
    (hid : s.transactions.contains t.id = false)
    (hentries : ∀ e ∈ t.entries, s.accountEntries.get? e.historyKey = none) :
    s.KeepsPostings (s.record t rows) := by
  obtain ⟨-, -, hexternal, hreverses, -⟩ := planCommit_eq_ok hplan
  exact ⟨List.prefix_refl _, .refl _, .put_new hid, keeps_externalIdsWith hexternal,
    keeps_voidedWith hreverses, .putRows_new hentries⟩

/-- Whatever a call stores is new, but for rows. -/
theorem Stores.keepsPostings (h : s.Stores now c s₁ events)
    (hc : ∀ t, c = .commitTransaction t → s.transactions.contains t.id = false ∧
      ∀ e ∈ t.entries, s.accountEntries.get? e.historyKey = none) : s.KeepsPostings s₁ := by
  cases h with
  | commit hplan =>
    obtain ⟨hid, hentries⟩ := hc _ rfl
    exact keepsPostings_record hplan hid hentries
  | createTemplate hcode =>
    exact ⟨List.prefix_refl _, .put_new hcode, .refl _, .refl _, .refl _, .refl _⟩
  | _ => exact ⟨List.prefix_refl _, .refl _, .refl _, .refl _, .refl _, .refl _⟩

theorem KeepsPostings.withRecords (h : s.KeepsPostings s₁) (records : List OutboxRecord) :
    s.KeepsPostings (s₁.withRecords records) :=
  ⟨h.outbox.trans (List.prefix_append _ _), h.templates, h.transactions, h.externalIds, h.voided,
    h.entries⟩

end StoreState

/-- A caller that keeps to the contract of postings overwrites nothing. -/
theorem keepsPostings_run {stamps : List Stamp} (hfresh : FreshStamps stamps) {own : Stamp}
    {m : Moment} {c : StoreCall} {h : Chronicle} (hkept : h.Kept stamps)
    (hallowed : (postingContract stamps).allowed own h c) :
    h.state.KeepsPostings (Chronicle.run m c h).2.state := by
  rcases Chronicle.run_effect m c h with hsame | ⟨s₁, events, records, hs₁, -, hrun⟩
  · rw [hsame]
    exact .refl h.state
  · rw [hrun]
    refine (hs₁.keepsPostings fun t ht => ?_).withRecords records
    obtain ⟨hown, hstamped, hunused⟩ := hallowed t ht
    have hnew : ∀ u ∈ h.committed, u.id ≠ t.id := fun u hu => hstamped.id ▸ hunused u hu
    refine ⟨?_, fun e he => hkept.get?_entries_eq_none hfresh hown hstamped hnew he⟩
    by_contra hstored
    obtain ⟨u, hu⟩ := contains_iff.mp (Bool.not_eq_false _ ▸ hstored)
    obtain ⟨hmem, hid⟩ := (hkept.transactions t.id u).mp hu
    exact hnew u hmem hid

/-! ## All that is stored -/

/-- All that one state holds is in another: the outbox goes on where it was, postings and templates
are there unchanged, and so is what is fixed of accounts and journals. -/
structure StoreState.Retains (s s' : StoreState) : Prop where
  outbox : s.outbox <+: s'.outbox
  transactions : ∀ id t, s.transactions.get? id = some t → s'.transactions.get? id = some t
  templates : ∀ code t, s.templates.get? code = some t → s'.templates.get? code = some t
  externalIds : ∀ x id, s.externalIds.get? x = some id → s'.externalIds.get? x = some id
  voided : ∀ id r, s.voided.get? id = some r → s'.voided.get? id = some r
  entries : ∀ key e, s.accountEntries.get? key = some e → s'.accountEntries.get? key = some e
  accounts : ∀ id a, s.accounts.get? id = some a → ∃ a', s'.accounts.get? id = some a' ∧
    a'.id = a.id ∧ a'.code = a.code ∧ a'.normalBalance = a.normalBalance ∧
    a'.createdAt = a.createdAt
  journals : ∀ id j, s.journals.get? id = some j → ∃ j', s'.journals.get? id = some j' ∧
    j'.id = j.id ∧ j'.code = j.code ∧ j'.createdAt = j.createdAt

theorem StoreState.retains_of_keeps {s s' : StoreState} (hpostings : s.KeepsPostings s')
    (hrows : s.KeepsRows s') : s.Retains s' where
  outbox := hpostings.outbox
  transactions _ _ := hpostings.transactions.get?
  templates _ _ := hpostings.templates.get?
  externalIds _ _ := hpostings.externalIds.get?
  voided _ _ := hpostings.voided.get?
  entries _ _ := hpostings.entries.get?
  accounts id a ha := by
    obtain ⟨a', ha', hfixed⟩ := hrows.accounts id a ha
    simp only [Account.fixed, Prod.mk.injEq] at hfixed
    exact ⟨a', ha', hfixed⟩
  journals id j hj := by
    obtain ⟨j', hj', hfixed⟩ := hrows.journals id j hj
    simp only [Journal.fixed, Prod.mk.injEq] at hfixed
    exact ⟨j', hj', hfixed⟩

section Interleaved

variable {asked : List (Operation × Stamp)} (hfresh : FreshStamps (asked.map Prod.snd))

include hfresh

theorem keepsPostings_interleave (turns more : List Turn) :
    (interleave asked turns).chronicle.state.KeepsPostings
      (interleave asked (turns ++ more)).chronicle.state :=
  Interleaving.invariant_of_meets
    (I := fun h => (interleave asked turns).chronicle.state.KeepsPostings h.state)
    (postingContract_sound hfresh) (meets_interleave hfresh)
    (fun _ _ _ _ hkept hallowed hkeeps =>
      hkeeps.trans (keepsPostings_run hfresh hkept hallowed))
    (.refl _) more

omit hfresh in
theorem keepsRows_interleave (asked : List (Operation × Stamp)) (turns more : List Turn) :
    (interleave asked turns).chronicle.state.KeepsRows
      (interleave asked (turns ++ more)).chronicle.state :=
  Interleaving.invariant_of_meets
    (I := fun h => (interleave asked turns).chronicle.state.KeepsRows h.state)
    rowsContract_sound (meets_rows_interleave asked)
    (fun own m c h hindexed hallowed hkeeps =>
      hkeeps.trans (rowsContract_sound.spares own own m c h trivial hindexed hallowed))
    (.refl _) more

theorem retains_interleave (turns more : List Turn) :
    (interleave asked turns).chronicle.state.Retains
      (interleave asked (turns ++ more)).chronicle.state :=
  StoreState.retains_of_keeps (keepsPostings_interleave hfresh turns more)
    (keepsRows_interleave asked turns more)

end Interleaved

/-- Whatever operations are at work on fresh identifiers, and whatever turns they take, a later
state has all that an earlier one has. So it is after some requests and after more of them. -/
theorem retains_history :
    (∀ asked turns more, FreshStamps (asked.map Prod.snd) →
      (interleave asked turns).chronicle.state.Retains
        (interleave asked (turns ++ more)).chronicle.state) ∧
    ∀ requests more, FreshStamps ((requests ++ more).map Request.stamp) →
      (stateAfter requests).Retains (stateAfter (requests ++ more)) := by
  refine ⟨fun asked turns more hfresh => retains_interleave hfresh turns more,
    fun requests more hfresh => ?_⟩
  obtain ⟨turns, turns', hturns, hturns'⟩ := exists_turns_append requests more
  have hstamps : FreshStamps ((askedBy (requests ++ more)).map Prod.snd) := by
    unfold askedBy
    rwa [List.map_map]
  have hretains := retains_interleave hstamps turns turns'
  rwa [hturns, hturns', state_chronicleAfter, state_chronicleAfter] at hretains

/-- The transfer is there before and after the correction. -/
theorem retains_history_sample :
    FreshStamps ((Sample.corrected.take 6 ++ Sample.corrected.drop 6).map Request.stamp) ∧
      (stateAfter (Sample.corrected.take 6)).transactions.rows.length = 1 ∧
      (stateAfter Sample.corrected).transactions.rows.length = 2 ∧
      (stateAfter (Sample.corrected.take 6)).Retains (stateAfter Sample.corrected) := by
  have hfresh : FreshStamps
      ((Sample.corrected.take 6 ++ Sample.corrected.drop 6).map Request.stamp) := by
    rw [List.take_append_drop]
    exact Sample.freshStamps_numbered (by decide)
  have hretains := retains_history.2 (Sample.corrected.take 6) (Sample.corrected.drop 6) hfresh
  rw [List.take_append_drop 6 Sample.corrected] at hretains
  exact ⟨hfresh, by decide +kernel, by decide +kernel, hretains⟩

end DoubleEntry
