import DoubleEntry.Proofs.Balance.History
import DoubleEntry.Proofs.Engine.Effects
import DoubleEntry.Proofs.Updates
import DoubleEntry.Proofs.Wire.Events

/-!
# What operations record

Instants in records are those of the clocks, and amounts are read out of decimals or are sums. So
whatever an operation records is `Recordable`, as long as its clocks show regular instants: what it
makes anew has both from the start, and what it takes over has been recorded before. The invariant
`StoreState.Recordable` says so of all tables and of all that the outbox has told.

Main statement: `recordable_stateAfter`.
-/

namespace DoubleEntry

open Ledger OrdMap

/-! ## Rows -/

section Rows

variable {now : Timestamp} {fields : List String}

theorem Journal.recordable_of_create {new : NewJournal} {j : Journal} (hnow : now.Regular)
    (h : Journal.create new now = .ok j) : j.Recordable := by
  unfold Journal.create at h
  dsimp only at h
  split at h
  · cases h
  · obtain ⟨code, -, h⟩ := bind_eq_ok.mp h
    cases h
    exact ⟨hnow, hnow⟩

theorem Journal.Recordable.update {old j : Journal} {u : JournalUpdate} (hold : old.Recordable)
    (hnow : now.Regular) (h : old.update u now = .ok (j, fields)) : j.Recordable := by
  obtain ⟨_, _, -, -, -, hj⟩ := Journal.update_eq_ok h
  rw [hj]
  refine ⟨hold.createdAt, ?_⟩
  dsimp only
  split
  · exact hold.modifiedAt
  · exact hnow

theorem Account.recordable_of_create {new : NewAccount} {a : Account} (hnow : now.Regular)
    (h : Account.create new now = .ok a) : a.Recordable := by
  unfold Account.create at h
  dsimp only at h
  split at h
  · cases h
  · split at h
    · cases h
    · cases h
      exact ⟨hnow, hnow⟩

theorem Account.Recordable.update {old a : Account} {u : AccountUpdate} (hold : old.Recordable)
    (hnow : now.Regular) (h : old.update u now = .ok (a, fields)) : a.Recordable := by
  obtain ⟨_, _, _, -, -, -, -, ha⟩ := Account.update_eq_ok h
  rw [ha]
  refine ⟨hold.createdAt, ?_⟩
  dsimp only
  split
  · exact hold.modifiedAt
  · exact hnow

/-- A balance row is recordable after a delta, whatever the delta. -/
theorem BalanceSnapshot.recordable_of_applyDelta {current : Option BalanceSnapshot}
    {d : BalanceDelta} {id : TransactionId} {b : BalanceSnapshot}
    (hcurrent : ∀ b₀, current = some b₀ → b₀.Recordable) (hnow : now.Regular)
    (h : applyDelta current d id now = .ok b) : b.Recordable := by
  obtain ⟨-, htotals, -, -, hcreated, hmodified⟩ := applyDelta_eq_ok h
  obtain ⟨debits, hdebits, htotals⟩ := bind_eq_ok.mp htotals
  obtain ⟨credits, hcredits, htotals⟩ := bind_eq_ok.mp htotals
  cases htotals
  refine ⟨?_, hmodified ▸ hnow, Units.zeros_of_add hdebits, Units.zeros_of_add hcredits⟩
  rw [hcreated]
  cases current with
  | none => exact hnow
  | some b₀ => exact (hcurrent b₀ rfl).createdAt

end Rows

/-! ## Transactions -/

theorem Units.zeros_of_ofDecimal {d : Decimal} {u : Units} (h : ofDecimal d = .ok u) :
    u.zeros = 0 := by
  unfold ofDecimal at h
  split at h
  · cases h
    rfl
  · cases h

theorem zeros_of_resolveUnits {e : Expr} {index : Nat} {params : Params} {u : Units}
    (h : resolveUnits e index params = .ok u) : u.zeros = 0 := by
  obtain ⟨amount, -, h⟩ := bind_eq_ok.mp h
  split at h
  · next hu =>
    cases h
    exact Units.zeros_of_ofDecimal hu
  · cases h

theorem zeros_of_resolveEntry {e : EntryTemplate} {index : Nat} {params : Params}
    {r : ResolvedEntry} (h : resolveEntry e index params = .ok r) : r.units.zeros = 0 := by
  obtain ⟨_, -, h⟩ := bind_eq_ok.mp h
  obtain ⟨_, -, h⟩ := bind_eq_ok.mp h
  obtain ⟨units, hunits, h⟩ := bind_eq_ok.mp h
  obtain ⟨_, -, h⟩ := bind_eq_ok.mp h
  cases h
  exact zeros_of_resolveUnits hunits

theorem TxTemplate.zeros_of_materializeEntries {template : TxTemplate} {params : Params}
    {entries : List ResolvedEntry} (h : template.materializeEntries params = .ok entries) :
    ∀ r ∈ entries, r.units.zeros = 0 := by
  intro r hr
  obtain ⟨resolved, hresolved, h⟩ := bind_eq_ok.mp h
  obtain ⟨_, -, h⟩ := bind_eq_ok.mp h
  cases h
  obtain ⟨p, -, hp⟩ := exists_mem_of_forall₂ (forall₂_of_mapM_eq_ok hresolved) hr
  exact zeros_of_resolveEntry hp

namespace Transaction

variable {stamp : Stamp}

theorem recordable_of_assemble {template : TxTemplate} {params : Params} {header : ResolvedHeader}
    {entries : List ResolvedEntry} {t : Transaction} (hnow : stamp.now.Regular)
    (hentries : template.materializeEntries params = .ok entries)
    (h : assemble template header entries stamp = .ok t) : t.Recordable := by
  obtain ⟨assembled, hassembled, h⟩ := bind_eq_ok.mp h
  cases h
  refine ⟨hnow, fun e he => ?_⟩
  obtain ⟨p, hp, he⟩ := exists_mem_of_forall₂ (forall₂_of_mapM_eq_ok hassembled) he
  obtain ⟨sequence, -, he⟩ := bind_eq_ok.mp he
  cases he
  exact ⟨hnow, TxTemplate.zeros_of_materializeEntries hentries p.1 (List.fst_mem_of_mem_zipIdx hp)⟩

theorem Recordable.reversal {t : Transaction} (h : t.Recordable) (hnow : stamp.now.Regular) :
    (t.reversal stamp).Recordable := by
  refine ⟨hnow, fun e he => ?_⟩
  obtain ⟨p, hp, rfl⟩ := List.mem_map.mp he
  exact ⟨hnow, (h.entries p.1 (List.fst_mem_of_mem_zipIdx hp)).units⟩

end Transaction

theorem LedgerEvent.recordable_forBalance {b : BalanceSnapshot} (h : b.Recordable) :
    (forBalance b).Recordable := by
  unfold forBalance
  split <;> exact h

/-! ## The store -/

/-- All rows are recordable, and so is all that was told. -/
structure StoreState.Recordable (s : StoreState) : Prop where
  journals : ∀ id j, s.journals.get? id = some j → j.Recordable
  accounts : ∀ id a, s.accounts.get? id = some a → a.Recordable
  transactions : ∀ id t, s.transactions.get? id = some t → t.Recordable
  balances : ∀ k b, s.balances.get? k = some b → b.Recordable
  payloads : ∀ e ∈ s.payloads, e.Recordable

/-- The row that a call writes is recordable. -/
def StoreCall.Recordable : StoreCall → Prop
  | .createJournal j => j.Recordable
  | .updateJournal j _ => j.Recordable
  | .createAccount a => a.Recordable
  | .updateAccount a _ => a.Recordable
  | .commitTransaction t => t.Recordable
  | _ => True

namespace StoreState

theorem Recordable.empty : StoreState.empty.Recordable where
  journals _ _ h := nomatch h
  accounts _ _ h := nomatch h
  transactions _ _ h := nomatch h
  balances _ _ h := nomatch h
  payloads _ h := nomatch h

variable {s s₁ : StoreState} {now : Timestamp} {c : StoreCall} {events : List LedgerEvent}

theorem Recordable.rows {t : Transaction} {rows : List BalanceSnapshot} (hs : s.Recordable)
    (hnow : now.Regular) (hplan : s.planCommit now t = .ok rows) : ∀ b ∈ rows, b.Recordable := by
  intro b hb
  obtain ⟨ds, -, -, -, hrows⟩ := planCommit_eq_ok hplan
  obtain ⟨d, -, happly⟩ := exists_mem_of_forall₂ hrows hb
  exact BalanceSnapshot.recordable_of_applyDelta (fun b₀ => hs.balances d.key b₀) hnow happly

/-- A call that writes a recordable row tells of it, and of balance rows that are recordable. -/
theorem Recordable.stores (hs : s.Recordable) (hnow : now.Regular) (hc : c.Recordable)
    (h : s.Stores now c s₁ events) : s₁.Recordable ∧ ∀ e ∈ events, e.Recordable := by
  cases h with
  | createJournal hid hcodes =>
    exact ⟨{ hs with journals := forall_get?_put hs.journals hc }, List.forall_mem_singleton.mpr hc⟩
  | updateJournal hid =>
    exact ⟨{ hs with journals := forall_get?_put hs.journals hc }, List.forall_mem_singleton.mpr hc⟩
  | createAccount hcode hid =>
    exact ⟨{ hs with accounts := forall_get?_put hs.accounts hc }, List.forall_mem_singleton.mpr hc⟩
  | updateAccount hid =>
    exact ⟨{ hs with accounts := forall_get?_put hs.accounts hc }, List.forall_mem_singleton.mpr hc⟩
  | createTemplate hcode => exact ⟨{ hs with }, List.forall_mem_singleton.mpr trivial⟩
  | commit hplan =>
    have hrows := hs.rows hnow hplan
    refine ⟨{ hs with
      transactions := forall_get?_put hs.transactions hc
      balances := forall_get?_putRows hs.balances hrows }, ?_⟩
    refine List.forall_mem_cons.mpr ⟨hc, List.forall_mem_map.mpr fun b hb => ?_⟩
    exact LedgerEvent.recordable_forBalance (hrows b hb)

theorem Recordable.withRecords (hs : s.Recordable) {records : List OutboxRecord}
    (h : ∀ r ∈ records, r.payload.Recordable) : (s.withRecords records).Recordable := by
  refine { hs with payloads := ?_ }
  rw [payloads_withRecords]
  exact List.forall_mem_append.mpr ⟨hs.payloads, List.forall_mem_map.mpr h⟩

end StoreState

/-! ## Operations -/

section Operations

variable {s : StoreState} {stamp : Stamp} {o : Operation} {c : StoreCall} {result : o.Result}

/-- An operation writes a recordable row. -/
theorem StoreState.Recordable.writes (hs : s.Recordable) (hnow : stamp.now.Regular)
    (h : Writes stamp s o c result) : c.Recordable := by
  cases h with
  | createJournal hnew => exact Journal.recordable_of_create hnow hnew
  | updateJournal hold hu _ => exact (hs.journals _ _ hold).update hnow hu
  | createAccount hnew => exact Account.recordable_of_create hnow hnew
  | updateAccount hold hu _ => exact (hs.accounts _ _ hold).update hnow hu
  | createTemplate hnew => trivial
  | post _ _ _ _ _ hentries _ ht => exact Transaction.recordable_of_assemble hnow hentries ht
  | void htarget => exact (hs.transactions _ _ htarget).reversal hnow

end Operations

/-- Both clocks of the request show regular instants: that of the operation and that of the
store. -/
structure Ledger.Request.OnRegularClocks (r : Request) : Prop where
  operation : r.stamp.now.Regular
  store : r.moment.now.Regular

theorem StoreState.Recordable.perform {h : Chronicle} (hs : h.state.Recordable) {r : Request}
    (hr : r.OnRegularClocks) : (h.perform r).2.state.Recordable := by
  rcases h.perform_cases r with hsame | ⟨c, reply, s', result, hwrites, hanswer, hrun⟩
  · rwa [hsame]
  rw [hrun]
  rcases effect_of_answer hanswer with ⟨-, rfl⟩ | ⟨s₁, events, records, hs₁, rfl, rfl⟩
  · exact hs
  obtain ⟨hnext, htold⟩ := hs.stores hr.store (hs.writes hr.operation hwrites) hs₁
  exact hnext.withRecords (List.forall_mem_map.mp htold)

/-- After any requests on regular clocks, whether they succeed or not, all rows are recordable and
so is all that was told. -/
theorem recordable_stateAfter {requests : List Request}
    (h : ∀ r ∈ requests, r.OnRegularClocks) : (stateAfter requests).Recordable := by
  rw [← state_chronicleAfter]
  induction requests using List.reverseRecOn with
  | nil => exact .empty
  | append_singleton requests r ih =>
    obtain ⟨hrequests, hr⟩ := List.forall_mem_append.mp h
    rw [chronicleAfter_concat]
    exact (ih hrequests).perform (hr r (List.mem_singleton_self r))

end DoubleEntry
