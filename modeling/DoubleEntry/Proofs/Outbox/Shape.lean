import DoubleEntry.Proofs.Balance.History
import DoubleEntry.Proofs.Engine.Committed
import DoubleEntry.Proofs.Engine.Described
import DoubleEntry.Proofs.Outbox.Numbered

/-!
# The shape of the outbox

What a consumer may expect of the records it reads, first to last:

* They are numbered from one on, and carry type, version and time of their event.
* They come in groups (`EventGroup`): a change by itself, or a transaction followed by the balance
  rows it moved, one for each key touched and in the order of the keys.
* The rows told of under one key have the versions one, two, three and so on, and the first of them
  is told of as new.
* An update names the fields in which the row differs from what was told of it last.

The first three hold after any calls. The last one rests on an operation being over before the next
one begins: what an update has read is what was told last.

Main statement: `outbox_shape`.
-/

namespace DoubleEntry

open Ledger OrdMap

/-! ## Records -/

/-- The record says of its event what the event says itself. -/
structure OutboxRecord.Faithful (r : OutboxRecord) : Prop where
  eventType : r.eventType = r.payload.eventType
  eventVersion : r.eventVersion = LedgerEvent.formVersion
  recordedAt : r.recordedAt = r.payload.occurredAt

theorem faithful_of_recordsAfter {ε : Type} {recordId : Nat → Uuid} {last final : UInt64}
    {events : List LedgerEvent} {records : List OutboxRecord}
    (h : recordsAfter (ε := ε) recordId last events = .ok (records, final)) :
    ∀ r ∈ records, r.Faithful := by
  induction events generalizing recordId last records with
  | nil =>
    cases h
    exact List.forall_mem_nil _
  | cons e es ih =>
    obtain ⟨sequence, -, h⟩ := bind_eq_ok.mp h
    obtain ⟨⟨rest, final'⟩, hrest, h⟩ := bind_eq_ok.mp h
    cases h
    exact List.forall_mem_cons.mpr ⟨⟨rfl, rfl, rfl⟩, ih hrest⟩

theorem faithful_chronicleOf (calls : List (Moment × StoreCall)) :
    ∀ r ∈ (chronicleOf calls).state.outbox, r.Faithful := by
  refine chronicleOf_invariant (I := fun h => ∀ r ∈ h.state.outbox, r.Faithful)
    (List.forall_mem_nil _) (fun m c h hs => ?_) calls
  rw [Chronicle.run_eq_answer]
  cases hanswer : h.state.answer m c with
  | error f => exact hs
  | ok p =>
    rcases StoreState.records_of_answer hanswer with hsame | ⟨events, records, final, hrecords, hs'⟩
    · exact hsame ▸ hs
    · show ∀ r ∈ p.2.outbox, r.Faithful
      rw [hs']
      exact List.forall_mem_append.mpr ⟨hs, faithful_of_recordsAfter hrecords⟩

theorem faithful_stateAfter (requests : List Request) :
    ∀ r ∈ (stateAfter requests).outbox, r.Faithful := by
  obtain ⟨calls, hcalls⟩ := exists_chronicleOf_eq requests
  rw [← state_chronicleAfter, ← hcalls]
  exact faithful_chronicleOf calls

/-! ## Groups -/

/-- The balance row that an event tells of. -/
def LedgerEvent.balance? : LedgerEvent → Option BalanceSnapshot
  | .balanceCreated b => some b
  | .balanceUpdated b => some b
  | _ => none

/-- The event tells of a transaction or of a balance row. -/
def LedgerEvent.isPosting : LedgerEvent → Bool
  | .transactionCreated _ => true
  | .balanceCreated _ => true
  | .balanceUpdated _ => true
  | _ => false

/-- The events of one change. -/
inductive EventGroup : List LedgerEvent → Prop
  | change {e : LedgerEvent} (h : e.isPosting = false) : EventGroup [e]
  | posting {t : Transaction} {rows : List BalanceSnapshot}
    (hascending : (rows.map BalanceSnapshot.key).Pairwise fun k k' => compare k k' = .lt)
    (htouched : ∀ k, k ∈ rows.map BalanceSnapshot.key ↔ t.Touches k)
    (hlast : ∀ b ∈ rows, b.lastTransactionId = t.id) : EventGroup (postingEvents t rows)

/-- What a call tells is no posting, and then it leaves the balances, or it is that of a commit. -/
theorem StoreState.Stores.posting_cases {s s₁ : StoreState} {now : Timestamp} {c : StoreCall}
    {events : List LedgerEvent} (h : s.Stores now c s₁ events) :
    (∃ e, events = [e] ∧ e.isPosting = false ∧ s₁.balances = s.balances) ∨
      ∃ t rows, s.planCommit now t = .ok rows ∧ events = postingEvents t rows ∧
        s₁ = s.record t rows := by
  cases h with
  | commit hplan => exact .inr ⟨_, _, hplan, rfl, rfl⟩
  | _ => exact .inl ⟨_, rfl, rfl, rfl⟩

theorem StoreState.Stores.eventGroup {s s₁ : StoreState} {now : Timestamp} {c : StoreCall}
    {events : List LedgerEvent} (h : s.Stores now c s₁ events) : EventGroup events := by
  rcases h.posting_cases with ⟨e, rfl, he, -⟩ | ⟨t, rows, hplan, rfl, -⟩
  · exact .change he
  · obtain ⟨hascending, htouched, hrows⟩ := rows_in_order hplan
    refine .posting hascending htouched fun b hb => ?_
    obtain ⟨d, -, -, happly⟩ := hrows b hb
    obtain ⟨-, -, -, hlast, -⟩ := applyDelta_eq_ok happly
    exact hlast

theorem eventGroups_chronicleOf (calls : List (Moment × StoreCall)) :
    ∃ groups : List (List LedgerEvent), (chronicleOf calls).state.payloads = groups.flatten ∧
      ∀ g ∈ groups, EventGroup g := by
  refine chronicleOf_invariant (I := fun h => ∃ groups : List (List LedgerEvent),
    h.state.payloads = groups.flatten ∧ ∀ g ∈ groups, EventGroup g)
    ⟨[], rfl, List.forall_mem_nil _⟩ (fun m c h hs => ?_) calls
  rcases Chronicle.run_effect m c h with hsame | ⟨s₁, events, records, hs₁, hrecords, hrun⟩
  · rwa [hsame]
  · obtain ⟨groups, hgroups, hall⟩ := hs
    rw [hrun]
    refine ⟨groups ++ [events], ?_, ?_⟩
    · rw [StoreState.payloads_withRecords, hrecords, hs₁.payloads_eq, hgroups, List.flatten_append,
        List.flatten_singleton]
    · exact List.forall_mem_append.mpr ⟨hall, List.forall_mem_singleton.mpr hs₁.eventGroup⟩

/-! ## Versions -/

/-- The events that tell of the row of a key, oldest first. -/
def balancesUnder (k : BalanceKey) (events : List LedgerEvent) : List LedgerEvent :=
  events.filter fun e => e.balance?.map BalanceSnapshot.key = some k

/-- The versions told of under the key count from one, and the first row is told of as new. -/
def Counted (k : BalanceKey) (events : List LedgerEvent) : Prop :=
  ∀ i e, (balancesUnder k events)[i]? = some e → ∃ b : BalanceSnapshot, b.key = k ∧
    b.version.toNat = i + 1 ∧ e = if i = 0 then .balanceCreated b else .balanceUpdated b

section Versions

variable {k : BalanceKey} {events : List LedgerEvent}

theorem balance?_forBalance (b : BalanceSnapshot) :
    (LedgerEvent.forBalance b).balance? = some b := by
  unfold LedgerEvent.forBalance
  split <;> rfl

theorem balance?_of_not_posting {e : LedgerEvent} (h : e.isPosting = false) :
    e.balance? = none := by
  cases e <;> first | rfl | cases h

/-- The rows of a posting under a key. -/
theorem balancesUnder_postingEvents (k : BalanceKey) (t : Transaction)
    (rows : List BalanceSnapshot) :
    balancesUnder k (postingEvents t rows) =
      (rows.filter fun b => b.key = k).map LedgerEvent.forBalance := by
  unfold balancesUnder postingEvents
  rw [List.filter_cons_of_neg (by simp [LedgerEvent.balance?]), List.filter_map]
  refine congrArg (List.map _) (List.filter_congr fun b _ => ?_)
  simp [balance?_forBalance]

theorem balancesUnder_append (k : BalanceKey) (events more : List LedgerEvent) :
    balancesUnder k (events ++ more) = balancesUnder k events ++ balancesUnder k more :=
  List.filter_append _ _

/-- One more row told of under the key. -/
theorem Counted.concat (h : Counted k events) {b : BalanceSnapshot} (hkey : b.key = k)
    (hversion : b.version.toNat = (balancesUnder k events).length + 1) {more : List LedgerEvent}
    (hmore : balancesUnder k more = [.forBalance b]) : Counted k (events ++ more) := by
  intro i e he
  rw [balancesUnder_append, hmore] at he
  rcases Nat.lt_trichotomy i (balancesUnder k events).length with hlt | rfl | hgt
  · rw [List.getElem?_append_left hlt] at he
    exact h i e he
  · rw [List.getElem?_concat_length] at he
    cases he
    refine ⟨b, hkey, hversion, ?_⟩
    unfold LedgerEvent.forBalance
    refine if_congr ?_ rfl rfl
    rw [← UInt64.toNat_inj, hversion]
    exact Nat.succ_inj
  · rw [List.getElem?_eq_none (by rwa [List.length_append])] at he
    cases he

/-- The version that a row has, or none yet. -/
def versionOf (row : Option BalanceSnapshot) : Nat :=
  ((row.map BalanceSnapshot.version).getD 0).toNat

/-- The version of the row of a key is the number of events that told of it. -/
structure StoreState.Versioned (s : StoreState) (k : BalanceKey) : Prop where
  version : versionOf (s.balances.get? k) = (balancesUnder k s.payloads).length
  counted : Counted k s.payloads

/-- Nothing is told of the key, and its row stays. -/
theorem StoreState.Versioned.quiet {s s' : StoreState} (h : s.Versioned k)
    (hpayloads : s'.payloads = s.payloads ++ events)
    (hsame : s'.balances.get? k = s.balances.get? k) (hnone : balancesUnder k events = []) :
    s'.Versioned k := by
  have hunder : balancesUnder k s'.payloads = balancesUnder k s.payloads := by
    rw [hpayloads, balancesUnder_append, hnone, List.append_nil]
  refine ⟨by rw [hsame, hunder, h.version], fun i e he => h.counted i e ?_⟩
  rwa [← hunder]

/-- The rows of a commit are told of under the keys it touches, and under no others. -/
theorem StoreState.Versioned.commit {s s' : StoreState} (h : s.Versioned k) {now : Timestamp}
    {t : Transaction} {rows : List BalanceSnapshot} (hplan : s.planCommit now t = .ok rows)
    (hpayloads : s'.payloads = s.payloads ++ postingEvents t rows)
    (hbalances : s'.balances = (s.record t rows).balances) : s'.Versioned k := by
  obtain ⟨hnodup, htouched, hrows⟩ := rows_of_planCommit hplan
  by_cases hk : k ∈ rows.map BalanceSnapshot.key
  · obtain ⟨b, hb, rfl⟩ := List.mem_map.mp hk
    obtain ⟨d, -, -, happly⟩ := hrows b hb
    obtain ⟨-, -, hversion, -⟩ := applyDelta_eq_ok happly
    have hunder : balancesUnder b.key (postingEvents t rows) = [.forBalance b] := by
      rw [balancesUnder_postingEvents, filter_eq_singleton hnodup hb, List.map_singleton]
    have hrow : s'.balances.get? b.key = some b := by
      rw [hbalances]
      exact get?_putRows_of_mem hnodup hb s.balances
    have hnext : b.version.toNat = (balancesUnder b.key s.payloads).length + 1 :=
      hversion.trans (congrArg (· + 1) h.version)
    refine ⟨?_, hpayloads ▸ h.counted.concat rfl hnext hunder⟩
    rw [hrow, hpayloads, balancesUnder_append, hunder, List.length_append]
    exact hnext
  · refine h.quiet hpayloads ?_ ?_
    · rw [hbalances]
      exact get?_putRows_of_not_mem hk s.balances
    · rw [balancesUnder_postingEvents, List.filter_eq_nil_iff.mpr, List.map_nil]
      intro b hb hkey
      exact hk (of_decide_eq_true hkey ▸ List.mem_map_of_mem hb)

theorem versioned_chronicleOf (calls : List (Moment × StoreCall)) (k : BalanceKey) :
    (chronicleOf calls).state.Versioned k := by
  refine chronicleOf_invariant (I := fun h => h.state.Versioned k) ⟨rfl, fun _ _ he => nomatch he⟩
    (fun m c h hs => ?_) calls
  rcases Chronicle.run_effect m c h with hsame | ⟨s₁, events, records, hs₁, hrecords, hrun⟩
  · rwa [hsame]
  · rw [hrun]
    have hpayloads : (s₁.withRecords records).payloads = h.state.payloads ++ events := by
      rw [StoreState.payloads_withRecords, hrecords, hs₁.payloads_eq]
    rcases hs₁.posting_cases with ⟨e, rfl, he, hbalances⟩ | ⟨t, rows, hplan, rfl, rfl⟩
    · refine hs.quiet hpayloads (congrArg (get? k) hbalances) ?_
      exact List.filter_cons_of_neg (by simp [balance?_of_not_posting he])
    · exact hs.commit hplan hpayloads rfl

end Versions

/-! ## Updates -/

/-- An update after these events names the fields in which the row differs from what was told of it
last. -/
def NamesDifferences (before : List LedgerEvent) (d : Described) (row : d.Row)
    (fields : List String) : Prop :=
  fields ≠ [] ∧ fields.Nodup ∧ ∃ old, d.lastTold (d.rowId row) before = some old ∧
    ∀ f, f ∈ fields ↔ d.DiffersIn old row f

/-- All updates do so. -/
def TellsDifferences (events : List LedgerEvent) : Prop :=
  ∀ (d : Described) before row fields after,
    events = before ++ d.updated row fields :: after → NamesDifferences before d row fields

theorem TellsDifferences.append {events more : List LedgerEvent} (h : TellsDifferences events)
    (hmore : ∀ (d : Described) before row fields after,
      more = before ++ d.updated row fields :: after →
        NamesDifferences (events ++ before) d row fields) : TellsDifferences (events ++ more) := by
  intro d before row fields after hsplit
  rcases List.append_eq_append_iff.mp hsplit with
    ⟨rest, rfl, hrest⟩ | ⟨_ | ⟨e, rest⟩, rfl, hrest⟩
  · exact hmore d rest row fields after hrest
  · have hnew := hmore d [] row fields after hrest.symm
    rwa [List.append_nil, List.append_nil] at hnew
  · obtain ⟨rfl, -⟩ := List.cons.inj hrest
    exact h d before row fields rest rfl

/-- A request finds what was told last, so it tells of the difference to that. -/
theorem tellsDifferences_chronicleAfter (requests : List Request) :
    (chronicleAfter requests).state.HoldsTold ∧
      TellsDifferences (chronicleAfter requests).state.payloads := by
  refine chronicleAfter_invariant
    (I := fun h => h.state.HoldsTold ∧ TellsDifferences h.state.payloads)
    ⟨.empty, fun d before row fields after h => ?_⟩ (fun h r hs => ?_) requests
  · cases before <;> cases h
  obtain ⟨hholds, htells⟩ := hs
  rcases h.perform_cases r with hsame | ⟨c, reply, s', result, hwrites, hanswer, hrun⟩
  · rw [hsame]
    exact ⟨hholds, htells⟩
  rw [hrun]
  rcases StoreState.effect_of_answer hanswer with
    ⟨-, rfl⟩ | ⟨s₁, events, records, hs₁, hrecords, rfl⟩
  · exact ⟨hholds, htells⟩
  refine ⟨hs₁.holdsTold hholds hrecords, ?_⟩
  show TellsDifferences (s₁.withRecords records).payloads
  rw [StoreState.payloads_withRecords, hrecords, hs₁.payloads_eq]
  refine htells.append fun d before row fields after hsplit => ?_
  have hmem : d.updated row fields ∈ events := hsplit ▸ by simp
  obtain ⟨hc, hevents⟩ := hs₁.eq_call hmem
  obtain ⟨id, u, old, hold, hu, hfields⟩ := hwrites.exists_update hc
  have hbefore : before = [] := by
    rw [hevents] at hsplit
    cases before with
    | nil => rfl
    | cons e before => cases before <;> cases (List.cons.inj hsplit).2
  have hlast : d.lastTold (d.rowId row) h.state.payloads = some old := by
    rw [hholds d id] at hold
    rw [Described.rowId_update hu, Described.rowId_of_lastTold hold, hold]
  rw [hbefore, List.append_nil]
  exact ⟨hfields, Described.nodup_fields hu, old, hlast, fun f => Described.mem_fields_iff hu⟩

/-- After any requests, whether they succeed or not: the records are numbered from one on and say of
their events what these say themselves; they come in groups, a change by itself or a transaction
with the balance rows it moved; under each key the versions count from one, told of as new first;
and updates name the fields in which the row differs from what was told of it last. -/
theorem outbox_shape (requests : List Request) :
    let s := stateAfter requests
    (∀ i r, s.outbox[i]? = some r → r.number = i + 1 ∧ r.Faithful) ∧
    (∃ groups : List (List LedgerEvent), s.payloads = groups.flatten ∧
      ∀ g ∈ groups, EventGroup g) ∧
    (∀ k i e, (balancesUnder k s.payloads)[i]? = some e → ∃ b : BalanceSnapshot, b.key = k ∧
      b.version.toNat = i + 1 ∧ e = if i = 0 then .balanceCreated b else .balanceUpdated b) ∧
    ∀ (d : Described) before row fields after,
      s.payloads = before ++ d.updated row fields :: after →
        fields ≠ [] ∧ fields.Nodup ∧ ∃ old, d.lastTold (d.rowId row) before = some old ∧
          ∀ f, f ∈ fields ↔ d.DiffersIn old row f := by
  intro s
  obtain ⟨calls, hcalls⟩ := exists_chronicleOf_eq requests
  have hs : (chronicleOf calls).state = s := by rw [hcalls, state_chronicleAfter]
  refine ⟨fun i r hr => ?_, ?_, fun k => ?_, ?_⟩
  · rw [← hs] at hr
    exact ⟨(numbered_chronicleOf calls).number_getElem hr,
      faithful_chronicleOf calls r (List.mem_of_getElem? hr)⟩
  · rw [← hs]
    exact eventGroups_chronicleOf calls
  · rw [← hs]
    exact (versioned_chronicleOf calls k).counted
  · have htells := (tellsDifferences_chronicleAfter requests).2
    rwa [state_chronicleAfter] at htells

end DoubleEntry
