import DoubleEntry.Proofs.Balance.Deltas
import DoubleEntry.Proofs.Engine.Writes

/-!
# Balance rows and the history of commits

The balance rows are kept up to date commit by commit, each commit adding its deltas to the rows it
touches. Recomputed from the whole history they are the same: a row `Sums` the commits that have an
entry under its key, in their order. The invariant `Chronicle.Summed` says so of all rows at once;
every call preserves it, whatever its arguments.

Main statement: `balances_sum_history`.
-/

namespace DoubleEntry

open Ledger OrdMap

/-! ## Rows and commits -/

/-- The commits that touch a key, oldest first. -/
def touching (k : BalanceKey) (commits : List Commit) : List Commit :=
  commits.filter fun c => c.transaction.Touches k

/-- Add to the totals of a key what a commit adds there. -/
def addCommit (k : BalanceKey) (totals : Units × Units) (c : Commit) :
    Except ValueError (Units × Units) := do
  let d ← c.transaction.deltaUnder k
  addDelta totals d

/-- The row of a key as the commits that touch the key make it. -/
structure BalanceSnapshot.Sums (b : BalanceSnapshot) (k : BalanceKey) (cs : List Commit) :
    Prop where
  key : b.key = k
  /-- The version counts the commits. -/
  version : b.version.toNat = cs.length
  first : ∃ c, cs.head? = some c ∧ b.createdAt = c.time
  last : ∃ c, cs.getLast? = some c ∧ b.lastTransactionId = c.transaction.id ∧
    b.modifiedAt = c.time
  totals : cs.foldlM (addCommit k) (.zero, .zero) = .ok (b.debitTotal, b.creditTotal)

theorem touching_concat_of_touches {k : BalanceKey} {c : Commit} (h : c.transaction.Touches k)
    (commits : List Commit) : touching k (commits ++ [c]) = touching k commits ++ [c] := by
  unfold touching
  rw [List.filter_append]
  refine congrArg _ (List.filter_cons_of_pos ?_)
  exact decide_eq_true h

theorem touching_concat_of_not_touches {k : BalanceKey} {c : Commit}
    (h : ¬ c.transaction.Touches k) (commits : List Commit) :
    touching k (commits ++ [c]) = touching k commits := by
  unfold touching
  rw [List.filter_append, List.filter_cons_of_neg (by simpa using h)]
  exact List.append_nil _

/-- The first commit under a key makes a row of it. -/
theorem BalanceSnapshot.Sums.of_first {k : BalanceKey} {c : Commit} {d : BalanceDelta}
    {b : BalanceSnapshot} (hd : c.transaction.deltaUnder k = .ok d) (hkey : d.key = k)
    (hb : applyDelta none d c.transaction.id c.time = .ok b) : b.Sums k [c] := by
  obtain ⟨hbkey, htotals, hversion, hlast, hcreated, hmodified⟩ := applyDelta_eq_ok hb
  refine ⟨hbkey.trans hkey, hversion, ⟨c, rfl, hcreated⟩, ⟨c, rfl, hlast, hmodified⟩, ?_⟩
  rw [List.foldlM_cons]
  exact bind_eq_ok.mpr ⟨_, bind_eq_ok.mpr ⟨d, hd, htotals⟩, rfl⟩

/-- Every further commit under the key goes on from its row. -/
theorem BalanceSnapshot.Sums.concat {k : BalanceKey} {cs : List Commit} {c : Commit}
    {d : BalanceDelta} {b b' : BalanceSnapshot} (h : b.Sums k cs)
    (hd : c.transaction.deltaUnder k = .ok d) (hkey : d.key = k)
    (hb : applyDelta (some b) d c.transaction.id c.time = .ok b') : b'.Sums k (cs ++ [c]) := by
  obtain ⟨hbkey, htotals, hversion, hlast, hcreated, hmodified⟩ := applyDelta_eq_ok hb
  obtain ⟨c₀, hhead, hc₀⟩ := h.first
  refine ⟨hbkey.trans hkey, ?_, ⟨c₀, ?_, hcreated.trans hc₀⟩, ⟨c, ?_, hlast, hmodified⟩, ?_⟩
  · rw [hversion, List.length_append, ← h.version]
    rfl
  · rw [List.head?_append, hhead]
    rfl
  · exact List.getLast?_concat
  · rw [List.foldlM_append]
    refine bind_eq_ok.mpr ⟨_, h.totals, ?_⟩
    rw [List.foldlM_cons]
    exact bind_eq_ok.mpr ⟨_, bind_eq_ok.mpr ⟨d, hd, htotals⟩, rfl⟩

/-! ## One commit -/

section Commit

variable {s : StoreState} {now : Timestamp} {t : Transaction} {rows : List BalanceSnapshot}

/-- The rows that a commit writes come in the order of their keys: for every key touched, the row
after the delta there. -/
theorem StoreState.rows_in_order (h : s.planCommit now t = .ok rows) :
    (rows.map BalanceSnapshot.key).Pairwise (fun k k' => compare k k' = .lt) ∧
      (∀ k, k ∈ rows.map BalanceSnapshot.key ↔ t.Touches k) ∧
      ∀ b ∈ rows, ∃ d, t.deltaUnder b.key = .ok d ∧ d.key = b.key ∧
        applyDelta (s.balances.get? b.key) d t.id now = .ok b := by
  obtain ⟨ds, hds, -, -, hrows⟩ := StoreState.planCommit_eq_ok h
  obtain ⟨hascending, htouched, hdelta⟩ := deltas_in_order hds
  have hkeys : ds.map BalanceDelta.key = rows.map BalanceSnapshot.key := by
    rw [← List.forall₂_eq_eq_eq, List.forall₂_map_left_iff, List.forall₂_map_right_iff]
    exact hrows.imp fun d b hb => (applyDelta_eq_ok hb).1.symm
  rw [← hkeys]
  refine ⟨hascending, htouched, fun b hb => ?_⟩
  obtain ⟨d, hd, happly⟩ := exists_mem_of_forall₂ hrows hb
  have hkey : b.key = d.key := (applyDelta_eq_ok happly).1
  rw [hkey]
  exact ⟨d, hdelta d hd, rfl, happly⟩

theorem StoreState.rows_of_planCommit (h : s.planCommit now t = .ok rows) :
    (rows.map BalanceSnapshot.key).Nodup ∧
      (∀ k, k ∈ rows.map BalanceSnapshot.key ↔ t.Touches k) ∧
      ∀ b ∈ rows, ∃ d, t.deltaUnder b.key = .ok d ∧ d.key = b.key ∧
        applyDelta (s.balances.get? b.key) d t.id now = .ok b := by
  obtain ⟨hascending, hrest⟩ := rows_in_order h
  exact ⟨nodup_of_ascending hascending, hrest⟩

/-- A commit leaves the rows of keys it does not touch. -/
theorem StoreState.get?_record_of_not_touches (h : s.planCommit now t = .ok rows) {k : BalanceKey}
    (hk : ¬ t.Touches k) : (s.record t rows).balances.get? k = s.balances.get? k := by
  obtain ⟨-, htouched, -⟩ := rows_of_planCommit h
  exact get?_putRows_of_not_mem (fun hmem => hk ((htouched k).mp hmem)) s.balances

/-- The row of a key that a commit touches. -/
theorem StoreState.get?_record_of_touches (h : s.planCommit now t = .ok rows) {k : BalanceKey}
    (hk : t.Touches k) :
    ∃ b d, (s.record t rows).balances.get? k = some b ∧ t.deltaUnder k = .ok d ∧ d.key = k ∧
      applyDelta (s.balances.get? k) d t.id now = .ok b := by
  obtain ⟨hnodup, htouched, hrows⟩ := rows_of_planCommit h
  obtain ⟨b, hb, rfl⟩ := List.mem_map.mp ((htouched k).mpr hk)
  obtain ⟨d, hd, hkey, happly⟩ := hrows b hb
  exact ⟨b, d, get?_putRows_of_mem hnodup hb s.balances, hd, hkey, happly⟩

end Commit

/-! ## All commits -/

/-- Every row sums the commits that touch its key, and there are rows for touched keys only. -/
structure Chronicle.Summed (h : Chronicle) : Prop where
  sums : ∀ k b, h.state.balances.get? k = some b → b.Sums k (touching k h.commits)
  untouched : ∀ k, h.state.balances.get? k = none → touching k h.commits = []

namespace Chronicle.Summed

theorem empty : Chronicle.empty.Summed where
  sums _ _ h := nomatch h
  untouched _ _ := rfl

theorem commit {s : StoreState} {commits : List Commit} {c : Commit} {rows : List BalanceSnapshot}
    {s' : StoreState} (hsummed : Chronicle.Summed ⟨s, commits⟩)
    (hplan : s.planCommit c.time c.transaction = .ok rows)
    (hs' : s'.balances = (s.record c.transaction rows).balances) :
    Chronicle.Summed ⟨s', commits ++ [c]⟩ := by
  refine ⟨fun k b hb => ?_, fun k hk => ?_⟩
  · change s'.balances.get? k = _ at hb
    rw [hs'] at hb
    by_cases htouches : c.transaction.Touches k
    · obtain ⟨b', d, hb', hd, hkey, happly⟩ := StoreState.get?_record_of_touches hplan htouches
      cases hb.symm.trans hb'
      show b.Sums k (touching k (commits ++ [c]))
      rw [touching_concat_of_touches htouches]
      cases hold : s.balances.get? k with
      | none =>
        rw [hold] at happly
        rw [hsummed.untouched k hold]
        exact .of_first hd hkey happly
      | some old =>
        rw [hold] at happly
        exact (hsummed.sums k old hold).concat hd hkey happly
    · rw [StoreState.get?_record_of_not_touches hplan htouches] at hb
      show b.Sums k (touching k (commits ++ [c]))
      rw [touching_concat_of_not_touches htouches]
      exact hsummed.sums k b hb
  · change s'.balances.get? k = _ at hk
    rw [hs'] at hk
    by_cases htouches : c.transaction.Touches k
    · obtain ⟨b, d, hb, -⟩ := StoreState.get?_record_of_touches hplan htouches
      cases hk.symm.trans hb
    · rw [StoreState.get?_record_of_not_touches hplan htouches] at hk
      show touching k (commits ++ [c]) = []
      rw [touching_concat_of_not_touches htouches]
      exact hsummed.untouched k hk

theorem samePostings {s s' : StoreState} {commits : List Commit}
    (hsummed : Chronicle.Summed ⟨s, commits⟩) (hsame : s.SamePostings s') :
    Chronicle.Summed ⟨s', commits⟩ := by
  obtain ⟨hsome, hnone⟩ := hsummed
  dsimp only at hsome hnone
  refine ⟨fun k b hb => hsome k b ?_, fun k hk => hnone k ?_⟩
  · rwa [← hsame.balances]
  · rwa [← hsame.balances]

/-- Every call preserves the invariant, whatever its arguments. -/
theorem run (m : Moment) (c : StoreCall) (h : Chronicle) (hsummed : h.Summed) :
    (Chronicle.run m c h).2.Summed := by
  rcases Chronicle.run_cases m c h with
    ⟨t, rows, s', hplan, -, ⟨records, rfl⟩, hrun⟩ | ⟨s', hsame, hrun⟩
  · rw [hrun]
    exact hsummed.commit (c := ⟨m.now, t⟩) hplan rfl
  · rw [hrun]
    exact hsummed.samePostings hsame

end Chronicle.Summed

theorem summed_chronicleOf (calls : List (Moment × StoreCall)) : (chronicleOf calls).Summed :=
  chronicleOf_invariant .empty Chronicle.Summed.run calls

theorem summed_chronicleAfter (requests : List Request) : (chronicleAfter requests).Summed := by
  obtain ⟨calls, hcalls⟩ := exists_chronicleOf_eq requests
  rw [← hcalls]
  exact summed_chronicleOf calls

/-- The transactions committed are those that the outbox tells of. -/
theorem recorded_chronicleOf (calls : List (Moment × StoreCall)) :
    (chronicleOf calls).state.recorded = (chronicleOf calls).commits.map Commit.transaction := by
  refine chronicleOf_invariant
    (I := fun h => h.state.recorded = h.commits.map Commit.transaction) rfl ?_ calls
  intro m c h hrecorded
  rcases Chronicle.run_cases m c h with ⟨t, rows, s', -, hs', -, hrun⟩ | ⟨s', hsame, hrun⟩
  · rw [hrun]
    have hcommits : (h.commits ++ [Commit.mk m.now t]).map Commit.transaction =
        h.commits.map Commit.transaction ++ [t] := List.map_append
    exact (hs'.trans (congrArg (· ++ [t]) hrecorded)).trans hcommits.symm
  · rw [hrun]
    exact hsame.recorded.trans hrecorded

/-! ## Reading balances -/

/-- What a layer holds according to its row; nothing where there is none. -/
def layerOf (side : Side) : Option BalanceSnapshot → LayerBalance
  | some b => .ofSnapshot side b
  | none => .zero

theorem AccountBalance.absorb_pending {a : AccountBalance} {b : BalanceSnapshot}
    (h : b.key = ⟨a.accountId, a.journalId, a.currency, .pending⟩) :
    a.absorb b = { a with pending := .ofSnapshot a.side b } := by
  obtain ⟨haccount, hjournal, hcurrency, hlayer⟩ := BalanceKey.mk.inj h
  unfold absorb
  rw [if_pos ⟨haccount, hjournal, hcurrency⟩, hlayer]

theorem AccountBalance.absorb_settled {a : AccountBalance} {b : BalanceSnapshot}
    (h : b.key = ⟨a.accountId, a.journalId, a.currency, .settled⟩) :
    a.absorb b = { a with settled := .ofSnapshot a.side b } := by
  obtain ⟨haccount, hjournal, hcurrency, hlayer⟩ := BalanceKey.mk.inj h
  unfold absorb
  rw [if_pos ⟨haccount, hjournal, hcurrency⟩, hlayer]

/-- The balance of an account tells its two rows. -/
theorem AccountBalance.ofSnapshots_balanceRows {s : StoreState}
    (hkey : ∀ k b, s.balances.get? k = some b → b.key = k) (account : AccountId)
    (journal : JournalId) (currency : Currency) (side : Side) :
    ofSnapshots account journal currency side (s.balanceRows account journal currency) =
      ⟨account, journal, currency, side,
        layerOf side (s.balances.get? ⟨account, journal, currency, .pending⟩),
        layerOf side (s.balances.get? ⟨account, journal, currency, .settled⟩)⟩ := by
  unfold ofSnapshots StoreState.balanceRows Layer.all
  cases hp : s.balances.get? ⟨account, journal, currency, .pending⟩ with
  | none =>
    cases hs : s.balances.get? ⟨account, journal, currency, .settled⟩ with
    | none =>
      simp only [List.filterMap_cons, List.filterMap_nil, hp, hs]
      rfl
    | some b =>
      simp only [List.filterMap_cons, List.filterMap_nil, hp, hs]
      exact absorb_settled (hkey _ b hs)
  | some p =>
    cases hs : s.balances.get? ⟨account, journal, currency, .settled⟩ with
    | none =>
      simp only [List.filterMap_cons, List.filterMap_nil, hp, hs]
      exact absorb_pending (hkey _ p hp)
    | some b =>
      simp only [List.filterMap_cons, List.filterMap_nil, hp, hs, List.foldl_cons, List.foldl_nil]
      rw [absorb_pending (hkey _ p hp)]
      exact absorb_settled (hkey _ b hs)

theorem StoreState.perform_accountBalance {s : StoreState} {id : AccountId} {a : Account}
    (ha : s.accounts.get? id = some a) (journal : JournalId) (currency : Currency) (stamp : Stamp)
    (m : Moment) :
    s.perform ⟨.accountBalance id journal currency, stamp, m⟩ =
      (.ok (.ofSnapshots id journal currency a.normalBalance
        (s.balanceRows id journal currency)), s) := by
  refine perform_of_run ?_
  show (Ledger.accountBalance id journal currency).run (Chronicle.run m) ⟨s, []⟩ = _
  unfold Ledger.accountBalance
  rw [Prog.run_bind, run_findAccount]
  dsimp only
  rw [ha]
  show (ask (.loadBalances id journal currency) >>= _).run _ _ = _
  rw [Prog.run_bind, Chronicle.run_ask_read rfl rfl]
  rfl

/-! ## The history of a row -/

theorem touching_eq_nil_iff {k : BalanceKey} {commits : List Commit} :
    touching k commits = [] ↔ ∀ c ∈ commits, ¬ c.transaction.Touches k := by
  unfold touching
  rw [List.filter_eq_nil_iff]
  simp

theorem Chronicle.Summed.exists_row_iff {h : Chronicle} (hsummed : h.Summed) (k : BalanceKey) :
    (∃ b, h.state.balances.get? k = some b) ↔ ∃ c ∈ h.commits, c.transaction.Touches k := by
  constructor
  · rintro ⟨b, hb⟩
    obtain ⟨c, hc, -⟩ := (hsummed.sums k b hb).first
    have hmem : c ∈ touching k h.commits := List.mem_of_mem_head? hc
    obtain ⟨hc, htouches⟩ := List.mem_filter.mp hmem
    exact ⟨c, hc, of_decide_eq_true htouches⟩
  · rintro ⟨c, hc, htouches⟩
    cases hk : h.state.balances.get? k with
    | some b => exact ⟨b, rfl⟩
    | none => exact absurd htouches (touching_eq_nil_iff.mp (hsummed.untouched k hk) c hc)

/-- A call commits an entry under a key, or leaves its row. -/
theorem Chronicle.get?_run (m : Moment) (c : StoreCall) (h : Chronicle) (k : BalanceKey) :
    (∃ new, (Chronicle.run m c h).2.commits = h.commits ++ [new] ∧ new.transaction.Touches k) ∨
      (Chronicle.run m c h).2.state.balances.get? k = h.state.balances.get? k := by
  rcases Chronicle.run_cases m c h with
    ⟨t, rows, s', hplan, -, ⟨records, rfl⟩, hrun⟩ | ⟨s', hsame, hrun⟩
  · rw [hrun]
    by_cases htouches : t.Touches k
    · exact Or.inl ⟨⟨m.now, t⟩, rfl, htouches⟩
    · exact Or.inr (StoreState.get?_record_of_not_touches hplan htouches)
  · rw [hrun]
    exact Or.inr (congrArg (get? k) hsame.balances)

/-- After any store calls, by whatever operations and in whatever order, whether they succeed or
not (a run of requests makes such calls, by `exists_chronicleOf_eq`): the commits made are the ones
the outbox tells of; there is a row for a key exactly if an entry under the key was committed; the
row sums the commits that touch the key; one more call commits an entry under the key or leaves the
row; and reading the balance of an account comes out with what the rows say, or zero. -/
theorem balances_sum_history (calls : List (Moment × StoreCall)) (k : BalanceKey) :
    let h := chronicleOf calls
    h.state.recorded = h.commits.map Commit.transaction ∧
    ((∃ b, h.state.balances.get? k = some b) ↔
      ∃ c ∈ h.commits, ∃ e ∈ c.transaction.entries, e.balanceKey = k) ∧
    (∀ b, h.state.balances.get? k = some b → b.Sums k (touching k h.commits)) ∧
    (∀ m c, (∃ new, (Chronicle.run m c h).2.commits = h.commits ++ [new] ∧
        new.transaction.Touches k) ∨
      (Chronicle.run m c h).2.state.balances.get? k = h.state.balances.get? k) ∧
    (∀ id journal currency a stamp m, h.state.accounts.get? id = some a →
      h.state.perform ⟨.accountBalance id journal currency, stamp, m⟩ =
        (.ok ⟨id, journal, currency, a.normalBalance,
          layerOf a.normalBalance (h.state.balances.get? ⟨id, journal, currency, .pending⟩),
          layerOf a.normalBalance (h.state.balances.get? ⟨id, journal, currency, .settled⟩)⟩,
        h.state)) := by
  intro h
  have hsummed := summed_chronicleOf calls
  refine ⟨recorded_chronicleOf calls, ?_, hsummed.sums k, fun m c => Chronicle.get?_run m c h k, ?_⟩
  · rw [hsummed.exists_row_iff]
    exact exists_congr fun c => and_congr_right fun _ => List.mem_map
  · intro id journal currency a stamp m ha
    rw [StoreState.perform_accountBalance ha, AccountBalance.ofSnapshots_balanceRows]
    exact fun k b hb => (hsummed.sums k b hb).key

/-- On the sample ledger, two transfers to one account and a void of the first leave a row of that
account. -/
theorem balances_sum_history_sample :
    let requests := Sample.opened ++
      [Sample.request 100 (Sample.transfer 3 2 250 2 "a"),
        Sample.request 200 (Sample.transfer 3 4 125 3 "b"),
        Sample.request 300 (.void ⟨Sample.uuid 100⟩)]
    let k := Sample.dollarsOf 3
    ∃ calls b a, chronicleOf calls = chronicleAfter requests ∧
      (chronicleOf calls).state.balances.get? k = some b ∧
      b.Sums k (touching k (chronicleOf calls).commits) ∧
      (chronicleOf calls).state.accounts.get? k.accountId = some a ∧
      ((chronicleOf calls).state.perform (Sample.request 400
        (.accountBalance k.accountId k.journalId k.currency))).1 =
        .ok ⟨k.accountId, k.journalId, k.currency, a.normalBalance, .zero,
          .ofSnapshot a.normalBalance b⟩ := by
  intro requests k
  obtain ⟨calls, hcalls⟩ := exists_chronicleOf_eq requests
  obtain ⟨b, hb⟩ : ∃ b, (chronicleOf calls).state.balances.get? k = some b := by
    rw [hcalls]
    exact Option.isSome_iff_exists.mp (by decide +kernel)
  obtain ⟨a, ha⟩ : ∃ a, (chronicleOf calls).state.accounts.get? k.accountId = some a := by
    rw [hcalls]
    exact Option.isSome_iff_exists.mp (by decide +kernel)
  have hpending : (chronicleOf calls).state.balances.get?
      ⟨k.accountId, k.journalId, k.currency, .pending⟩ = none := by
    rw [hcalls]
    decide +kernel
  let r := Sample.request 400 (.accountBalance k.accountId k.journalId k.currency)
  have hread := (balances_sum_history calls k).2.2.2.2 k.accountId k.journalId k.currency a
    r.stamp r.moment ha
  refine ⟨calls, b, a, hcalls, hb, (balances_sum_history calls k).2.2.1 b hb, ha, ?_⟩
  refine (congrArg Prod.fst hread).trans ?_
  rw [hpending, show get? (BalanceKey.mk k.accountId k.journalId k.currency .settled) _ = _ from hb]
  rfl

end DoubleEntry
