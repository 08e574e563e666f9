import DoubleEntry.Proofs.Engine.Retained
import Mathlib.Logic.Relation

/-!
# Voids

A void is committed with the identifier of the transaction that it voids, and the store lets a
transaction be voided once, as long as it is there. So what voids what is one link for each void,
back to an earlier commit, and the table of voids holds exactly these links. `Chronicle.Linked` says
so of any calls; with fresh identifiers the links are between stored transactions, and following
them leads back in time (`not_voids_cycle`).

Of the calls that void one transaction at most one succeeds, whoever takes which turn. One that
begins after it finds the transaction, and builds a reversal of it that passes every check but one:
the reversal has its deltas, since the transaction had (`Transaction.exists_deltas_reversal`), and
no external identifier to collide. What it fails at is that the transaction is voided (`Refused`).

Main statement: `voids_once`.
-/

namespace DoubleEntry

open Ledger OrdMap

/-! ## Voids link back -/

/-- What voids tell of commits. -/
structure Chronicle.Linked (h : Chronicle) : Prop where
  stored : ∀ id t, h.state.transactions.get? id = some t → t ∈ h.committed ∧ t.id = id
  /-- The table holds the commits that void, each under the transaction it voids. -/
  voided : ∀ o r, h.state.voided.get? o = some r ↔
    ∃ t ∈ h.committed, t.reverses = some o ∧ t.id = r
  /-- What a commit voids was committed before. -/
  later : ∀ (j : Nat) (t : Transaction) (o : TransactionId), h.committed[j]? = some t →
    t.reverses = some o → ∃ (i : Nat) (u : Transaction), i < j ∧ h.committed[i]? = some u ∧ u.id = o
  reversible : ∀ t ∈ h.committed, ∃ ds, deltas t.entries = .ok ds

namespace Chronicle.Linked

theorem empty : Chronicle.empty.Linked where
  stored _ _ h := nomatch h
  voided _ _ := ⟨(nomatch ·), fun ⟨_, h, _⟩ => nomatch h⟩
  later _ _ _ h := nomatch h
  reversible _ h := nomatch h

section Commit

variable {s : StoreState} {commits : List Commit} {now : Timestamp} {t : Transaction}
  {rows : List BalanceSnapshot}

theorem get?_voidedWith (hlinked : Chronicle.Linked ⟨s, commits⟩)
    (hcheck : s.checkReverses t = .ok ()) (o r : TransactionId) :
    (s.voidedWith t).get? o = some r ↔ ∃ u,
      (u ∈ (Chronicle.mk s commits).committed ∨ u = t) ∧ u.reverses = some o ∧ u.id = r := by
  have hold := hlinked.voided o r
  have holder : (∃ u ∈ (Chronicle.mk s commits).committed, u.reverses = some o ∧ u.id = r) →
      ∃ u, (u ∈ (Chronicle.mk s commits).committed ∨ u = t) ∧ u.reverses = some o ∧ u.id = r :=
    fun ⟨u, hu, hlink⟩ => ⟨u, Or.inl hu, hlink⟩
  unfold StoreState.voidedWith
  cases ht : t.reverses with
  | none =>
    refine hold.trans ⟨holder, ?_⟩
    rintro ⟨u, hu | rfl, hlink⟩
    · exact ⟨u, hu, hlink⟩
    · cases ht.symm.trans hlink.1
  | some target =>
    have hfree := (StoreState.checkReverses_eq_ok hcheck ht).2
    dsimp only
    rw [get?_put]
    split
    · next ho =>
      subst ho
      constructor
      · intro hr
        cases hr
        exact ⟨t, Or.inr rfl, ht, rfl⟩
      · rintro ⟨u, hu | rfl, hlink⟩
        · have htable := (hlinked.voided o r).mpr ⟨u, hu, hlink⟩
          rw [contains_iff.mpr ⟨r, htable⟩] at hfree
          cases hfree
        · rw [hlink.2]
    · next ho =>
      refine hold.trans ⟨holder, ?_⟩
      rintro ⟨u, hu | rfl, hlink⟩
      · exact ⟨u, hu, hlink⟩
      · exact absurd (Option.some.inj (hlink.1.symm.trans ht)) ho

theorem commit (hlinked : Chronicle.Linked ⟨s, commits⟩) (hplan : s.planCommit now t = .ok rows)
    (records : List OutboxRecord) :
    Chronicle.Linked ⟨(s.record t rows).withRecords records, commits ++ [⟨now, t⟩]⟩ := by
  have hcommitted : (Chronicle.mk ((s.record t rows).withRecords records)
      (commits ++ [⟨now, t⟩])).committed = (Chronicle.mk s commits).committed ++ [t] :=
    List.map_append
  have hmem : ∀ u, u ∈ (Chronicle.mk s commits).committed ++ [t] ↔
      u ∈ (Chronicle.mk s commits).committed ∨ u = t := fun u => by
    rw [List.mem_append, List.mem_singleton]
  obtain ⟨ds, hds, -, hcheck, -⟩ := StoreState.planCommit_eq_ok hplan
  refine ⟨fun id u hu => ?_, fun o r => ?_, fun j u o hu ho => ?_, fun u hu => ?_⟩ <;>
    rw [hcommitted] at *
  · rw [hmem]
    change (s.transactions.put t.id t).get? id = some u at hu
    rw [get?_put] at hu
    split at hu
    · next hid =>
      cases hu
      exact ⟨Or.inr rfl, hid.symm⟩
    · exact (hlinked.stored id u hu).imp_left Or.inl
  · refine (get?_voidedWith hlinked hcheck o r).trans (exists_congr fun u => ?_)
    rw [hmem]
  · obtain ⟨hlt, -⟩ := List.getElem?_eq_some_iff.mp hu
    rw [List.length_append, List.length_singleton] at hlt
    by_cases hj : j < (Chronicle.mk s commits).committed.length
    · rw [List.getElem?_append_left hj] at hu
      obtain ⟨i, v, hij, hv, hid⟩ := hlinked.later j u o hu ho
      exact ⟨i, v, hij, by rw [List.getElem?_append_left (Nat.lt_trans hij hj), hv], hid⟩
    · obtain rfl : j = (Chronicle.mk s commits).committed.length := by omega
      rw [List.getElem?_concat_length] at hu
      cases hu
      obtain ⟨v, hv⟩ := contains_iff.mp (StoreState.checkReverses_eq_ok hcheck ho).1
      obtain ⟨hvmem, hid⟩ := hlinked.stored o v hv
      obtain ⟨i, hi⟩ := List.getElem?_of_mem hvmem
      obtain ⟨hij, -⟩ := List.getElem?_eq_some_iff.mp hi
      exact ⟨i, v, hij, by rw [List.getElem?_append_left hij, hi], hid⟩
  · rcases (hmem u).mp hu with hu | rfl
    · exact hlinked.reversible u hu
    · exact ⟨ds, hds⟩

end Commit

/-- Every call preserves the links. -/
theorem run {h : Chronicle} (hlinked : h.Linked) (m : Moment) (c : StoreCall) :
    (Chronicle.run m c h).2.Linked := by
  rcases Chronicle.run_effect m c h with hsame | ⟨s₁, events, records, hs₁, -, hrun⟩
  · rwa [hsame]
  · rw [hrun]
    cases hs₁ with
    | commit hplan => exact hlinked.commit hplan records
    | _ =>
      show Chronicle.Linked ⟨_, h.commits ++ []⟩
      rw [List.append_nil]
      exact ⟨hlinked.stored, hlinked.voided, hlinked.later, hlinked.reversible⟩

end Chronicle.Linked

theorem linked_interleave (asked : List (Operation × Stamp)) (turns : List Turn) :
    (interleave asked turns).chronicle.Linked := by
  obtain ⟨calls, hcalls⟩ := exists_chronicleOf_interleave asked turns
  rw [← hcalls]
  exact chronicleOf_invariant Chronicle.Linked.empty (fun m c _ h => h.run m c) calls

/-! ## Links between stored transactions -/

/-- A stored transaction voids another. -/
def StoreState.Voids (s : StoreState) (r o : TransactionId) : Prop :=
  ∃ t, s.transactions.get? r = some t ∧ t.reverses = some o

/-- One transaction was committed before another. -/
def Chronicle.Before (h : Chronicle) (a b : TransactionId) : Prop :=
  ∃ (i j : Nat) (t u : Transaction), i < j ∧ h.committed[i]? = some t ∧
    h.committed[j]? = some u ∧ t.id = a ∧ u.id = b

namespace Chronicle

variable {stamps : List Stamp} {h : Chronicle}

/-- The order of commits is one of transactions, since each is committed once. -/
theorem Before.trans (hkept : h.Kept stamps) {a b c : TransactionId} (hab : h.Before a b)
    (hbc : h.Before b c) : h.Before a c := by
  obtain ⟨i, j, t, u, hij, ht, hu, hta, hub⟩ := hab
  obtain ⟨j', k, u', v, hjk, hu', hv, hub', hvc⟩ := hbc
  have hids : ∀ {n : Nat} {w : Transaction}, h.committed[n]? = some w →
      (h.committed.map Transaction.id)[n]? = some w.id := by
    intro n w hw
    rw [List.getElem?_map, hw]
    rfl
  have hj : j = j' := by
    refine (List.getElem?_inj (List.getElem?_eq_some_iff.mp (hids hu)).1 hkept.distinct).mp ?_
    rw [hids hu, hids hu', hub, hub']
  exact ⟨i, k, t, v, Nat.lt_trans hij (hj ▸ hjk), ht, hv, hta, hvc⟩

theorem Before.irrefl (hkept : h.Kept stamps) (a : TransactionId) : ¬ h.Before a a := by
  rintro ⟨i, j, t, u, hij, ht, hu, hta, hua⟩
  have hpair := List.pairwise_iff_getElem.mp (List.pairwise_map.mp hkept.distinct)
  obtain ⟨hi, rfl⟩ := List.getElem?_eq_some_iff.mp ht
  obtain ⟨hj, rfl⟩ := List.getElem?_eq_some_iff.mp hu
  exact hpair i j hi hj hij (hta.trans hua.symm)

theorem voided_iff (hkept : h.Kept stamps) (hlinked : h.Linked) (o r : TransactionId) :
    h.state.voided.get? o = some r ↔ h.state.Voids r o := by
  rw [hlinked.voided]
  constructor
  · rintro ⟨t, ht, ho, hr⟩
    exact ⟨t, (hkept.transactions r t).mpr ⟨ht, hr⟩, ho⟩
  · rintro ⟨t, ht, ho⟩
    obtain ⟨hmem, hr⟩ := (hkept.transactions r t).mp ht
    exact ⟨t, hmem, ho, hr⟩

/-- A void is committed after what it voids. -/
theorem before_of_voids (hkept : h.Kept stamps) (hlinked : h.Linked) {r o : TransactionId}
    (hvoids : h.state.Voids r o) : h.Before o r := by
  obtain ⟨t, ht, ho⟩ := hvoids
  obtain ⟨hmem, hr⟩ := (hkept.transactions r t).mp ht
  obtain ⟨j, hj⟩ := List.getElem?_of_mem hmem
  obtain ⟨i, u, hij, hu, huo⟩ := hlinked.later j t o hj ho
  exact ⟨i, j, u, t, hij, hu, hj, huo, hr⟩

/-- Following voids back never comes round. -/
theorem not_voids_cycle (hkept : h.Kept stamps) (hlinked : h.Linked) (id : TransactionId) :
    ¬ Relation.TransGen h.state.Voids id id := by
  have hback : ∀ {r o}, Relation.TransGen h.state.Voids r o → h.Before o r := by
    intro r o hchain
    induction hchain with
    | single hlink => exact before_of_voids hkept hlinked hlink
    | tail _ hlink ih => exact (before_of_voids hkept hlinked hlink).trans hkept ih
  exact fun hcycle => Before.irrefl hkept id (hback hcycle)

/-- How voids are linked: the table holds exactly the links between stored transactions, each
transaction voids at most one and is voided by at most one, what voids is committed after what it
voids, and following voids never comes round. -/
structure VoidChains (h : Chronicle) : Prop where
  voided_iff : ∀ o r, h.state.voided.get? o = some r ↔ h.state.Voids r o
  void_unique : ∀ o r r', h.state.Voids r o → h.state.Voids r' o → r = r'
  voided_unique : ∀ o o' r, h.state.voided.get? o = some r → h.state.voided.get? o' = some r →
    o = o'
  before : ∀ o r, h.state.voided.get? o = some r → h.Before o r
  acyclic : ∀ id, ¬ Relation.TransGen h.state.Voids id id

theorem voidChains (hkept : h.Kept stamps) (hlinked : h.Linked) : h.VoidChains := by
  have hiff := voided_iff hkept hlinked
  refine ⟨hiff, fun o r r' hr hr' => ?_, fun o o' r ho ho' => ?_, fun o r hr => ?_,
    not_voids_cycle hkept hlinked⟩
  · rw [← hiff] at hr hr'
    exact Option.some.inj (hr.symm.trans hr')
  · obtain ⟨t, ht, hto⟩ := (hiff o r).mp ho
    obtain ⟨t', ht', hto'⟩ := (hiff o' r).mp ho'
    obtain rfl := Option.some.inj (ht.symm.trans ht')
    exact Option.some.inj (hto.symm.trans hto')
  · exact before_of_voids hkept hlinked ((hiff o r).mp hr)

end Chronicle

/-! ## One void succeeds -/

section Calls

variable {asked : List (Operation × Stamp)} (hfresh : FreshStamps (asked.map Prod.snd))

include hfresh

/-- A void that has succeeded has voided. -/
theorem voided_of_done {turns : List Turn} {i : Nat} {o : TransactionId} {stamp : Stamp}
    {r : Transaction} (hi : (interleave asked turns).callers[i]? =
      some ⟨.void o, stamp, .done (.ok r)⟩) :
    (interleave asked turns).chronicle.state.voided.get? o = some r.id ∧
      r.id = stamp.transactionId := by
  have hmeets := meets_interleave hfresh turns
  obtain ⟨hmem, hid, ho⟩ :
      r ∈ (interleave asked turns).chronicle.committed ∧ r.id = stamp.transactionId ∧
        r.reverses = some o := hmeets.callers i _ hi r rfl
  exact ⟨((linked_interleave asked turns).voided o r.id).mpr ⟨r, hmem, ho, rfl⟩, hid⟩

/-- Two calls that void one transaction do not both succeed. -/
theorem eq_of_done {turns : List Turn} {i j : Nat} {o : TransactionId} {stamp stamp' : Stamp}
    {r r' : Transaction} (hi : (interleave asked turns).callers[i]? =
      some ⟨.void o, stamp, .done (.ok r)⟩)
    (hj : (interleave asked turns).callers[j]? = some ⟨.void o, stamp', .done (.ok r')⟩) :
    i = j := by
  obtain ⟨hr, hid⟩ := voided_of_done hfresh hi
  obtain ⟨hr', hid'⟩ := voided_of_done hfresh hj
  have hsame : stamp.transactionId = stamp'.transactionId := by
    rw [← hid, ← hid', Option.some.inj (hr.symm.trans hr')]
  by_contra hij
  exact hfresh.transactionId_ne hij (asked_of_caller hi) (asked_of_caller hj) hsame

end Calls

/-! ## Every later void is refused -/

/-- A transaction is there, and it is voided. -/
structure StoreState.IsVoided (s : StoreState) (o : TransactionId) : Prop where
  stored : s.transactions.contains o = true
  voided : s.voided.contains o = true

theorem StoreState.IsVoided.of_keeps {s s' : StoreState} {o : TransactionId} (h : s.IsVoided o)
    (hkeeps : s.KeepsPostings s') : s'.IsVoided o :=
  ⟨hkeeps.transactions.contains h.stored, hkeeps.voided.contains h.voided⟩

theorem isVoided_of_voided {stamps : List Stamp} {h : Chronicle} (hkept : h.Kept stamps)
    (hlinked : h.Linked) {o r : TransactionId} (hvoid : h.state.voided.get? o = some r) :
    h.state.IsVoided o := by
  obtain ⟨t, ht, hto, -⟩ := (hlinked.voided o r).mp hvoid
  obtain ⟨j, hj⟩ := List.getElem?_of_mem ht
  obtain ⟨i, u, -, hu, hid⟩ := hlinked.later j t o hj hto
  have hstored := (hkept.transactions o u).mpr ⟨List.mem_of_getElem? hu, hid⟩
  exact ⟨contains_iff.mpr ⟨u, hstored⟩, contains_iff.mpr ⟨r, hvoid⟩⟩

/-- How far a call has come that voids a transaction which is voided already. -/
inductive Refused (o : TransactionId) (own : Stamp) : Nat → Action Transaction → Prop
  | start : Refused o own 0 (Ledger.void o own)
  | found {t : Transaction} (hid : t.id = o) (hdeltas : ∃ ds, deltas t.entries = .ok ds) :
    Refused o own 1 (Ledger.commit (t.reversal own))
  | refused (n : Nat) : Refused o own (n + 2) (.done (.error (.error (.alreadyVoided o))))

theorem Refused.eq_of_done {o : TransactionId} {own : Stamp} {n : Nat}
    {result : Except (Failure EngineError) Transaction} (h : Refused o own n (.done result)) :
    result = .error (.error (.alreadyVoided o)) := by
  cases h with
  | refused n => rfl

theorem Refused.eq_of_two_le {o : TransactionId} {own : Stamp} {n : Nat} {p : Action Transaction}
    (h : Refused o own n p) (hn : 2 ≤ n) : p = .done (.error (.error (.alreadyVoided o))) := by
  cases h with
  | start => omega
  | found _ _ => omega
  | refused n => rfl

/-- A reversal of a voided transaction fails at nothing but that it is voided. -/
theorem StoreState.commit_of_isVoided {s : StoreState} {o : TransactionId} (hs : s.IsVoided o)
    {t : Transaction} (hid : t.id = o) (hdeltas : ∃ ds, deltas t.entries = .ok ds) (own : Stamp)
    (m : Moment) :
    s.answer m (.commitTransaction (t.reversal own)) = .error (.error (.alreadyVoided o)) := by
  subst hid
  obtain ⟨ds, hds⟩ := Transaction.exists_deltas_reversal own hdeltas
  have hcheck : s.checkReverses (t.reversal own) = .error (.error (.alreadyVoided t.id)) := by
    show (refuseIf (!s.transactions.contains t.id) _ >>= fun _ =>
      refuseIf (s.voided.contains t.id) _) = _
    rw [hs.stored, hs.voided]
    rfl
  show s.commit m (t.reversal own) = _
  unfold commit planCommit
  rw [hds, hcheck]
  rfl

/-- A turn of such a call changes nothing, and is one step towards the refusal. -/
theorem Refused.step {o : TransactionId} {own : Stamp} {n : Nat} {p : Action Transaction}
    (hp : Refused o own n p) {h : Chronicle} (hlinked : h.Linked) (hs : h.state.IsVoided o)
    (m : Moment) : ∃ q, p.step (Chronicle.run m) h = (q, h) ∧ Refused o own (n + 1) q := by
  cases hp with
  | start =>
    obtain ⟨t, ht⟩ := contains_iff.mp hs.stored
    obtain ⟨hmem, hid⟩ := hlinked.stored o t ht
    have hrun : Chronicle.run m (.findTransaction o) h = (.ok (some t), h) := by
      rw [Chronicle.run_eq_answer]
      show (Except.ok (h.state.transactions.get? o), Chronicle.mk h.state (h.commits ++ [])) = _
      rw [ht, List.append_nil]
      rfl
    exact ⟨_, Prog.step_of_ok hrun, .found hid (hlinked.reversible t hmem)⟩
  | @found t hid hdeltas =>
    have hrun : Chronicle.run m (.commitTransaction (t.reversal own)) h =
        (.error (.error (.alreadyVoided o)), h) := by
      rw [Chronicle.run_eq_answer, StoreState.commit_of_isVoided hs hid hdeltas]
    exact ⟨_, Prog.step_of_error hrun, .refused 0⟩
  | refused n => exact ⟨_, rfl, .refused (n + 1)⟩

section Later

variable {asked : List (Operation × Stamp)} {turns : List Turn} {i : Nat} {o : TransactionId}
  {stamp : Stamp}

/-- A call that voids a transaction which is voided already gets one step further with each of its
turns, whatever the others do. -/
theorem refused_interleave (hfresh : FreshStamps (asked.map Prod.snd))
    (hvoided : (interleave asked turns).chronicle.state.IsVoided o)
    (hi : asked[i]? = some (.void o, stamp)) (hturns : ∀ turn ∈ turns, turn.caller ≠ i)
    (more : List Turn) : ∃ p : Action Transaction,
      (interleave asked (turns ++ more)).callers[i]? = some ⟨.void o, stamp, p⟩ ∧
      Refused o stamp (more.filter fun turn => turn.caller = i).length p := by
  induction more using List.reverseRecOn with
  | nil =>
    refine ⟨_, ?_, .start⟩
    rw [List.append_nil, callers_of_no_turn hturns, hi]
    rfl
  | append_singleton more turn ih =>
    obtain ⟨p, hp, hrefused⟩ := ih
    rw [← List.append_assoc, interleave_concat, List.filter_append, List.length_append]
    by_cases hturn : turn.caller = i
    · have hvoided' := hvoided.of_keeps (keepsPostings_interleave hfresh turns more)
      obtain ⟨q, hstep, hq⟩ := hrefused.step (linked_interleave asked _) hvoided' turn.moment
      rw [List.filter_cons_of_pos (by simpa using hturn)]
      refine ⟨q, ?_, hq⟩
      subst hturn
      rw [Interleaving.take_callers_self hp]
      exact congrArg (fun next => some (Caller.mk (.void o) stamp next.1)) hstep
    · rw [List.filter_cons_of_neg (by simpa using hturn)]
      exact ⟨p, (Interleaving.take_callers_of_ne _ hturn).trans hp, hrefused⟩

end Later

/-- Any operations at work together, on stamps that are fresh, whatever turns they take: voids form
chains. Of the calls that void one transaction at most one succeeds. And once one has, a call that
has had no turn yet is refused on its second turn, with no change on any of its turns. -/
theorem voids_once {asked : List (Operation × Stamp)} (hfresh : FreshStamps (asked.map Prod.snd))
    (turns : List Turn) :
    let n := interleave asked turns
    n.chronicle.VoidChains ∧
    (∀ (i j : Nat) o stamp stamp' r r', n.callers[i]? = some ⟨.void o, stamp, .done (.ok r)⟩ →
      n.callers[j]? = some ⟨.void o, stamp', .done (.ok r')⟩ → i = j) ∧
    ∀ (i j : Nat) o stamp stamp' r, n.callers[j]? = some ⟨.void o, stamp, .done (.ok r)⟩ →
      asked[i]? = some (.void o, stamp') → (∀ turn ∈ turns, turn.caller ≠ i) → ∀ more,
      let n' := interleave asked (turns ++ more)
      (∀ turn, turn.caller = i → (n'.take turn).chronicle = n'.chronicle) ∧
      (∀ result, n'.callers[i]? = some ⟨.void o, stamp', .done result⟩ →
        result = .error (.error (.alreadyVoided o))) ∧
      (2 ≤ (more.filter fun turn => turn.caller = i).length → n'.callers[i]? =
        some ⟨.void o, stamp', .done (.error (.error (.alreadyVoided o)))⟩) := by
  intro n
  have hkept : n.chronicle.Kept (asked.map Prod.snd) := (meets_interleave hfresh turns).invariant
  have hlinked := linked_interleave asked turns
  refine ⟨Chronicle.voidChains hkept hlinked,
    fun i j o stamp stamp' r r' hi hj => eq_of_done hfresh hi hj, ?_⟩
  intro i j o stamp stamp' r hj hi hturns more n'
  obtain ⟨hvoid, -⟩ := voided_of_done hfresh hj
  have hvoided := isVoided_of_voided hkept hlinked hvoid
  obtain ⟨p, hp, hrefused⟩ := refused_interleave hfresh hvoided hi hturns more
  refine ⟨fun turn hturn => ?_, fun result hresult => ?_, fun htwo => ?_⟩
  · obtain ⟨q, hstep, -⟩ := hrefused.step (linked_interleave asked _)
      (hvoided.of_keeps (keepsPostings_interleave hfresh turns more)) turn.moment
    subst hturn
    rw [Interleaving.take_of_caller hp]
    exact congrArg Prod.snd hstep
  · cases hp.symm.trans hresult
    exact hrefused.eq_of_done
  · obtain rfl := hrefused.eq_of_two_le htwo
    exact hp

namespace Sample

/-- A transfer is posted, and three calls void it. -/
def voids : List (Operation × Stamp) :=
  (opened.map Request.operation ++ [transfer 2 3 750 2 "t1", .void (stamp 5).transactionId,
    .void (stamp 5).transactionId, .void (stamp 5).transactionId]).zipIdx.map
      fun p => (p.1, stamp p.2)

/-- The first two find the transfer, and the second commits first. -/
def voidTurns : List Turn :=
  [0, 1, 2, 3, 4, 5, 5, 5, 5, 5, 6, 7, 7, 6].zipIdx.map fun p =>
    ⟨p.1, now, fun i => uuid (p.2 * 100 + i)⟩

/-- The transaction that a call was asked to void, and the reversal it was answered with. -/
def reversed? : Caller → Option (TransactionId × Transaction)
  | ⟨.void id, _, .done (.ok r)⟩ => some (id, r)
  | _ => none

theorem eq_of_reversed? {c : Caller} {id : TransactionId} {r : Transaction}
    (h : reversed? c = some (id, r)) : ∃ stamp, c = ⟨.void id, stamp, .done (.ok r)⟩ := by
  unfold reversed? at h
  split at h
  · cases h
    exact ⟨_, rfl⟩
  · cases h

end Sample

/-- The third call comes too late. -/
theorem voids_once_sample :
    FreshStamps (Sample.voids.map Prod.snd) ∧
      (∃ stamp r, (interleave Sample.voids Sample.voidTurns).callers[7]? =
        some ⟨.void (Sample.stamp 5).transactionId, stamp, .done (.ok r)⟩) ∧
      Sample.voids[8]? = some (.void (Sample.stamp 5).transactionId, Sample.stamp 8) ∧
      (∀ turn ∈ Sample.voidTurns, turn.caller ≠ 8) ∧
      (interleave Sample.voids (Sample.voidTurns ++
        [⟨8, Sample.now, fun _ => Sample.uuid 0⟩,
          ⟨8, Sample.now, fun _ => Sample.uuid 0⟩])).callers[8]? =
          some ⟨.void (Sample.stamp 5).transactionId, Sample.stamp 8,
            .done (.error (.error (.alreadyVoided (Sample.stamp 5).transactionId)))⟩ := by
  have hfresh : FreshStamps (Sample.voids.map Prod.snd) := Sample.freshStamps (n := 9) (by decide)
  have hdone : ((interleave Sample.voids Sample.voidTurns).callers[7]?.bind
      Sample.reversed?).map Prod.fst = some (Sample.stamp 5).transactionId := by decide +kernel
  have hwaits : ∀ turn ∈ Sample.voidTurns, turn.caller ≠ 8 := by decide
  obtain ⟨⟨o, r⟩, hbind, ho⟩ := Option.map_eq_some_iff.mp hdone
  obtain ⟨c, hc, hreversed⟩ := Option.bind_eq_some_iff.mp hbind
  obtain ⟨stamp, rfl⟩ := Sample.eq_of_reversed? hreversed
  obtain rfl : o = (Sample.stamp 5).transactionId := ho
  obtain ⟨-, -, hlate⟩ := voids_once hfresh Sample.voidTurns
  exact ⟨hfresh, ⟨stamp, r, hc⟩, rfl, hwaits,
    (hlate 8 7 _ stamp _ r hc rfl hwaits _).2.2 (by decide)⟩

end DoubleEntry
