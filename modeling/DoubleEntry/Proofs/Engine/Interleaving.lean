import DoubleEntry.Proofs.Engine.Operations

/-!
# Operations at work together

Between two store calls of an operation, others may make theirs. A `Caller` is an operation under
way with the calls it has yet to make; a `Turn` lets one caller make its next call. `interleave` is
what any turns lead to, with any number of callers that start from empty tables: an operation that
has had no turn has not begun, and one that gets no more turns is never done.

* The chronicle that turns lead to is one of calls (`exists_chronicleOf_interleave`), so all that
  holds after any calls holds here.
* Requests that wait for each other are one way to take turns (`exists_turns`).
-/

namespace DoubleEntry

open Ledger

/-! ## One call -/

namespace Prog

variable {ε α σ : Type}

/-- Make the next call and stop in front of the one after it. -/
def step (backend : Backend σ) : Prog ε α → σ → Prog ε α × σ
  | .done result, s => (.done result, s)
  | .call c next, s =>
    match backend c s with
    | (.ok reply, s') => (next (.ok reply), s')
    | (.error (.error e), s') => (next (.error e), s')
    | (.error .overflow, s') => (.done (.error .overflow), s')

theorem step_of_ok {backend : Backend σ} {c : StoreCall}
    {next : Except StoreError c.Reply → Prog ε α} {s s' : σ} {reply : c.Reply}
    (h : backend c s = (.ok reply, s')) :
    (Prog.call c next).step backend s = (next (.ok reply), s') := by
  simp only [step, h]

theorem step_of_error {backend : Backend σ} {c : StoreCall}
    {next : Except StoreError c.Reply → Prog ε α} {s s' : σ} {e : StoreError}
    (h : backend c s = (.error (.error e), s')) :
    (Prog.call c next).step backend s = (next (.error e), s') := by
  simp only [step, h]

/-- A program is done, or makes one call and goes on. -/
theorem step_snd (backend : Backend σ) (p : Prog ε α) (s : σ) :
    (p.step backend s).2 = s ∨ ∃ c, (p.step backend s).2 = (backend c s).2 := by
  cases p with
  | done result => exact Or.inl rfl
  | call c next =>
    refine Or.inr ⟨c, ?_⟩
    rcases hbackend : backend c s with ⟨(e | _) | reply, s'⟩ <;> simp only [step, hbackend]

end Prog

/-! ## Callers and turns -/

/-- An operation under way. -/
structure Caller where
  operation : Operation
  stamp : Stamp
  /-- The calls it has yet to make. -/
  rest : Action operation.Result

/-- An operation before its first call. -/
def Caller.start (asked : Operation × Stamp) : Caller :=
  ⟨asked.1, asked.2, asked.1.action asked.2⟩

/-- Which caller makes its next call, and when. -/
structure Turn where
  caller : Nat
  moment : Moment

/-- Callers that share a store. -/
structure Interleaving where
  chronicle : Chronicle
  callers : List Caller

namespace Interleaving

/-- Every caller is about to begin. -/
def start (asked : List (Operation × Stamp)) : Interleaving := ⟨.empty, asked.map .start⟩

/-- One caller makes its next call, if it has one to make. -/
def take (n : Interleaving) (turn : Turn) : Interleaving :=
  match n.callers[turn.caller]? with
  | none => n
  | some c =>
    let (rest, h) := c.rest.step (Chronicle.run turn.moment) n.chronicle
    ⟨h, n.callers.set turn.caller ⟨c.operation, c.stamp, rest⟩⟩

theorem take_of_caller {n : Interleaving} {turn : Turn} {c : Caller}
    (hc : n.callers[turn.caller]? = some c) :
    n.take turn = ⟨(c.rest.step (Chronicle.run turn.moment) n.chronicle).2,
      n.callers.set turn.caller ⟨c.operation, c.stamp,
        (c.rest.step (Chronicle.run turn.moment) n.chronicle).1⟩⟩ := by
  unfold take
  rw [hc]

theorem take_callers_self {n : Interleaving} {turn : Turn} {c : Caller}
    (hc : n.callers[turn.caller]? = some c) :
    (n.take turn).callers[turn.caller]? = some ⟨c.operation, c.stamp,
      (c.rest.step (Chronicle.run turn.moment) n.chronicle).1⟩ := by
  rw [take_of_caller hc]
  exact List.getElem?_set_self (List.getElem?_eq_some_iff.mp hc).1

theorem take_callers_of_ne (n : Interleaving) {turn : Turn} {i : Nat} (hi : turn.caller ≠ i) :
    (n.take turn).callers[i]? = n.callers[i]? := by
  cases hc : n.callers[turn.caller]? with
  | none =>
    unfold take
    rw [hc]
  | some c =>
    rw [take_of_caller hc]
    exact List.getElem?_set_ne hi

/-- A turn is a call, or nothing that the store sees. -/
theorem take_chronicle (n : Interleaving) (turn : Turn) :
    (n.take turn).chronicle = n.chronicle ∨
      ∃ c, (n.take turn).chronicle = (Chronicle.run turn.moment c n.chronicle).2 := by
  cases hc : n.callers[turn.caller]? with
  | none =>
    unfold take
    rw [hc]
    exact Or.inl rfl
  | some c =>
    rw [take_of_caller hc]
    exact c.rest.step_snd (Chronicle.run turn.moment) n.chronicle

end Interleaving

/-- What turns lead to. -/
def interleave (asked : List (Operation × Stamp)) (turns : List Turn) : Interleaving :=
  turns.foldl Interleaving.take (.start asked)

theorem interleave_append_turns (asked : List (Operation × Stamp)) (turns more : List Turn) :
    interleave asked (turns ++ more) = more.foldl Interleaving.take (interleave asked turns) :=
  List.foldl_append

theorem interleave_concat (asked : List (Operation × Stamp)) (turns : List Turn) (turn : Turn) :
    interleave asked (turns ++ [turn]) = (interleave asked turns).take turn :=
  interleave_append_turns asked turns [turn]

/-- Callers go on with what they were asked for. -/
theorem asked_interleave (asked : List (Operation × Stamp)) (turns : List Turn) :
    (interleave asked turns).callers.map (fun c => (c.operation, c.stamp)) = asked := by
  induction turns using List.reverseRecOn with
  | nil =>
    show (asked.map Caller.start).map _ = asked
    rw [List.map_map]
    exact List.map_id asked
  | append_singleton turns turn ih =>
    rw [interleave_concat]
    cases hc : (interleave asked turns).callers[turn.caller]? with
    | none =>
      unfold Interleaving.take
      rw [hc]
      exact ih
    | some c =>
      rw [Interleaving.take_of_caller hc, List.map_set, ih]
      refine List.ext_getElem? fun i => ?_
      rw [List.getElem?_set]
      split
      · next hi =>
        obtain ⟨hlt, -⟩ := List.getElem?_eq_some_iff.mp hc
        rw [← hi, ← ih, List.getElem?_map, hc, List.length_map, if_pos hlt]
        rfl
      · rfl

theorem asked_of_caller {asked : List (Operation × Stamp)} {turns : List Turn} {i : Nat}
    {c : Caller} (hc : (interleave asked turns).callers[i]? = some c) :
    asked[i]? = some (c.operation, c.stamp) := by
  have hget := congrArg (fun l => l[i]?) (asked_interleave asked turns)
  rw [← hget, List.getElem?_map, hc]
  rfl

/-- Who has had no turn has not begun. -/
theorem callers_of_no_turn {asked : List (Operation × Stamp)} {turns : List Turn} {i : Nat}
    (hi : ∀ turn ∈ turns, turn.caller ≠ i) :
    (interleave asked turns).callers[i]? = asked[i]?.map .start := by
  induction turns using List.reverseRecOn with
  | nil => exact List.getElem?_map
  | append_singleton turns turn ih =>
    rw [interleave_concat, Interleaving.take_callers_of_ne _ (hi turn (by simp))]
    exact ih fun t ht => hi t (List.mem_append_left _ ht)

/-- Turns make calls. -/
theorem Interleaving.exists_runAll (n : Interleaving) (turns : List Turn) :
    ∃ calls, (turns.foldl take n).chronicle = n.chronicle.runAll calls := by
  induction turns generalizing n with
  | nil => exact ⟨[], rfl⟩
  | cons turn turns ih =>
    obtain ⟨calls, hcalls⟩ := ih (n.take turn)
    rcases n.take_chronicle turn with hsame | ⟨call, hcall⟩
    · exact ⟨calls, hcalls.trans (congrArg (Chronicle.runAll · calls) hsame)⟩
    · exact ⟨(turn.moment, call) :: calls, hcalls.trans (congrArg (Chronicle.runAll · calls) hcall)⟩

theorem exists_chronicleOf_interleave (asked : List (Operation × Stamp)) (turns : List Turn) :
    ∃ calls, chronicleOf calls = (interleave asked turns).chronicle :=
  ((Interleaving.start asked).exists_runAll turns).imp fun _ hcalls => hcalls.symm

/-! ## One operation after the other -/

namespace Interleaving

theorem foldl_take_succ {n : Interleaving} {i : Nat} {m : Moment} {o : Operation} {stamp : Stamp}
    {p q : Action o.Result} {h : Chronicle} (hp : n.callers[i]? = some ⟨o, stamp, p⟩)
    (hstep : p.step (Chronicle.run m) n.chronicle = (q, h)) (k : Nat) :
    (List.replicate (k + 1) (Turn.mk i m)).foldl take n =
      (List.replicate k (Turn.mk i m)).foldl take ⟨h, n.callers.set i ⟨o, stamp, q⟩⟩ := by
  rw [List.replicate_succ, List.foldl_cons, @take_of_caller n ⟨i, m⟩ ⟨o, stamp, p⟩ hp]
  dsimp only
  rw [hstep]

/-- A caller that has all turns to itself runs its operation to the end. -/
theorem exists_turns_run {o : Operation} {stamp : Stamp} {i : Nat} (m : Moment)
    (p : Action o.Result) (n : Interleaving) (hp : n.callers[i]? = some ⟨o, stamp, p⟩) :
    ∃ k, (List.replicate k (Turn.mk i m)).foldl take n =
      ⟨(p.run (Chronicle.run m) n.chronicle).2,
        n.callers.set i ⟨o, stamp, .done (p.run (Chronicle.run m) n.chronicle).1⟩⟩ := by
  induction p generalizing n with
  | done result =>
    refine ⟨0, ?_⟩
    obtain ⟨hi, hget⟩ := List.getElem?_eq_some_iff.mp hp
    show n = ⟨n.chronicle, n.callers.set i ⟨o, stamp, .done result⟩⟩
    rw [← hget, List.set_getElem_self]
  | call c next ih =>
    have hrest : ∀ q h, (Prog.call c next).step (Chronicle.run m) n.chronicle = (q, h) →
        (∃ k, (List.replicate k (Turn.mk i m)).foldl take ⟨h, n.callers.set i ⟨o, stamp, q⟩⟩ =
          ⟨(q.run (Chronicle.run m) h).2, (n.callers.set i ⟨o, stamp, q⟩).set i
            ⟨o, stamp, .done (q.run (Chronicle.run m) h).1⟩⟩) →
        ∃ k, (List.replicate k (Turn.mk i m)).foldl take n =
          ⟨(q.run (Chronicle.run m) h).2,
            n.callers.set i ⟨o, stamp, .done (q.run (Chronicle.run m) h).1⟩⟩ := by
      rintro q h hstep ⟨k, hk⟩
      exact ⟨k + 1, by rw [foldl_take_succ hp hstep, hk, List.set_set]⟩
    have hset : ∀ q : Action o.Result,
        (n.callers.set i ⟨o, stamp, q⟩)[i]? = some ⟨o, stamp, q⟩ := fun q =>
      List.getElem?_set_self (List.getElem?_eq_some_iff.mp hp).1
    rw [Prog.run_call]
    rcases hbackend : Chronicle.run m c n.chronicle with ⟨(e | _) | reply, h⟩
    · exact hrest (next (.error e)) h (Prog.step_of_error hbackend)
        (ih _ ⟨h, _⟩ (hset _))
    · exact hrest (.done (.error .overflow)) h (by simp only [Prog.step, hbackend])
        ⟨0, by rw [List.set_set]; rfl⟩
    · exact hrest (next (.ok reply)) h (Prog.step_of_ok hbackend)
        (ih _ ⟨h, _⟩ (hset _))

/-- Callers that come later do not change what the others do. -/
theorem foldl_take_append (n : Interleaving) (more : List Caller) {turns : List Turn}
    (hturns : ∀ turn ∈ turns, turn.caller < n.callers.length) :
    turns.foldl take ⟨n.chronicle, n.callers ++ more⟩ =
      ⟨(turns.foldl take n).chronicle, (turns.foldl take n).callers ++ more⟩ ∧
      (turns.foldl take n).callers.length = n.callers.length := by
  induction turns generalizing n with
  | nil => exact ⟨rfl, rfl⟩
  | cons turn turns ih =>
    have hlt := hturns turn List.mem_cons_self
    have hc : n.callers[turn.caller]? = some n.callers[turn.caller] := List.getElem?_eq_getElem hlt
    have hc' : (n.callers ++ more)[turn.caller]? = some n.callers[turn.caller] := by
      rw [List.getElem?_append_left hlt, hc]
    have hlength : (n.take turn).callers.length = n.callers.length := by
      rw [take_of_caller hc, List.length_set]
    have hrest := ih (n.take turn) fun t ht => by
      rw [hlength]
      exact hturns t (List.mem_cons_of_mem _ ht)
    rw [hlength] at hrest
    rw [List.foldl_cons, List.foldl_cons, ← hrest.1]
    refine ⟨congrArg (List.foldl take · turns) ?_, hrest.2⟩
    rw [take_of_caller hc, take_of_caller (n := ⟨n.chronicle, n.callers ++ more⟩) hc',
      List.set_append_left _ _ hlt]

end Interleaving

/-- What requests ask for. -/
def askedBy (requests : List Request) : List (Operation × Stamp) :=
  requests.map fun r => (r.operation, r.stamp)

/-- Only callers that are there take turns. -/
def WithinTurns (asked : List (Operation × Stamp)) (turns : List Turn) : Prop :=
  ∀ turn ∈ turns, turn.caller < asked.length

theorem WithinTurns.nil (asked : List (Operation × Stamp)) : WithinTurns asked [] :=
  fun _ hturn => absurd hturn List.not_mem_nil

/-- Who waits does not change what the others do. -/
theorem interleave_append {asked : List (Operation × Stamp)} {turns : List Turn}
    (hturns : WithinTurns asked turns) (more : List (Operation × Stamp)) :
    interleave (asked ++ more) turns =
      ⟨(interleave asked turns).chronicle,
        (interleave asked turns).callers ++ more.map .start⟩ := by
  have hothers : ∀ turn ∈ turns, turn.caller < (Interleaving.start asked).callers.length :=
    fun turn hturn => (List.length_map Caller.start).symm ▸ hturns turn hturn
  have hstart : Interleaving.start (asked ++ more) =
      ⟨.empty, (Interleaving.start asked).callers ++ more.map .start⟩ :=
    congrArg _ List.map_append
  unfold interleave
  rw [hstart]
  exact (Interleaving.foldl_take_append (.start asked) (more.map .start) hothers).1

/-- One more operation, once the others have had their turns. -/
theorem exists_turns_concat {asked : List (Operation × Stamp)} {turns : List Turn}
    (hturns : WithinTurns asked turns) (r : Request) :
    ∃ k, (interleave (asked ++ [(r.operation, r.stamp)])
      (turns ++ List.replicate k ⟨asked.length, r.moment⟩)).chronicle =
        ((interleave asked turns).chronicle.perform r).2 ∧
      (interleave (asked ++ [(r.operation, r.stamp)])
        (turns ++ List.replicate k ⟨asked.length, r.moment⟩)).callers[asked.length]? =
          some ⟨r.operation, r.stamp, .done ((interleave asked turns).chronicle.perform r).1⟩ := by
  have hlength : (interleave asked turns).callers.length = asked.length := by
    rw [← congrArg List.length (asked_interleave asked turns), List.length_map]
  have hlast : ((interleave asked turns).callers ++
      [Caller.start (r.operation, r.stamp)])[asked.length]? =
        some (.start (r.operation, r.stamp)) := by
    rw [← hlength]
    exact List.getElem?_concat_length
  obtain ⟨k, hk⟩ := Interleaving.exists_turns_run r.moment (r.operation.action r.stamp)
    ⟨(interleave asked turns).chronicle, (interleave asked turns).callers ++
      [.start (r.operation, r.stamp)]⟩ hlast
  refine ⟨k, ?_⟩
  have hwait := interleave_append hturns [(r.operation, r.stamp)]
  unfold interleave at hwait hk hlast ⊢
  rw [List.foldl_append, hwait]
  refine ⟨congrArg Interleaving.chronicle hk, ?_⟩
  refine (congrArg (fun n : Interleaving => n.callers[asked.length]?) hk).trans ?_
  exact List.getElem?_set_self (List.getElem?_eq_some_iff.mp hlast).1

/-- Requests are turns, where everyone waits until the one before is done. -/
theorem exists_turns_from {asked : List (Operation × Stamp)} {turns : List Turn}
    (hturns : WithinTurns asked turns) (requests : List Request) :
    ∃ more, WithinTurns (asked ++ askedBy requests) (turns ++ more) ∧
      (interleave (asked ++ askedBy requests) (turns ++ more)).chronicle =
        requests.foldl (fun h r => (h.perform r).2) (interleave asked turns).chronicle := by
  induction requests using List.reverseRecOn with
  | nil =>
    refine ⟨[], ?_, ?_⟩
    · rwa [show askedBy [] = [] from rfl, List.append_nil, List.append_nil]
    · rw [show askedBy [] = [] from rfl, List.append_nil, List.append_nil]
      rfl
  | append_singleton requests r ih =>
    obtain ⟨more, hmore, hchronicle⟩ := ih
    obtain ⟨k, hk⟩ := exists_turns_concat hmore r
    have hasked : asked ++ askedBy (requests ++ [r]) =
        asked ++ askedBy requests ++ [(r.operation, r.stamp)] := by
      unfold askedBy
      rw [List.map_append, List.append_assoc]
      rfl
    rw [hasked]
    refine ⟨more ++ List.replicate k ⟨(asked ++ askedBy requests).length, r.moment⟩, ?_, ?_⟩
    · intro turn hturn
      have hlength : (asked ++ askedBy requests ++ [(r.operation, r.stamp)]).length =
          (asked ++ askedBy requests).length + 1 := List.length_append
      rw [hlength]
      rw [← List.append_assoc] at hturn
      rcases List.mem_append.mp hturn with h | h
      · exact Nat.lt_succ_of_lt (hmore turn h)
      · rw [List.eq_of_mem_replicate h]
        exact Nat.lt_succ_self _
    · rw [← List.append_assoc, hk.1, hchronicle, List.foldl_append]
      rfl

/-- Requests from empty tables on. -/
theorem exists_turns_within (requests : List Request) :
    ∃ turns, WithinTurns (askedBy requests) turns ∧
      (interleave (askedBy requests) turns).chronicle = chronicleAfter requests :=
  exists_turns_from (.nil []) requests

theorem exists_turns (requests : List Request) :
    ∃ turns, (interleave (askedBy requests) turns).chronicle = chronicleAfter requests :=
  (exists_turns_within requests).imp fun _ hturns => hturns.2

/-- What a request comes out with, a caller comes out with after some turns. -/
theorem exists_turns_done (requests : List Request) (r : Request) :
    ∃ (asked : List (Operation × Stamp)) (turns : List Turn) (i : Nat),
      (interleave asked turns).callers[i]? =
        some ⟨r.operation, r.stamp, .done ((chronicleAfter requests).perform r).1⟩ := by
  obtain ⟨turns, hwithin, hturns⟩ := exists_turns_within requests
  obtain ⟨k, -, hdone⟩ := exists_turns_concat hwithin r
  rw [hturns] at hdone
  exact ⟨_, _, _, hdone⟩

/-- Some requests and then more are turns and then more. -/
theorem exists_turns_append (requests more : List Request) :
    ∃ turns turns', (interleave (askedBy (requests ++ more)) turns).chronicle =
        chronicleAfter requests ∧
      (interleave (askedBy (requests ++ more)) (turns ++ turns')).chronicle =
        chronicleAfter (requests ++ more) := by
  obtain ⟨turns, hwithin, hturns⟩ := exists_turns_within requests
  obtain ⟨turns', -, hturns'⟩ := exists_turns_from hwithin more
  have hasked : askedBy (requests ++ more) = askedBy requests ++ askedBy more := List.map_append
  refine ⟨turns, turns', ?_, ?_⟩
  · rw [hasked, interleave_append hwithin]
    exact hturns
  · rw [hasked, hturns', hturns]
    exact List.foldl_append.symm

/-- Turns in an order of callers. -/
def Sample.turnsOf (order : List Nat) : List Turn :=
  order.zipIdx.map fun p => ⟨p.1, moment (100 * p.2)⟩

end DoubleEntry
