import DoubleEntry.Proofs.Engine.Calls
import DoubleEntry.Proofs.Engine.Interleaving

/-!
# Contracts between callers

What an operation has looked up may be out of date by its next call. A `Contract` says what it can
still rely on: an invariant that holds between any two calls, what the others may do meanwhile
(`rely`), and which calls it may make in turn (`allowed`). `Prog.Meets` says of a program that it
keeps to the contract whatever the others do, and what is known of its result.

Main statement: `Contract.Sound.meets_interleave`. If the allowed calls of each caller keep the
invariant and are among what the others rely on, then programs that meet their contracts one by one
do so together, whatever turns they take.
-/

namespace DoubleEntry

open Ledger

/-- What callers keep to. Callers are told apart by their stamps. -/
structure Contract where
  /-- Holds between any two calls. -/
  invariant : Chronicle → Prop
  /-- What the others may have done while the caller with a stamp waited. -/
  rely : Stamp → Chronicle → Chronicle → Prop
  /-- The calls that the caller with a stamp may make. -/
  allowed : Stamp → Chronicle → StoreCall → Prop
  /-- Two callers that may be at work together. -/
  apart : Stamp → Stamp → Prop

/-- Callers that keep to the contract do not get in each other's way. -/
structure Contract.Sound (k : Contract) : Prop where
  refl : ∀ own h, k.rely own h h
  trans : ∀ own h₁ h₂ h₃, k.rely own h₁ h₂ → k.rely own h₂ h₃ → k.rely own h₁ h₃
  keeps : ∀ own m c h, k.invariant h → k.allowed own h c → k.invariant (Chronicle.run m c h).2
  spares : ∀ own other m c h, k.apart own other → k.invariant h → k.allowed own h c →
    k.rely other h (Chronicle.run m c h).2

/-! ## Programs that meet a contract -/

namespace Prog

variable {ε α β : Type}

/-- From a chronicle on the program keeps to the contract, and comes out with a result and a
chronicle as in `Q`. Before each call the others may have changed what they are free to change. -/
def Meets (k : Contract) (own : Stamp) (Q : Chronicle → Except (Failure ε) α → Prop) :
    Prog ε α → Chronicle → Prop
  | .done result, h => Q h result
  | .call c next, h => ∀ h', k.rely own h h' → k.invariant h' → k.allowed own h' c ∧ ∀ m,
      match Chronicle.run m c h' with
      | (.ok reply, h'') => (next (.ok reply)).Meets k own Q h''
      | (.error (.error e), h'') => (next (.error e)).Meets k own Q h''
      | (.error .overflow, h'') => Q h'' (.error .overflow)

namespace Meets

variable {k : Contract} {own : Stamp} {Q : Chronicle → Except (Failure ε) α → Prop}
  {R : Chronicle → Except (Failure ε) β → Prop} {h : Chronicle}

/-- Others at work do not disturb a program, as long as they do not disturb its result. -/
theorem of_rely (hk : k.Sound)
    (hQ : ∀ h h' result, k.rely own h h' → k.invariant h' → Q h result → Q h' result)
    {p : Prog ε α} {h' : Chronicle} (hrely : k.rely own h h') (hinv : k.invariant h')
    (hp : p.Meets k own Q h) : p.Meets k own Q h' := by
  cases p with
  | done result => exact hQ h h' result hrely hinv hp
  | call c next =>
    intro h'' hrely' hinv'
    exact hp h'' (hk.trans own h h' h'' hrely hrely') hinv'

/-- A turn goes on with a program that meets the contract. -/
theorem step (hk : k.Sound) {p : Prog ε α} (hp : p.Meets k own Q h) (hinv : k.invariant h)
    (m : Moment) : (p.step (Chronicle.run m) h).1.Meets k own Q (p.step (Chronicle.run m) h).2 := by
  cases p with
  | done result => exact hp
  | call c next =>
    obtain ⟨-, hnext⟩ := hp h (hk.refl own h) hinv
    have hnext := hnext m
    rcases hrun : Chronicle.run m c h with ⟨(e | _) | reply, h'⟩ <;>
      simp only [Prog.step, hrun] at hnext ⊢ <;> exact hnext

/-- A turn makes an allowed call, or none. -/
theorem step_cases (hk : k.Sound) {p : Prog ε α} (hp : p.Meets k own Q h) (hinv : k.invariant h)
    (m : Moment) : (p.step (Chronicle.run m) h).2 = h ∨
      ∃ c, k.allowed own h c ∧ (p.step (Chronicle.run m) h).2 = (Chronicle.run m c h).2 := by
  cases p with
  | done result => exact Or.inl rfl
  | call c next =>
    refine Or.inr ⟨c, (hp h (hk.refl own h) hinv).1, ?_⟩
    rcases hrun : Chronicle.run m c h with ⟨(e | _) | reply, h'⟩ <;> simp only [Prog.step, hrun]

theorem imp {p : Prog ε α} {Q' : Chronicle → Except (Failure ε) α → Prop}
    (hp : p.Meets k own Q h) (hQ : ∀ h result, Q h result → Q' h result) :
    p.Meets k own Q' h := by
  induction p generalizing h with
  | done result => exact hQ h result hp
  | call c next ih =>
    intro h' hrely hinv
    obtain ⟨hallowed, hnext⟩ := hp h' hrely hinv
    refine ⟨hallowed, fun m => ?_⟩
    have hnext := hnext m
    rcases hrun : Chronicle.run m c h' with ⟨(e | _) | reply, h''⟩ <;>
      simp only [hrun] at hnext ⊢
    · exact ih _ hnext
    · exact hQ _ _ hnext
    · exact ih _ hnext

/-- What follows a program may rely on its result. -/
theorem bind {p : Prog ε β} {f : β → Prog ε α} (hp : p.Meets k own R h)
    (hok : ∀ h b, R h (.ok b) → (f b).Meets k own Q h)
    (herror : ∀ h e, R h (.error e) → Q h (.error e)) : (p >>= f).Meets k own Q h := by
  show (p.bind f).Meets k own Q h
  induction p generalizing h with
  | done result =>
    cases result with
    | ok b => exact hok h b hp
    | error e => exact herror h e hp
  | call c next ih =>
    intro h' hrely hinv
    obtain ⟨hallowed, hnext⟩ := hp h' hrely hinv
    refine ⟨hallowed, fun m => ?_⟩
    have hnext := hnext m
    rcases hrun : Chronicle.run m c h' with ⟨(e | _) | reply, h''⟩ <;>
      simp only [hrun] at hnext ⊢
    · exact ih _ hnext
    · exact herror _ _ hnext
    · exact ih _ hnext

theorem bind_ofExcept {δ : Type} {g : δ → ε} {e : Except δ β} {f : β → Prog ε α}
    (hok : ∀ b, e = .ok b → (f b).Meets k own Q h)
    (herror : ∀ d, e = .error d → Q h (.error (.error (g d)))) :
    (Prog.ofExcept g e >>= f).Meets k own Q h := by
  cases e with
  | ok b => exact hok b rfl
  | error d => exact herror d rfl

/-- A lookup comes out with what the tables say by then. -/
theorem ask {g : StoreError → ε} {c : StoreCall} {f : c.Reply → Prog ε α}
    (v : StoreState → c.Reply) (hv : ∀ m s, StoreState.answer m s c = .ok (v s, s))
    (hread : c.isRead = true) (hallowed : ∀ h, k.allowed own h c)
    (hnext : ∀ h', k.rely own h h' → k.invariant h' → (f (v h'.state)).Meets k own Q h') :
    (Prog.ask g c >>= f).Meets k own Q h := by
  intro h' hrely hinv
  refine ⟨hallowed h', fun m => ?_⟩
  have hrun : Chronicle.run m c h' = (.ok (v h'.state), h') := by
    rw [Chronicle.run_eq_answer, hv]
    show (_, Chronicle.mk h'.state (h'.commits ++ Chronicle.commitOf m c (.ok (v h'.state)))) = _
    rw [Chronicle.commitOf_ok, StoreCall.commits_of_isRead hread, List.append_nil]
  rw [hrun]
  exact hnext h' hrely hinv

end Meets

/-- Nothing is asked of a call that is made last but that it is allowed by then. -/
theorem Meets.ask_last {k : Contract} {own : Stamp} {g : StoreError → ε} {c : StoreCall} {a : α}
    {h : Chronicle} (hallowed : ∀ h', k.rely own h h' → k.invariant h' → k.allowed own h' c) :
    (Prog.ask g c >>= fun _ => pure a).Meets k own (fun _ _ => True) h := by
  intro h' hrely hinv
  refine ⟨hallowed h' hrely hinv, fun m => ?_⟩
  rcases Chronicle.run m c h' with ⟨(e | _) | reply, h''⟩ <;> trivial

/-- A program all of whose calls are always allowed meets a contract. -/
theorem CallsOnly.meets {k : Contract} {own : Stamp} {kind : StoreCall → Prop} {p : Prog ε α}
    (hp : p.CallsOnly kind) (hkind : ∀ h c, kind c → k.allowed own h c) (h : Chronicle) :
    p.Meets k own (fun _ _ => True) h := by
  induction hp generalizing h with
  | done result => trivial
  | @call c next hc _ ih =>
    intro h' _ _
    refine ⟨hkind h' c hc, fun m => ?_⟩
    rcases Chronicle.run m c h' with ⟨(e | _) | reply, h''⟩
    · exact ih _ h''
    · trivial
    · exact ih _ h''

end Prog

/-! ## Lookups -/

theorem found_eq_done {α : Type} (what : String) (o : Option α) :
    found what o = .done (lookup what o) := by
  cases o <;> rfl

section Lookups

variable {k : Contract} {own : Stamp} {h : Chronicle}
  (hread : ∀ h c, c.isRead = true → k.allowed own h c)

include hread

/-- A lookup comes out with what is there by then, and may be out of date from then on. -/
theorem meets_lookup {α : Type} {g : StoreError → EngineError} (c : StoreCall)
    (hc : c.isRead = true) (v : StoreState → c.Reply)
    (hv : ∀ m s, StoreState.answer m s c = .ok (v s, s)) (what : String)
    (o : c.Reply → Option α) :
    (Prog.ask g c >>= fun reply => found what (o reply)).Meets k own (fun h' result =>
      k.rely own h h' ∧ k.invariant h' ∧ result = lookup what (o (v h'.state))) h := by
  refine .ask v hv hc (fun h => hread h c hc) fun h' hrely hinv => ?_
  rw [found_eq_done]
  exact ⟨hrely, hinv, rfl⟩

theorem meets_findJournal (id : JournalId) :
    (findJournal id).Meets k own (fun h' result => k.rely own h h' ∧ k.invariant h' ∧
      result = lookup s!"journal {id}" (h'.state.journals.get? id)) h :=
  meets_lookup hread (.findJournal id) rfl (fun s => s.journals.get? id) (fun _ _ => rfl) _
    fun reply => reply

theorem meets_findAccount (id : AccountId) :
    (findAccount id).Meets k own (fun h' result => k.rely own h h' ∧ k.invariant h' ∧
      result = lookup s!"account {id}" (h'.state.accounts.get? id)) h :=
  meets_lookup hread (.findAccount id) rfl (fun s => s.accounts.get? id) (fun _ _ => rfl) _
    fun reply => reply

theorem meets_findTransaction (id : TransactionId) :
    (findTransaction id).Meets k own (fun h' result => k.rely own h h' ∧ k.invariant h' ∧
      result = lookup s!"transaction {id}" (h'.state.transactions.get? id)) h :=
  meets_lookup hread (.findTransaction id) rfl (fun s => s.transactions.get? id) (fun _ _ => rfl) _
    fun reply => reply

end Lookups

/-! ## All callers together -/

/-- What is known of the results of operations with their stamps, at the time they come out and from
then on. -/
abbrev Outcomes :=
  (o : Operation) → Stamp → Chronicle → Except (Failure EngineError) o.Result → Prop

/-- Every caller keeps to the contract from here on, and comes out with a result as in `Q`. -/
structure Interleaving.Meets (k : Contract) (Q : Outcomes) (n : Interleaving) : Prop where
  invariant : k.invariant n.chronicle
  callers : ∀ (i : Nat) (c : Caller), n.callers[i]? = some c →
    c.rest.Meets k c.stamp (Q c.operation c.stamp) n.chronicle

section Interleaved

variable {k : Contract} {Q : Outcomes}

/-- What every caller relies on holds, as long as those that are not apart from it are itself: the
one whose turn it is goes on with its program, and the others rely on what it was allowed to do. -/
theorem Interleaving.Meets.take {n : Interleaving} (hn : n.Meets k Q) (hk : k.Sound)
    (hQ : ∀ o own h h' result, k.rely own h h' → k.invariant h' → Q o own h result →
      Q o own h' result)
    (hapart : ∀ (i j : Nat) (c d : Caller), i ≠ j → n.callers[i]? = some c →
      n.callers[j]? = some d → k.apart c.stamp d.stamp) (turn : Turn) :
    (n.take turn).Meets k Q := by
  cases hc : n.callers[turn.caller]? with
  | none =>
    unfold Interleaving.take
    rw [hc]
    exact hn
  | some c =>
    have hmeets := hn.callers _ c hc
    have hcall := hmeets.step_cases hk hn.invariant turn.moment
    have hinv : k.invariant (c.rest.step (Chronicle.run turn.moment) n.chronicle).2 := by
      rcases hcall with hsame | ⟨call, hallowed, hrun⟩
      · rw [hsame]
        exact hn.invariant
      · rw [hrun]
        exact hk.keeps _ _ _ _ hn.invariant hallowed
    rw [Interleaving.take_of_caller hc]
    refine ⟨hinv, fun j d hd => ?_⟩
    dsimp only at hd ⊢
    rw [List.getElem?_set] at hd
    by_cases hj : turn.caller = j
    · obtain ⟨hlt, -⟩ := List.getElem?_eq_some_iff.mp hc
      rw [if_pos hj, if_pos (hj ▸ hlt)] at hd
      cases hd
      exact hmeets.step hk hn.invariant turn.moment
    · rw [if_neg hj] at hd
      refine (hn.callers j d hd).of_rely hk (hQ _ _) ?_ hinv
      rcases hcall with hsame | ⟨call, hallowed, hrun⟩
      · rw [hsame]
        exact hk.refl _ _
      · rw [hrun]
        exact hk.spares _ _ _ _ _ (hapart _ _ c d hj hc hd) hn.invariant hallowed

/-- Programs that meet their contracts one by one meet them together, whatever turns they take. -/
theorem Contract.Sound.meets_interleave (hk : k.Sound) (hempty : k.invariant .empty)
    (hQ : ∀ o own h h' result, k.rely own h h' → k.invariant h' → Q o own h result →
      Q o own h' result)
    {asked : List (Operation × Stamp)}
    (hapart : ∀ (i j : Nat) (a b : Operation × Stamp), i ≠ j → asked[i]? = some a →
      asked[j]? = some b → k.apart a.2 b.2)
    (hstart : ∀ a ∈ asked, (a.1.action a.2).Meets k a.2 (Q a.1 a.2) .empty) (turns : List Turn) :
    (interleave asked turns).Meets k Q := by
  induction turns using List.reverseRecOn with
  | nil =>
    refine ⟨hempty, fun i c hc => ?_⟩
    obtain ⟨a, ha, rfl⟩ := List.mem_map.mp (List.mem_of_getElem? hc)
    exact hstart a ha
  | append_singleton turns turn ih =>
    rw [interleave_concat]
    exact ih.take hk hQ
      (fun i j c d hij hc hd => hapart i j _ _ hij (asked_of_caller hc) (asked_of_caller hd)) turn

/-- A turn leaves the chronicle as it is, or makes a call that its caller is allowed to make. -/
theorem Interleaving.Meets.take_cases {n : Interleaving} (hn : n.Meets k Q) (hk : k.Sound)
    (turn : Turn) : (n.take turn).chronicle = n.chronicle ∨
      ∃ own c, k.allowed own n.chronicle c ∧
        (n.take turn).chronicle = (Chronicle.run turn.moment c n.chronicle).2 := by
  cases hc : n.callers[turn.caller]? with
  | none =>
    left
    unfold Interleaving.take
    rw [hc]
  | some c =>
    rw [Interleaving.take_of_caller hc]
    exact ((hn.callers _ c hc).step_cases hk hn.invariant turn.moment).imp_right
      fun ⟨call, hcall⟩ => ⟨c.stamp, call, hcall⟩

/-- What every allowed call preserves, any turns preserve. -/
theorem Interleaving.invariant_of_meets {I : Chronicle → Prop} {asked : List (Operation × Stamp)}
    {turns : List Turn} (hk : k.Sound) (hmeets : ∀ turns, (interleave asked turns).Meets k Q)
    (hcall : ∀ own m c h, k.invariant h → k.allowed own h c → I h → I (Chronicle.run m c h).2)
    (hstart : I (interleave asked turns).chronicle) (more : List Turn) :
    I (interleave asked (turns ++ more)).chronicle := by
  induction more using List.reverseRecOn with
  | nil => rwa [List.append_nil]
  | append_singleton more turn ih =>
    rw [← List.append_assoc, interleave_concat]
    have hn := hmeets (turns ++ more)
    rcases hn.take_cases hk turn with hsame | ⟨own, c, hallowed, hrun⟩
    · rwa [hsame]
    · rw [hrun]
      exact hcall own turn.moment c _ hn.invariant hallowed ih

end Interleaved

end DoubleEntry
