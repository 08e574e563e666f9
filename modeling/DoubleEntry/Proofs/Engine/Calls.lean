import DoubleEntry.Proofs.Engine.Effects

/-!
# The calls of an operation

Which calls an operation can come to make can be read off its program, whatever is answered: calls
that only read, and calls of the one kind that it writes with (`callsOnly_action`).
-/

namespace DoubleEntry

open Ledger

namespace Prog

variable {ε α β : Type}

/-- Every call that the program can come to make is of a kind. -/
inductive CallsOnly (kind : StoreCall → Prop) : Prog ε α → Prop
  | done (result : Except (Failure ε) α) : CallsOnly kind (.done result)
  | call {c : StoreCall} {next : Except StoreError c.Reply → Prog ε α} (hc : kind c)
    (hnext : ∀ reply, CallsOnly kind (next reply)) : CallsOnly kind (.call c next)

namespace CallsOnly

variable {kind : StoreCall → Prop}

theorem bind {p : Prog ε β} {f : β → Prog ε α} (hp : p.CallsOnly kind)
    (hf : ∀ b, (f b).CallsOnly kind) : (p >>= f).CallsOnly kind := by
  show (p.bind f).CallsOnly kind
  induction hp with
  | done result =>
    cases result with
    | ok b => exact hf b
    | error e => exact .done _
  | call hc _ ih => exact .call hc ih

theorem ofExcept {δ : Type} (g : δ → ε) (e : Except δ α) : (Prog.ofExcept g e).CallsOnly kind := by
  cases e <;> exact .done _

theorem ask (g : StoreError → ε) {c : StoreCall} (hc : kind c) : (Prog.ask g c).CallsOnly kind :=
  .call hc fun reply => ofExcept g reply

end CallsOnly

end Prog

namespace Ledger

/-- The kind of call that an operation writes with. -/
def Operation.writesBy : Operation → StoreCall → Bool
  | .createJournal _, .createJournal _ => true
  | .updateJournal _ _, .updateJournal _ _ => true
  | .createAccount _, .createAccount _ => true
  | .updateAccount _ _, .updateAccount _ _ => true
  | .createTemplate _, .createTemplate _ => true
  | .post _ _, .commitTransaction _ => true
  | .void _, .commitTransaction _ => true
  | _, _ => false

section Calls

variable {α β : Type} {kind : StoreCall → Prop}

theorem callsOnly_found (what : String) (o : Option α) : (found what o).CallsOnly kind := by
  cases o <;> exact .done _

theorem callsOnly_findJournal (hread : ∀ c, c.isRead = true → kind c) (id : JournalId) :
    (findJournal id).CallsOnly kind :=
  .bind (.ask _ (hread _ rfl)) fun _ => callsOnly_found _ _

theorem callsOnly_findAccount (hread : ∀ c, c.isRead = true → kind c) (id : AccountId) :
    (findAccount id).CallsOnly kind :=
  .bind (.ask _ (hread _ rfl)) fun _ => callsOnly_found _ _

theorem callsOnly_findTransaction (hread : ∀ c, c.isRead = true → kind c) (id : TransactionId) :
    (findTransaction id).CallsOnly kind :=
  .bind (.ask _ (hread _ rfl)) fun _ => callsOnly_found _ _

theorem callsOnly_commit (hread : ∀ c, c.isRead = true → kind c) {t : Transaction}
    (hcommit : kind (.commitTransaction t)) : (commit t).CallsOnly kind := by
  refine .bind (.call hcommit fun _ => .done _) fun reply => ?_
  cases reply with
  | ok committed => exact .done _
  | error e =>
    cases e with
    | duplicateExternalId what =>
      refine .bind (.ask _ (hread _ rfl)) fun winner => ?_
      cases winner <;> exact .done _
    | _ => exact .done _

theorem callsOnly_post (hread : ∀ c, c.isRead = true → kind c)
    (hcommit : ∀ t, kind (.commitTransaction t)) (code : String) (supplied : Params)
    (stamp : Stamp) : (post code supplied stamp).CallsOnly kind := by
  refine .bind (.ask _ (hread _ rfl)) fun template => ?_
  cases template with
  | none => exact .done _
  | some template =>
    refine .bind (.ofExcept _ _) fun bound => .bind (.ofExcept _ _) fun header => ?_
    refine .bind ?_ fun stored => ?_
    · unfold alreadyPosted
      split
      · exact .done _
      · exact .ask _ (hread _ rfl)
    · cases stored with
      | some stored => exact .done _
      | none =>
        refine .bind (callsOnly_findJournal hread _) fun _ => .bind (.ofExcept _ _) fun _ => ?_
        refine .bind (.bind (.ask _ (hread _ rfl)) fun accounts => ?_) fun _ => ?_
        · split <;> exact .done _
        · exact .bind (.ofExcept _ _) fun t => callsOnly_commit hread (hcommit t)

end Calls

theorem callsOnly_action (stamp : Stamp) (o : Operation) :
    (o.action stamp).CallsOnly fun c => c.isRead = true ∨ o.writesBy c = true := by
  have hread : ∀ c : StoreCall, c.isRead = true → c.isRead = true ∨ o.writesBy c = true :=
    fun _ => Or.inl
  cases o with
  | createJournal new =>
    exact .bind (.ofExcept _ _) fun _ => .bind (.ask _ (.inr rfl)) fun _ => .done _
  | findJournal id => exact callsOnly_findJournal hread id
  | updateJournal id u =>
    refine .bind (callsOnly_findJournal hread id) fun _ => .bind (.ofExcept _ _) fun p => ?_
    obtain ⟨j, fields⟩ := p
    dsimp only
    split
    · exact .done _
    · exact .bind (.ask _ (.inr rfl)) fun _ => .done _
  | createAccount new =>
    exact .bind (.ofExcept _ _) fun _ => .bind (.ask _ (.inr rfl)) fun _ => .done _
  | findAccount id => exact callsOnly_findAccount hread id
  | findAccountByCode code => exact .bind (.ask _ (.inl rfl)) fun _ => callsOnly_found _ _
  | updateAccount id u =>
    refine .bind (callsOnly_findAccount hread id) fun _ => .bind (.ofExcept _ _) fun p => ?_
    obtain ⟨a, fields⟩ := p
    dsimp only
    split
    · exact .done _
    · exact .bind (.ask _ (.inr rfl)) fun _ => .done _
  | createTemplate new =>
    exact .bind (.ofExcept _ _) fun _ => .bind (.ask _ (.inr rfl)) fun _ => .done _
  | findTemplate code => exact .bind (.ask _ (.inl rfl)) fun _ => callsOnly_found _ _
  | post code supplied =>
    have hcommit : ∀ t, (StoreCall.commitTransaction t).isRead = true ∨
        (Operation.post code supplied).writesBy (.commitTransaction t) = true := fun _ => .inr rfl
    exact callsOnly_post hread hcommit code supplied stamp
  | void id =>
    exact .bind (callsOnly_findTransaction hread id) fun _ => callsOnly_commit hread (.inr rfl)
  | findTransaction id => exact callsOnly_findTransaction hread id
  | findTransactionByExternalId x => exact .bind (.ask _ (.inl rfl)) fun _ => callsOnly_found _ _
  | accountBalance account journal currency =>
    exact .bind (callsOnly_findAccount hread account) fun _ =>
      .bind (.ask _ (.inl rfl)) fun _ => .done _
  | listAccountEntries account after limit =>
    exact .bind (callsOnly_findAccount hread account) fun _ =>
      .bind (.ask _ (.inl rfl)) fun _ => .done _
  | outboxAfter after limit => exact .ask _ (.inl rfl)

end Ledger

end DoubleEntry
