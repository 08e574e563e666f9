import DoubleEntry.Store.Call

/-!
# A store with planned faults

For trying out what happens when a store misbehaves: a `Fault` planned for a method is met by the
next call of that method, which then does not reach the store. It fails with the planned error or,
without one, answers that there is nothing. Faults of one method are met in the order planned.
-/

namespace DoubleEntry

/-- The name of the method a call belongs to. -/
def StoreCall.method : StoreCall → String
  | .createJournal _ => "create_journal"
  | .findJournal _ => "find_journal"
  | .updateJournal _ _ => "update_journal"
  | .createAccount _ => "create_account"
  | .findAccount _ => "find_account"
  | .findAccountByCode _ => "find_account_by_code"
  | .findAccounts _ => "find_accounts"
  | .updateAccount _ _ => "update_account"
  | .createTemplate _ => "create_tx_template"
  | .findTemplate _ => "find_tx_template"
  | .commitTransaction _ => "commit_transaction"
  | .findTransaction _ => "find_transaction"
  | .findTransactionByExternalId _ => "find_transaction_by_external_id"
  | .listAccountEntries _ _ _ => "list_account_entries"
  | .loadBalances _ _ _ => "load_balances"
  | .loadOutboxAfter _ _ => "load_outbox_after"

/-- The reply of a lookup that finds nothing; changes have none. -/
def StoreCall.missing? : (c : StoreCall) → Option c.Reply
  | .findJournal _ => some (none : Option Journal)
  | .findAccount _ => some (none : Option Account)
  | .findAccountByCode _ => some (none : Option Account)
  | .findAccounts _ => some ([] : List Account)
  | .findTemplate _ => some (none : Option TxTemplate)
  | .findTransaction _ => some (none : Option Transaction)
  | .findTransactionByExternalId _ => some (none : Option Transaction)
  | .listAccountEntries _ _ _ => some ([] : List Entry)
  | .loadBalances _ _ _ => some ([] : List BalanceSnapshot)
  | .loadOutboxAfter _ _ => some ([] : List OutboxRecord)
  | .createJournal _ => none
  | .updateJournal _ _ => none
  | .createAccount _ => none
  | .updateAccount _ _ => none
  | .createTemplate _ => none
  | .commitTransaction _ => none

/-- A fault planned for a method: an error, or nothing found. -/
structure Fault where
  method : String
  error : Option StoreError

namespace Fault

/-- The first fault planned for a method, and the others. -/
def take (method : String) : List Fault → Option (Fault × List Fault)
  | [] => none
  | f :: fs =>
    if f.method = method then some (f, fs)
    else (take method fs).map fun (g, rest) => (g, f :: rest)

/-- What a call that meets a fault comes out with; nothing if the fault does not concern it. -/
def outcome? (f : Fault) (c : StoreCall) : Option (StoreResult c.Reply) :=
  match f.error with
  | some e => some (.error (.error e))
  | none => c.missing?.map .ok

end Fault

/-- A backend whose calls meet planned faults first. -/
def Backend.withFaults {σ : Type} (backend : Backend σ) : Backend (List Fault × σ) :=
  fun c (faults, s) =>
    let (met, faults) := match Fault.take c.method faults with
      | some (f, rest) => (f.outcome? c, rest)
      | none => (none, faults)
    match met with
    | some result => (result, faults, s)
    | none =>
      let (result, s) := backend c s
      (result, faults, s)

end DoubleEntry
