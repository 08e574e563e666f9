import DoubleEntry.Store.Call

/-!
# Errors of the engine

Refused values, failed postings and store errors come together in one kind, so that a caller can
tell what went wrong without knowing where. Only a conflict with another posting is worth trying
again as it is.
-/

namespace DoubleEntry

/-- Why an operation of the ledger fails. -/
inductive EngineError where
  | templateNotFound (code : String)
  | notFound (what : String)
  | duplicateCode (what : String)
  /-- The transaction that holds the external identifier cannot be read back. -/
  | duplicateExternalId (what : String)
  | invalidTemplate (reason : String)
  | missingParameter (name : String)
  | invalidParameterType (name : String) (expected found : DataType)
  | unboundParameter (name : String)
  | typeMismatch (slot : String) (expected found : DataType)
  | unbalanced (currency : Currency) (layer : Layer) (debits credits : Decimal)
  | invalidEntry (reason : String)
  | validation (reason : String)
  | alreadyVoided (id : TransactionId)
  | invariantViolation (what : String)
  | concurrencyConflict (what : String)
  | storageUnavailable (what : String)
  | storage (e : StoreError)
deriving DecidableEq

namespace EngineError

def message : EngineError → String
  | .templateNotFound code => s!"transaction template '{code}' not found"
  | .notFound w => s!"not found: {w}"
  | .duplicateCode w => s!"duplicate code: {w}"
  | .duplicateExternalId w => s!"duplicate external id: {w}"
  | .invalidTemplate reason => s!"invalid template: {reason}"
  | .missingParameter name => s!"missing parameter '{name}'"
  | .invalidParameterType name expected found =>
    s!"parameter '{name}' expects {expected}, got {found}"
  | .unboundParameter name => s!"unbound parameter '{name}'"
  | .typeMismatch slot expected found => s!"{slot} expects {expected}, resolved to {found}"
  | .unbalanced currency layer debits credits =>
    s!"unbalanced transaction for {currency}/{layer}: debits {debits} != credits {credits}"
  | .invalidEntry reason => s!"invalid entry: {reason}"
  | .validation reason => s!"validation failed: {reason}"
  | .alreadyVoided i => s!"transaction {i} is already voided"
  | .invariantViolation w => s!"ledger invariant violated: {w}"
  | .concurrencyConflict w => s!"concurrency conflict: {w}"
  | .storageUnavailable w => s!"storage unavailable: {w}"
  | .storage e => e.message

def kind : EngineError → String
  | .templateNotFound _ => "TemplateNotFound"
  | .notFound _ => "NotFound"
  | .duplicateCode _ => "DuplicateCode"
  | .duplicateExternalId _ => "DuplicateExternalId"
  | .invalidTemplate _ => "InvalidTemplate"
  | .missingParameter _ => "MissingParameter"
  | .invalidParameterType _ _ _ => "InvalidParameterType"
  | .unboundParameter _ => "UnboundParameter"
  | .typeMismatch _ _ _ => "TypeMismatch"
  | .unbalanced _ _ _ _ => "UnbalancedTransaction"
  | .invalidEntry _ => "InvalidEntry"
  | .validation _ => "Validation"
  | .alreadyVoided _ => "AlreadyVoided"
  | .invariantViolation _ => "InvariantViolation"
  | .concurrencyConflict _ => "ConcurrencyConflict"
  | .storageUnavailable _ => "StorageUnavailable"
  | .storage _ => "Storage"

def isRetryable : EngineError → Bool
  | .concurrencyConflict _ => true
  | _ => false

/-! ## Failures from below -/

def ofValue : ValueError → EngineError
  | .validation reason => .validation reason
  | .unitsOverflow total added => .invariantViolation (ValueError.unitsOverflow total added).message
  | e => .validation e.message

def ofPosting : PostingError → EngineError
  | .invalidTemplate reason => .invalidTemplate reason
  | .missingParameter name => .missingParameter name
  | .invalidParameterType name expected found => .invalidParameterType name expected found
  | .unboundParameter name => .unboundParameter name
  | .typeMismatch slot expected found => .typeMismatch slot expected found
  | .unbalanced currency layer debits credits => .unbalanced currency layer debits credits
  | .negativeUnits entry units => .invalidEntry (PostingError.negativeUnits entry units).message
  | .invalidValue reason => .invalidEntry reason
  | .value e => ofValue e

def ofStore : StoreError → EngineError
  | .notFound w => .notFound w
  | .duplicateCode w => .duplicateCode w
  | .duplicateExternalId w => .duplicateExternalId w
  | .alreadyVoided i => .alreadyVoided i
  | .concurrency w => .concurrencyConflict w
  | .invariant w => .invariantViolation w
  | .unavailable w => .storageUnavailable w
  | .corrupt w => .storage (.corrupt w)

end EngineError

end DoubleEntry
