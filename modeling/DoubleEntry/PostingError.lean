import DoubleEntry.Primitive
import DoubleEntry.Param.Value

/-!
# What can be wrong with a template or a posting

Every failure here follows from the template, the parameters and nothing else, and is raised before
anything is written.
-/

namespace DoubleEntry

/-- Why a template is refused or a posting fails. -/
inductive PostingError where
  /-- The template itself is unusable. -/
  | invalidTemplate (reason : String)
  /-- A declared parameter without a default was not supplied. -/
  | missingParameter (name : String)
  /-- A supplied value does not convert to the declared type. -/
  | invalidParameterType (name : String) (expected found : DataType)
  /-- An expression names a parameter that is not bound. -/
  | unboundParameter (name : String)
  /-- An expression came out with a value that its slot does not take. -/
  | typeMismatch (slot : String) (expected found : DataType)
  /-- Debits and credits of a currency and layer differ. -/
  | unbalanced (currency : Currency) (layer : Layer) (debits credits : Decimal)
  /-- An entry came out with a negative amount. -/
  | negativeUnits (entry : Nat) (units : Decimal)
  /-- A value of the right type is unusable. -/
  | invalidValue (reason : String)
  /-- A primitive value is refused. -/
  | value (e : ValueError)
deriving DecidableEq

def PostingError.message : PostingError → String
  | .invalidTemplate reason => s!"invalid template: {reason}"
  | .missingParameter name => s!"missing parameter '{name}'"
  | .invalidParameterType name expected found =>
    s!"parameter '{name}' expects {expected}, got {found}"
  | .unboundParameter name => s!"unbound parameter '{name}'"
  | .typeMismatch slot expected found => s!"{slot} expects {expected}, resolved to {found}"
  | .unbalanced currency layer debits credits =>
    s!"unbalanced transaction for {currency}/{layer}: debits {debits} != credits {credits}"
  | .negativeUnits entry units => s!"entry {entry} resolved to negative units {units}"
  | .invalidValue reason => s!"invalid value: {reason}"
  | .value e => e.message

def PostingError.kind : PostingError → String
  | .invalidTemplate _ => "InvalidTemplate"
  | .missingParameter _ => "MissingParameter"
  | .invalidParameterType _ _ _ => "InvalidParameterType"
  | .unboundParameter _ => "UnboundParameter"
  | .typeMismatch _ _ _ => "TypeMismatch"
  | .unbalanced _ _ _ _ => "UnbalancedTransaction"
  | .negativeUnits _ _ => "NegativeUnits"
  | .invalidValue _ => "InvalidValue"
  | .value e => e.kind

end DoubleEntry
