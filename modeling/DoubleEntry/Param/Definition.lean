import DoubleEntry.Expr.Reader

/-!
# Declared parameters and their binding

A `ParamDefinition` declares a parameter with its type and, where it is optional, a literal
default. `define` checks a declaration whose default is still source text: the name is an
identifier and the default a literal that the type takes.

`bind` completes supplied values to exactly the declared names, each with a value of its declared
type, in the order of declaration. Supplied names that are not declared are returned beside it and
never cause a failure.
-/

namespace DoubleEntry

/-! ## Declarations -/

/-- A declared parameter. -/
structure ParamDefinition where
  name : String
  dataType : DataType
  default : Option Expr
  description : Option String

/-- A parameter as it is handed in, with the source of its default. -/
structure NewParamDefinition where
  name : String
  dataType : DataType
  default : Option String
  description : Option String

/-- Check the source of a default against the declared name and type. -/
def checkDefault (name : String) (t : DataType) (source : String) : Except PostingError Expr := do
  let e ← Expr.ofString source
  match e with
  | .param _ =>
    throw (.invalidTemplate s!"default for '{name}' must be a literal, got '{e}'")
  | .literal v =>
    if v.dataType.assignableTo t then pure e
    else throw (.invalidTemplate s!"default for '{name}' is {v.dataType}, declared {t}")

def NewParamDefinition.define (new : NewParamDefinition) :
    Except PostingError ParamDefinition := do
  if !Text.isIdentifier new.name.toList then
    throw (.invalidTemplate s!"invalid parameter name '{new.name}'")
  let default ← new.default.mapM (checkDefault new.name new.dataType)
  pure ⟨new.name, new.dataType, default, new.description⟩

/-! ## Binding -/

/-- Supplied parameters completed to the declared ones, and the names that were not declared. -/
structure BoundParams where
  params : Params
  ignored : List String

def ParamDefinition.convert (d : ParamDefinition) (v : ParamValue) :
    Except PostingError ParamValue :=
  match v.coerceTo d.dataType with
  | some w => .ok w
  | none => .error (.invalidParameterType d.name d.dataType v.dataType)

/-- The value of a declared parameter: the supplied one, else the default. -/
def ParamDefinition.valueIn (d : ParamDefinition) (supplied : Params) :
    Except PostingError ParamValue :=
  match supplied.get? d.name with
  | some v => d.convert v
  | none =>
    match d.default.bind Expr.literal? with
    | some v => d.convert v
    | none => .error (.missingParameter d.name)

/-- Bind the declared parameters on top of those bound before. -/
def bindFrom (supplied : Params) (bound : Params) :
    List ParamDefinition → Except PostingError Params
  | [] => .ok bound
  | d :: ds =>
    match d.valueIn supplied with
    | .error e => .error e
    | .ok v => bindFrom supplied (bound.put d.name v) ds

/-- The supplied names that are not declared, in ascending order. -/
def ignoredNames (definitions : List ParamDefinition) (supplied : Params) : List String :=
  supplied.keys.filter fun name => !definitions.any fun d => d.name == name

def bind (definitions : List ParamDefinition) (supplied : Params) :
    Except PostingError BoundParams :=
  match bindFrom supplied ∅ definitions with
  | .error e => .error e
  | .ok bound => .ok ⟨bound, ignoredNames definitions supplied⟩

end DoubleEntry
