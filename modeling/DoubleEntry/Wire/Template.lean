import DoubleEntry.Template.Basic
import DoubleEntry.Wire.Scalar

/-!
# JSON forms of templates

Templates with parsed expressions and templates as they are handed in have the same members; the
fields of their headers and entries are texts in both, parsed in the former.
-/

namespace DoubleEntry

/-! ## Parameter declarations -/

/-- The members of a declaration whose default is encoded by `f`. -/
def declarationToJson {ε : Type} (f : ε → Json) (name : String) (t : DataType) (default : Option ε)
    (description : Option String) : Json :=
  .ofMembers [
    ("name", .string name),
    ("data_type", .ofText t),
    ("default", .ofOption f default),
    ("description", .ofOption .string description)]

/-- The members of a declaration whose default is decoded by `d`. -/
def declarationRecord {ε α : Type} (d : Decoder ε)
    (make : String → DataType → Option ε → Option String → α) : Record α :=
  make <$> .required "name" Decode.string
    <*> .required "data_type" DataType.fromJson
    <*> .optional "default" d
    <*> .optional "description" Decode.string

def ParamDefinition.toJson (d : ParamDefinition) : Json :=
  declarationToJson .ofText d.name d.dataType d.default d.description

def ParamDefinition.fromJson : Decoder ParamDefinition :=
  (declarationRecord Expr.fromJson ParamDefinition.mk).decode "struct ParamDefinition"

def NewParamDefinition.toJson (d : NewParamDefinition) : Json :=
  declarationToJson .string d.name d.dataType d.default d.description

def NewParamDefinition.fromJson : Decoder NewParamDefinition :=
  (declarationRecord Decode.string NewParamDefinition.mk).decode "struct NewParamDefinition"

/-! ## Headers and entries -/

/-- Encode a header whose fields are encoded by `f`. -/
def HeaderFields.toJson {ε : Type} (f : ε → Json) (h : HeaderFields ε) : Json :=
  .ofMembers [
    ("journal_id", f h.journalId),
    ("effective", f h.effective),
    ("correlation_id", .ofOption f h.correlationId),
    ("external_id", .ofOption f h.externalId),
    ("description", .ofOption f h.description),
    ("metadata", .ofOption f h.metadata)]

/-- Decode a header whose fields are decoded by `d`. -/
def HeaderFields.fromJson {ε : Type} (title : String) (d : Decoder ε) : Decoder (HeaderFields ε) :=
  Record.decode title <|
    HeaderFields.mk <$> .required "journal_id" d
      <*> .required "effective" d
      <*> .optional "correlation_id" d
      <*> .optional "external_id" d
      <*> .optional "description" d
      <*> .optional "metadata" d

/-- Encode an entry whose fields are encoded by `f`. -/
def EntryFields.toJson {ε : Type} (f : ε → Json) (e : EntryFields ε) : Json :=
  .ofMembers [
    ("entry_type", .string e.entryType),
    ("account_id", f e.accountId),
    ("currency", f e.currency),
    ("direction", .ofText e.direction),
    ("layer", .ofText e.layer),
    ("units", f e.units),
    ("description", .ofOption f e.description)]

/-- Decode an entry whose fields are decoded by `d`. -/
def EntryFields.fromJson {ε : Type} (title : String) (d : Decoder ε) : Decoder (EntryFields ε) :=
  Record.decode title <|
    EntryFields.mk <$> .required "entry_type" Decode.string
      <*> .required "account_id" d
      <*> .required "currency" d
      <*> .required "direction" Side.fromJson
      <*> .required "layer" Layer.fromJson
      <*> .required "units" d
      <*> .optional "description" d

/-! ## Templates -/

def TxTemplate.toJson (t : TxTemplate) : Json :=
  .ofMembers [
    ("id", .ofText t.id),
    ("code", .string t.code),
    ("description", .ofOption .string t.description),
    ("params", .ofList ParamDefinition.toJson t.params),
    ("transaction", t.transaction.toJson .ofText),
    ("entries", .ofList (EntryFields.toJson .ofText) t.entries),
    ("metadata", .orNull t.metadata),
    ("created_at", .ofText t.createdAt)]

/-- Decode a template; its creation checks are not repeated. -/
def TxTemplate.fromJson : Decoder TxTemplate :=
  Record.decode "struct TxTemplate" <|
    TxTemplate.mk <$> .required "id" Id.fromJson
      <*> .required "code" Decode.string
      <*> .optional "description" Decode.string
      <*> .required "params" (Decode.list ParamDefinition.fromJson)
      <*> .required "transaction" (HeaderFields.fromJson "struct TxInputTemplate" Expr.fromJson)
      <*> .required "entries"
        (Decode.list (EntryFields.fromJson "struct EntryTemplate" Expr.fromJson))
      <*> .optional "metadata" Decode.any
      <*> .required "created_at" Timestamp.fromJson

def NewTxTemplate.toJson (t : NewTxTemplate) : Json :=
  .ofMembers [
    ("id", .ofText t.id),
    ("code", .string t.code),
    ("description", .ofOption .string t.description),
    ("params", .ofList NewParamDefinition.toJson t.params),
    ("transaction", t.transaction.toJson .string),
    ("entries", .ofList (EntryFields.toJson .string) t.entries),
    ("metadata", .orNull t.metadata)]

def NewTxTemplate.fromJson : Decoder NewTxTemplate :=
  Record.decode "struct NewTxTemplate" <|
    NewTxTemplate.mk <$> .required "id" Id.fromJson
      <*> .required "code" Decode.string
      <*> .optional "description" Decode.string
      <*> .required "params" (Decode.list NewParamDefinition.fromJson)
      <*> .required "transaction" (HeaderFields.fromJson "struct NewTxInput" Decode.string)
      <*> .required "entries"
        (Decode.list (EntryFields.fromJson "struct NewEntryTemplate" Decode.string))
      <*> .optional "metadata" Decode.any

end DoubleEntry
