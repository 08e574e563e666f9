import DoubleEntry.Proofs.Wire.Values
import DoubleEntry.Wire.Template

/-!
# Templates decode as far as their expressions do

Everything in the JSON form of a template but its expressions decodes to what it was written from.
So what a template decodes to is the same template with every expression read from its own text
(`TxTemplate.fromJson_toJson_eq_ok`), and metadata that is null counts as missing.

Headers, entries, declarations and templates are compared part by part by `Rel`, where the relation
is one between expressions.
-/

namespace DoubleEntry

/-! ## Templates compared part by part -/

section Parts

variable {ε δ : Type} {R : ε → δ → Prop}

/-- The fields of a header that are there. -/
def HeaderFields.fields (h : HeaderFields ε) : List ε :=
  h.journalId :: h.effective :: (h.correlationId.toList ++ h.externalId.toList ++
    h.description.toList ++ h.metadata.toList)

@[mk_iff]
structure HeaderFields.Rel (R : ε → δ → Prop) (h : HeaderFields ε) (h' : HeaderFields δ) :
    Prop where
  journalId : R h.journalId h'.journalId
  effective : R h.effective h'.effective
  correlationId : Option.Rel R h.correlationId h'.correlationId
  externalId : Option.Rel R h.externalId h'.externalId
  description : Option.Rel R h.description h'.description
  metadata : Option.Rel R h.metadata h'.metadata

/-- The fields of an entry that are there. -/
def EntryFields.fields (e : EntryFields ε) : List ε :=
  e.accountId :: e.currency :: e.units :: e.description.toList

@[mk_iff]
structure EntryFields.Rel (R : ε → δ → Prop) (e : EntryFields ε) (e' : EntryFields δ) :
    Prop where
  accountId : R e.accountId e'.accountId
  currency : R e.currency e'.currency
  units : R e.units e'.units
  description : Option.Rel R e.description e'.description
  entryType : e.entryType = e'.entryType
  direction : e.direction = e'.direction
  layer : e.layer = e'.layer

@[mk_iff]
structure ParamDefinition.Rel (R : Expr → Expr → Prop) (d d' : ParamDefinition) : Prop where
  default : Option.Rel R d.default d'.default
  name : d.name = d'.name
  dataType : d.dataType = d'.dataType
  description : d.description = d'.description

/-- The expressions of a template. -/
def TxTemplate.exprs (t : TxTemplate) : List Expr :=
  t.params.flatMap (fun d => d.default.toList) ++ t.transaction.fields ++
    t.entries.flatMap EntryFields.fields

@[mk_iff]
structure TxTemplate.Rel (R : Expr → Expr → Prop) (t t' : TxTemplate) : Prop where
  params : List.Forall₂ (ParamDefinition.Rel R) t.params t'.params
  transaction : t.transaction.Rel R t'.transaction
  entries : List.Forall₂ (EntryFields.Rel R) t.entries t'.entries
  id : t.id = t'.id
  code : t.code = t'.code
  description : t.description = t'.description
  metadata : t.metadata = t'.metadata
  createdAt : t.createdAt = t'.createdAt

/-! ### The expressions of related templates -/

theorem forall₂_toList {o : Option ε} {o' : Option δ} (h : Option.Rel R o o') :
    List.Forall₂ R o.toList o'.toList := by
  cases h with
  | none => exact .nil
  | some h => exact .cons h .nil

theorem forall₂_flatMap {α β : Type} {S : α → β → Prop} {f : α → List ε} {g : β → List δ}
    (hfg : ∀ {a b}, S a b → List.Forall₂ R (f a) (g b)) {as : List α} {bs : List β}
    (h : List.Forall₂ S as bs) : List.Forall₂ R (as.flatMap f) (bs.flatMap g) := by
  induction h with
  | nil => exact .nil
  | cons hab _ ih => exact List.rel_append (hfg hab) ih

theorem HeaderFields.Rel.forall₂_fields {h : HeaderFields ε} {h' : HeaderFields δ}
    (hrel : h.Rel R h') : List.Forall₂ R h.fields h'.fields :=
  .cons hrel.journalId <| .cons hrel.effective <| List.rel_append (List.rel_append (List.rel_append
    (forall₂_toList hrel.correlationId) (forall₂_toList hrel.externalId))
    (forall₂_toList hrel.description)) (forall₂_toList hrel.metadata)

theorem EntryFields.Rel.forall₂_fields {e : EntryFields ε} {e' : EntryFields δ}
    (hrel : e.Rel R e') : List.Forall₂ R e.fields e'.fields :=
  .cons hrel.accountId <| .cons hrel.currency <| .cons hrel.units <|
    forall₂_toList hrel.description

/-- The expressions of related templates are related. -/
theorem TxTemplate.Rel.forall₂_exprs {R : Expr → Expr → Prop} {t t' : TxTemplate}
    (h : t.Rel R t') : List.Forall₂ R t.exprs t'.exprs :=
  List.rel_append (List.rel_append (forall₂_flatMap (fun hd => forall₂_toList hd.default) h.params)
    h.transaction.forall₂_fields) (forall₂_flatMap (fun he => he.forall₂_fields) h.entries)

/-! ### A template related to itself -/

theorem rel_self_option {S : ε → ε → Prop} {o : Option ε} (h : ∀ a ∈ o.toList, S a a) :
    Option.Rel S o o := by
  cases o with
  | none => exact .none
  | some a => exact .some (h a (List.mem_singleton_self a))

theorem HeaderFields.rel_self {S : ε → ε → Prop} {h : HeaderFields ε}
    (hS : ∀ a ∈ h.fields, S a a) : h.Rel S h := by
  simp only [fields, List.forall_mem_cons, List.forall_mem_append] at hS
  obtain ⟨hjournal, heffective, ⟨⟨hcorrelation, hexternal⟩, hdescription⟩, hmetadata⟩ := hS
  exact ⟨hjournal, heffective, rel_self_option hcorrelation, rel_self_option hexternal,
    rel_self_option hdescription, rel_self_option hmetadata⟩

theorem EntryFields.rel_self {S : ε → ε → Prop} {e : EntryFields ε}
    (hS : ∀ a ∈ e.fields, S a a) : e.Rel S e := by
  simp only [fields, List.forall_mem_cons] at hS
  obtain ⟨haccount, hcurrency, hunits, hdescription⟩ := hS
  exact ⟨haccount, hcurrency, hunits, rel_self_option hdescription, rfl, rfl, rfl⟩

/-- A template is related to itself exactly if its expressions are. -/
theorem TxTemplate.rel_self_iff {R : Expr → Expr → Prop} {t : TxTemplate} :
    t.Rel R t ↔ ∀ e ∈ t.exprs, R e e := by
  constructor
  · exact fun h => List.forall₂_same.mp h.forall₂_exprs
  · intro h
    simp only [exprs, List.forall_mem_append, List.mem_flatMap] at h
    obtain ⟨⟨hparams, hheader⟩, hentries⟩ := h
    exact {
      id := rfl, code := rfl, description := rfl, metadata := rfl, createdAt := rfl
      params := List.forall₂_same.mpr fun d hd =>
        ⟨rel_self_option fun e he => hparams e ⟨d, hd, he⟩, rfl, rfl, rfl⟩
      transaction := HeaderFields.rel_self hheader
      entries := List.forall₂_same.mpr fun entry hentry =>
        EntryFields.rel_self fun e he => hentries e ⟨entry, hentry, he⟩ }

end Parts

/-! ## Expressions -/

/-- The text of an expression decodes to this one. -/
def Expr.ReadsAs (e e' : Expr) : Prop := Expr.fromJson (.ofText e) = .ok e'

theorem Expr.readsAs_iff {e e' : Expr} : e.ReadsAs e' ↔ Expr.ofString (toString e) = .ok e' := by
  unfold ReadsAs Expr.fromJson
  show (Except.ok (toString e) >>= _) = .ok e' ↔ _
  rw [ok_bind]
  cases Expr.ofString (toString e) with
  | error why => exact iff_of_false nofun nofun
  | ok e'' => exact Iff.of_eq (by simp [pure, Except.pure])

/-! ## Headers, entries and declarations -/

section Decoding

variable {ε δ : Type} {f : ε → Json} {d : Decoder δ} {title : String}

theorem HeaderFields.fromJson_toJson_eq_ok (hf : ∀ a, f a ≠ .null) {h : HeaderFields ε}
    {h' : HeaderFields δ} :
    HeaderFields.fromJson title d (h.toJson f) = .ok h' ↔
      h.Rel (fun a b => d (f a) = .ok b) h' := by
  unfold HeaderFields.fromJson HeaderFields.toJson
  rw [Record.decode_ofMembers (by apply_rules [Record.Sound.seq, Record.sound_pure,
    Record.sound_required, Record.sound_optional]) (by simp)]
  cases h'
  simp [Record.build_optional_eq_ok, Decode.optional_ofOption hf, List.lookup_cons,
    HeaderFields.rel_iff, and_assoc]

theorem EntryFields.fromJson_toJson_eq_ok (hf : ∀ a, f a ≠ .null) {e : EntryFields ε}
    {e' : EntryFields δ} :
    EntryFields.fromJson title d (e.toJson f) = .ok e' ↔
      e.Rel (fun a b => d (f a) = .ok b) e' := by
  unfold EntryFields.fromJson EntryFields.toJson
  rw [Record.decode_ofMembers (by apply_rules [Record.Sound.seq, Record.sound_pure,
    Record.sound_required, Record.sound_optional]) (by simp)]
  cases e'
  simp [Record.build_optional_eq_ok, Decode.optional_ofOption hf, List.lookup_cons,
    EntryFields.rel_iff, and_assoc]

end Decoding

theorem ParamDefinition.fromJson_toJson_eq_ok {p p' : ParamDefinition} :
    ParamDefinition.fromJson p.toJson = .ok p' ↔ p.Rel Expr.ReadsAs p' := by
  unfold ParamDefinition.fromJson ParamDefinition.toJson declarationRecord declarationToJson
  rw [Record.decode_ofMembers (by apply_rules [Record.Sound.seq, Record.sound_pure,
    Record.sound_required, Record.sound_optional]) (by simp)]
  have hdefault : ∀ {o o' : Option Expr},
      Decode.optional Expr.fromJson (.ofOption .ofText o) = .ok o' ↔
        Option.Rel Expr.ReadsAs o o' := Decode.optional_ofOption Json.ofText_ne_null
  cases p'
  simp [Record.build_optional_eq_ok, hdefault, List.lookup_cons, ParamDefinition.rel_iff]

/-! ## Templates -/

/-- A template as it is read: metadata that is null is missing. -/
def TxTemplate.withoutNull (t : TxTemplate) : TxTemplate :=
  { t with metadata := Json.present? t.metadata }

/-- **A template decodes to the same one with every expression read from its own text.** -/
theorem TxTemplate.fromJson_toJson_eq_ok {t t' : TxTemplate} (h : t.createdAt.Regular) :
    TxTemplate.fromJson t.toJson = .ok t' ↔ t.withoutNull.Rel Expr.ReadsAs t' := by
  unfold TxTemplate.fromJson TxTemplate.toJson
  rw [Record.decode_ofMembers (by apply_rules [Record.Sound.seq, Record.sound_pure,
    Record.sound_required, Record.sound_optional]) (by simp)]
  have hheader : ∀ {title : String} {h h' : HeaderTemplate},
      HeaderFields.fromJson title Expr.fromJson (h.toJson .ofText) = .ok h' ↔
        h.Rel Expr.ReadsAs h' := HeaderFields.fromJson_toJson_eq_ok Json.ofText_ne_null
  have hentry : ∀ {title : String} {e e' : EntryTemplate},
      EntryFields.fromJson title Expr.fromJson (e.toJson .ofText) = .ok e' ↔
        e.Rel Expr.ReadsAs e' := EntryFields.fromJson_toJson_eq_ok Json.ofText_ne_null
  cases t'
  simp [Record.build_optional_eq_ok, Decode.list_ofList, hheader,
    hentry, ParamDefinition.fromJson_toJson_eq_ok, Timestamp.fromJson_ofText h, List.lookup_cons,
    TxTemplate.rel_iff, withoutNull, and_assoc]

end DoubleEntry
