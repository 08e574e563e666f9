import DoubleEntry.Database.Rows
import DoubleEntry.Database.Statements
import DoubleEntry.Proofs.Engine.Operations
import DoubleEntry.Proofs.Expr.Written
import DoubleEntry.Proofs.Template.Encoded
import DoubleEntry.Proofs.Template.Soundness
import DoubleEntry.Proofs.Wire.Events

/-!
# What is stored of a template is read again

A template is stored as its JSON form, in its own row and in the outbox record of its creation. All
of its expressions were read from source texts, so whether it is read again depends on its literals
(`TxTemplate.literals`), and `ParamValue.Durable` is the answer for each of them.

Main statement: `reads_back_created`. A created template comes back exactly if its literals are
durable, and then both readers of the database return it. With an instant outside the years 0 to
9999 among them it does not come back, and both readers call their rows corrupt. No source text
shows such a year, but an offset can lead out of the year 9999 (`unreadable_created`).
-/

namespace DoubleEntry

/-! ## Where expressions come from -/

/-- An expression that was read from this text. -/
def Expr.SourceOf (source : String) (e : Expr) : Prop := ofString source = .ok e

theorem HeaderFields.rel_of_parse {h : HeaderFields String} {h' : HeaderTemplate}
    (hparse : h.parse = .ok h') : h.Rel Expr.SourceOf h' := by
  obtain ⟨journalId, hjournal, hparse⟩ := bind_eq_ok.mp hparse
  obtain ⟨effective, heffective, hparse⟩ := bind_eq_ok.mp hparse
  obtain ⟨correlationId, hcorrelation, hparse⟩ := bind_eq_ok.mp hparse
  obtain ⟨externalId, hexternal, hparse⟩ := bind_eq_ok.mp hparse
  obtain ⟨description, hdescription, hparse⟩ := bind_eq_ok.mp hparse
  obtain ⟨metadata, hmetadata, hparse⟩ := bind_eq_ok.mp hparse
  cases hparse
  exact ⟨hjournal, heffective, option_mapM_eq_ok.mp hcorrelation, option_mapM_eq_ok.mp hexternal,
    option_mapM_eq_ok.mp hdescription, option_mapM_eq_ok.mp hmetadata⟩

theorem EntryFields.rel_of_parse {e : EntryFields String} {e' : EntryTemplate}
    (hparse : e.parse = .ok e') :
    ({ e with entryType := Text.trim e.entryType } : EntryFields String).Rel Expr.SourceOf e' := by
  unfold parse at hparse
  dsimp only at hparse
  split at hparse
  · cases hparse
  · obtain ⟨accountId, haccount, hparse⟩ := bind_eq_ok.mp hparse
    obtain ⟨currency, hcurrency, hparse⟩ := bind_eq_ok.mp hparse
    obtain ⟨units, hunits, hparse⟩ := bind_eq_ok.mp hparse
    obtain ⟨description, hdescription, hparse⟩ := bind_eq_ok.mp hparse
    cases hparse
    exact ⟨haccount, hcurrency, hunits, option_mapM_eq_ok.mp hdescription, rfl, rfl, rfl⟩

/-- Defaults are read from source texts. -/
theorem exists_source_of_defineParams {seen : List String} {new : List NewParamDefinition}
    {params : List ParamDefinition} (h : defineParams seen new = .ok params) :
    ∀ d ∈ params, ∀ e, d.default = some e → ∃ source, Expr.SourceOf source e := by
  induction new generalizing seen params with
  | nil =>
    cases h
    exact fun d hd => absurd hd List.not_mem_nil
  | cons p rest ih =>
    unfold defineParams at h
    split at h
    · cases h
    · obtain ⟨d, hd, h⟩ := bind_eq_ok.mp h
      obtain ⟨ds, hds, h⟩ := bind_eq_ok.mp h
      cases h
      refine List.forall_mem_cons.mpr ⟨fun e he => ?_, ih hds⟩
      obtain ⟨-, -, -, hdefault⟩ := p.define_eq_ok hd
      obtain ⟨source, -, hsource⟩ := exists_mem_of_forall₂ (forall₂_toList hdefault)
        (Option.mem_toList.mpr he)
      exact ⟨source, (checkDefault_eq_ok hsource).1⟩

/-- **Every expression of a template was read from a source text.** -/
theorem NewTxTemplate.exists_source {new : NewTxTemplate} {now : Timestamp} {t : TxTemplate}
    (h : new.parse now = .ok t) : ∀ e ∈ t.exprs, ∃ source, Expr.SourceOf source e := by
  obtain ⟨params, transaction, entries, hparams, hheader, hentries, -, rfl⟩ := parse_eq_ok h
  simp only [TxTemplate.exprs, List.forall_mem_append, List.mem_flatMap]
  refine ⟨⟨?_, fun e he => ?_⟩, ?_⟩
  · rintro e ⟨d, hd, he⟩
    exact exists_source_of_defineParams hparams d hd e (Option.mem_toList.mp he)
  · obtain ⟨source, -, hsource⟩ :=
      exists_mem_of_forall₂ (HeaderFields.rel_of_parse hheader).forall₂_fields he
    exact ⟨source, hsource⟩
  · rintro e ⟨entry, hentry, he⟩
    obtain ⟨new, -, hparse⟩ :=
      exists_mem_of_forall₂ (forall₂_of_mapM_eq_ok hentries) hentry
    obtain ⟨source, -, hsource⟩ :=
      exists_mem_of_forall₂ (EntryFields.rel_of_parse hparse).forall₂_fields he
    exact ⟨source, hsource⟩

/-! ## The literals of a template -/

/-- The literals of a template: defaults, and those of its header and its entries. -/
def TxTemplate.literals (t : TxTemplate) : List ParamValue := t.exprs.filterMap Expr.literal?

theorem TxTemplate.durable_iff {t : TxTemplate} :
    (∀ e ∈ t.exprs, e.Durable) ↔ ∀ v ∈ t.literals, v.Durable := by
  constructor
  · intro h v hv
    obtain ⟨e, he, heq⟩ := List.mem_filterMap.mp hv
    exact h e he v heq
  · exact fun h e he v heq => h v (List.mem_filterMap.mpr ⟨e, he, heq⟩)

theorem Expr.eq_of_literal? {e : Expr} {v : ParamValue} (h : e.literal? = some v) :
    e = .literal v := by
  cases e with
  | literal w => cases h; rfl
  | param _ => cases h

section Created

variable {new : NewTxTemplate} {now : Timestamp} {t : TxTemplate}

theorem createdAt_of_parse (h : new.parse now = .ok t) : t.createdAt = now := by
  obtain ⟨params, transaction, entries, -, -, -, -, rfl⟩ := NewTxTemplate.parse_eq_ok h
  rfl

/-- A template that was parsed decodes to itself exactly if its literals are durable. -/
theorem TxTemplate.fromJson_toJson_iff (hnow : now.Regular) (h : new.parse now = .ok t) :
    TxTemplate.fromJson t.toJson = .ok t.withoutNull ↔ ∀ v ∈ t.literals, v.Durable := by
  have hcreated : t.createdAt.Regular := by rwa [createdAt_of_parse h]
  rw [fromJson_toJson_eq_ok hcreated, rel_self_iff, ← durable_iff]
  refine forall₂_congr fun e he => ?_
  obtain ⟨source, hsource⟩ := NewTxTemplate.exists_source h e he
  rw [Expr.readsAs_iff, Expr.ofString_toString_iff (Expr.wellFormed_of_ofString hsource)]

/-- An instant outside the years 0 to 9999 leaves a template that does not decode. -/
theorem TxTemplate.fromJson_toJson_eq_error (hnow : now.Regular) (h : new.parse now = .ok t)
    {i : Timestamp} (hi : .timestamp i ∈ t.literals)
    (hyear : i.date.year < 0 ∨ 9999 < i.date.year) :
    ∃ e, TxTemplate.fromJson t.toJson = .error e := by
  cases hdecode : TxTemplate.fromJson t.toJson with
  | error e => exact ⟨e, rfl⟩
  | ok t' =>
    have hcreated : t.createdAt.Regular := by rwa [createdAt_of_parse h]
    have hexprs := ((fromJson_toJson_eq_ok hcreated).mp hdecode).forall₂_exprs
    obtain ⟨e, he, hliteral⟩ := List.mem_filterMap.mp hi
    obtain rfl := Expr.eq_of_literal? hliteral
    obtain ⟨e', -, hreads⟩ := exists_mem_of_forall₂ hexprs.flip he
    obtain ⟨why, herror⟩ := Expr.ofString_timestamp_eq_error hyear
    cases herror.symm.trans (Expr.readsAs_iff.mp hreads)

end Created

/-! ## Events of templates -/

/-- The event of a creation decodes as its template does. -/
theorem LedgerEvent.fromJson_templateCreated {t : TxTemplate} {e : LedgerEvent} :
    LedgerEvent.fromJson (LedgerEvent.templateCreated t).toJson = .ok e ↔
      ∃ t', TxTemplate.fromJson t.toJson = .ok t' ∧ .templateCreated t' = e := by
  refine (fromJson_ofMembers .templateCreated rfl (by simp)).trans ?_
  simp [Kind.record, List.lookup_cons]

/-! ## Rows -/

namespace Database

/-- The column of a row has the value that a statement binds to its parameter at this index. -/
def Statement.Shows (s : Statement) (row : Row) (index : Nat) (column : String) : Prop :=
  OrdMap.get? column row = s.params[index]?

/-- A row found for a template, as it was inserted. -/
def TemplateRow (t : TxTemplate) (row : Row) : Prop :=
  (Statement.insertTemplate t).Shows row 2 "definition"

/-- A row of the outbox, as it was inserted for a record. -/
structure RecordRow (r : OutboxRecord) (row : Row) : Prop where
  sequence : (Statement.insertRecord r).Shows row 0 "sequence"
  id : (Statement.insertRecord r).Shows row 1 "id"
  eventType : (Statement.insertRecord r).Shows row 2 "event_type"
  eventVersion : (Statement.insertRecord r).Shows row 3 "event_version"
  payload : (Statement.insertRecord r).Shows row 4 "payload"
  recordedAt : (Statement.insertRecord r).Shows row 5 "recorded_at"

theorem Statement.Shows.get {α : Type} {s : Statement} {row : Row} {index : Nat} {column : String}
    (h : s.Shows row index column) {v : SqlValue} (hv : s.params[index]? = some v)
    {read : ColumnReader α} {a : α} (hread : read v = .ok a) : row.get column read = .ok a := by
  have hcolumn : OrdMap.get? column row = s.params[index]? := h
  rw [Row.get, hcolumn, hv, Option.getD_some, hread]
  rfl

theorem readTemplate_of_templateRow {t : TxTemplate} {row : Row} (h : TemplateRow t row) :
    readTemplate row = decodeOr "template definition" TxTemplate.fromJson t.toJson := by
  have hcolumn : row.get "definition" asJson = .ok t.toJson := Statement.Shows.get h rfl rfl
  rw [readTemplate, hcolumn, ok_bind]

theorem asWord64_ofWord64 (n : UInt64) : asWord64 (.ofWord64 n) = .ok n := by
  show Except.ok (Int64.ofInt n.toInt64.toInt).toUInt64 = .ok n
  rw [Int64.ofInt_toInt]
  rfl

theorem asWord32_ofWord32 (n : UInt32) : asWord32 (.ofWord32 n) = .ok n := by
  show Except.ok (Int32.ofInt n.toInt32.toInt).toUInt32 = .ok n
  rw [Int32.ofInt_toInt]
  rfl

theorem readRecord_of_recordRow {r : OutboxRecord} {row : Row} (h : RecordRow r row) :
    readRecord row = decodeOr "outbox payload" LedgerEvent.fromJson r.payload.toJson >>= fun e =>
      if r.eventType ≠ e.eventType then
        corrupt s!"outbox event_type '{r.eventType}' does not match payload '{e.eventType}'"
      else pure { r with recordedAt := r.recordedAt.toMicros, payload := e } := by
  have hsequence : row.get "sequence" asWord64 = .ok r.sequence :=
    h.sequence.get rfl (asWord64_ofWord64 _)
  have hid : row.get "id" asUuid = .ok r.id := h.id.get rfl rfl
  have htype : row.get "event_type" asText = .ok r.eventType := h.eventType.get rfl rfl
  have hversion : row.get "event_version" asWord32 = .ok r.eventVersion :=
    h.eventVersion.get rfl (asWord32_ofWord32 _)
  have hpayload : row.get "payload" asJson = .ok r.payload.toJson := h.payload.get rfl rfl
  have hrecorded : row.get "recorded_at" asTimestamp = .ok r.recordedAt.toMicros :=
    h.recordedAt.get rfl rfl
  simp only [readRecord, hsequence, hid, htype, hversion, hpayload, hrecorded, ok_bind]
  refine congrArg (decodeOr "outbox payload" LedgerEvent.fromJson r.payload.toJson >>= ·)
    (funext fun e => ?_)
  split
  · rfl
  · rfl

/-- What a value that does not decode is reported as. -/
theorem decodeOr_eq_corrupt {α : Type} {d : Decoder α} {j : Json} {e : DecodeError}
    (h : d j = .error e) (noun : String) :
    ∃ why, decodeOr noun d j = .error (.error (.corrupt why)) := by
  unfold decodeOr
  rw [h]
  exact ⟨_, rfl⟩

end Database

/-! ## Reading back what was created -/

open Database

/-- A created template decodes to itself (metadata that is null being missing) exactly if all of its
literals are durable. Then it is found under its code, and the record of its creation is read from
the outbox. If an instant outside the years 0 to 9999 is among its literals, both are corrupt. -/
theorem reads_back_created {new : NewTxTemplate} {now : Timestamp} {t : TxTemplate}
    (hnow : now.Regular) (h : new.create now = .ok t) :
    (TxTemplate.fromJson t.toJson = .ok t.withoutNull ↔ ∀ v ∈ t.literals, v.Durable) ∧
      ((∀ v ∈ t.literals, v.Durable) →
        (∀ row, TemplateRow t row → readTemplate row = .ok t.withoutNull) ∧
        ∀ id sequence row, RecordRow (.ofEvent id sequence (.templateCreated t)) row →
          readRecord row = .ok { OutboxRecord.ofEvent id sequence (.templateCreated t.withoutNull)
            with recordedAt := t.createdAt.toMicros }) ∧
      ∀ i : Timestamp, .timestamp i ∈ t.literals → i.date.year < 0 ∨ 9999 < i.date.year →
        (∃ e, TxTemplate.fromJson t.toJson = .error e) ∧
        (∀ row, TemplateRow t row → ∃ why, readTemplate row = .error (.error (.corrupt why))) ∧
        ∀ id sequence row, RecordRow (.ofEvent id sequence (.templateCreated t)) row →
          ∃ why, readRecord row = .error (.error (.corrupt why)) := by
  have hparse := (NewTxTemplate.create_eq_ok.mp h).1
  have hiff := TxTemplate.fromJson_toJson_iff hnow hparse
  refine ⟨hiff, fun hdurable => ?_, fun i hi hyear => ?_⟩
  · have hdecode := hiff.mpr hdurable
    refine ⟨fun row hrow => ?_, fun id sequence row hrow => ?_⟩
    · rw [readTemplate_of_templateRow hrow, decodeOr, hdecode]
    · have hevent : decodeOr "outbox payload" LedgerEvent.fromJson
          (LedgerEvent.templateCreated t).toJson = .ok (.templateCreated t.withoutNull) := by
        rw [decodeOr, LedgerEvent.fromJson_templateCreated.mpr ⟨_, hdecode, rfl⟩]
      rw [readRecord_of_recordRow hrow, OutboxRecord.ofEvent, hevent, ok_bind]
      exact if_neg fun hne => hne rfl
  · obtain ⟨e, herror⟩ := TxTemplate.fromJson_toJson_eq_error hnow hparse hi hyear
    refine ⟨⟨e, herror⟩, fun row hrow => ?_, fun id sequence row hrow => ?_⟩
    · rw [readTemplate_of_templateRow hrow]
      exact decodeOr_eq_corrupt herror _
    · obtain ⟨why, hevent⟩ : ∃ why, LedgerEvent.fromJson (LedgerEvent.templateCreated t).toJson =
          .error why := by
        cases hevent : LedgerEvent.fromJson (LedgerEvent.templateCreated t).toJson with
        | error why => exact ⟨why, rfl⟩
        | ok e' =>
          obtain ⟨t', hok, -⟩ := LedgerEvent.fromJson_templateCreated.mp hevent
          cases herror.symm.trans hok
      obtain ⟨text, hcorrupt⟩ := decodeOr_eq_corrupt hevent "outbox payload"
      exact ⟨text, by rw [readRecord_of_recordRow hrow, OutboxRecord.ofEvent, hcorrupt]; rfl⟩

/-! ### Two templates -/

instance : DecidablePred ParamValue.Durable
  | .timestamp t => inferInstanceAs (Decidable (0 ≤ t.date.year ∧ t.date.year ≤ 9999))
  | .json j => inferInstanceAs (Decidable (∀ x ∈ j.reals, x.ReadsBack))
  | .string _ | .integer _ | .decimal _ | .boolean _ | .uuid _ | .date _ => .isTrue trivial

namespace Sample

/-- Rent with a literal of every kind: escapes, an instant with an offset, a decimal that keeps its
zeros, nested JSON with a double, and metadata that is null. -/
def rentTemplate : NewTxTemplate where
  id := ⟨⟨8⟩⟩
  code := "RENT"
  description := some "rent"
  params := [⟨"payer", .uuid, some "uuid('00000000000000000000000000000003')", none⟩,
    ⟨"due", .timestamp, some "timestamp('2023-12-31T23:59:59.5-01:00')", some "when"⟩,
    ⟨"terms", .json, some "json('\x7b\"rate\": [0.25, -1], \"note\": \"it\\'s\"\x7d')", none⟩,
    ⟨"paid", .boolean, some "false", none⟩]
  transaction := ⟨"uuid('00000000-0000-0000-0000-000000000001')", "date('2024-01-01')", none,
    some " 'a\\n\\\\b' ", some "\"it's due\"", some "params.terms"⟩
  entries := [⟨"PAID", "params.payer", "'USD'", .debit, .settled, "decimal('1200')", none⟩,
    ⟨"RENT", "uuid('00000000-0000-0000-0000-000000000002')", "'USD'", .credit, .settled, "1200.00",
      none⟩]
  metadata := some .null

/-- A due instant in the last hour of the year 9999, an hour west of Greenwich. -/
def lateTemplate : NewTxTemplate :=
  { rentTemplate with params := [⟨"payer", .uuid, none, none⟩, ⟨"terms", .json, none, none⟩,
      ⟨"due", .timestamp, some "timestamp('9999-12-31T23:59:59-01:00')", none⟩] }

end Sample

theorem reads_back_created_sample : ∃ t, Sample.now.Regular ∧
    Sample.rentTemplate.create Sample.now = .ok t ∧ t.metadata = some .null ∧
      (∀ v ∈ t.literals, v.Durable) ∧ TxTemplate.fromJson t.toJson = .ok t.withoutNull := by
  have hdurable : ((Sample.rentTemplate.create Sample.now).toOption.map fun t =>
      decide (∀ v ∈ t.literals, v.Durable)) = some true := by decide +kernel
  obtain ⟨t, ht, hliterals⟩ := Option.map_eq_some_iff.mp hdurable
  have hregular : Sample.now.Regular := by decide
  rw [toOption_eq_some] at ht
  have hback := reads_back_created hregular ht
  have hall := of_decide_eq_true hliterals
  obtain ⟨params, transaction, entries, -, -, -, -, heq⟩ :=
    NewTxTemplate.parse_eq_ok (NewTxTemplate.create_eq_ok.mp ht).1
  exact ⟨t, hregular, ht, by rw [heq]; rfl, hall, hback.1.mpr hall⟩

/-- **A template that is accepted and never read again**: its instant comes out in the year 10000,
and the reader of timestamps takes four digits. -/
theorem unreadable_created : ∃ t e, Sample.lateTemplate.create Sample.now = .ok t ∧
    TxTemplate.fromJson t.toJson = .error e := by
  have hfails : ((Sample.lateTemplate.create Sample.now).toOption.map fun t =>
      (TxTemplate.fromJson t.toJson).isOk) = some false := by decide +kernel
  obtain ⟨t, ht, hdecode⟩ := Option.map_eq_some_iff.mp hfails
  obtain ⟨e, herror⟩ := exists_eq_error hdecode
  exact ⟨t, e, toOption_eq_some.mp ht, herror⟩

end DoubleEntry
