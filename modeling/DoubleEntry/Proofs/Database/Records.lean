import DoubleEntry.Proofs.Database.Simulation
import DoubleEntry.Proofs.Engine.Racing
import DoubleEntry.Proofs.Outbox.Recordable
import DoubleEntry.Proofs.Outbox.Shape
import DoubleEntry.Proofs.Template.Stored
import DoubleEntry.Proofs.Wire.Nested

/-!
# Outbox records are read again

A consumer that cannot read a record never gets past it. So whatever operations record has to come
back from the row that was inserted for it, and it does, as `OutboxRecord.asRead`: with its
identifier, number, type and version, with its time to the microsecond, which is what a column of
instants holds, and with its event as it is decoded. The time within the event is a text and keeps
its nanoseconds.

Main statement: `records_read_back`, for every event but the creation of templates, whose literals
may not be read again. `record_cuts_time` is a record that does not come back as it was.
-/

namespace DoubleEntry

/-- The record as it is read: with its time as the table holds it, and its event as decoded. -/
def OutboxRecord.asRead (r : OutboxRecord) : OutboxRecord :=
  { r with recordedAt := r.recordedAt.toMicros, payload := r.payload.asDecoded }

theorem OutboxRecord.asRead_eq_self_iff {r : OutboxRecord} :
    r.asRead = r ↔ r.recordedAt.toMicros = r.recordedAt ∧ r.payload.asDecoded = r.payload := by
  refine ⟨fun h => ⟨congrArg recordedAt h, congrArg payload h⟩, fun ⟨htime, hevent⟩ => ?_⟩
  unfold asRead
  rw [htime, hevent]

/-- The type of an event tells that it is not about a template. -/
theorem LedgerEvent.ne_templateCreated {e : LedgerEvent}
    (h : e.eventType ≠ "ledger.tx_template.created") (t : TxTemplate) : e ≠ .templateCreated t :=
  fun he => h (congrArg eventType he)

namespace Database

/-- The row that is inserted for a record. -/
def insertedRow (r : OutboxRecord) : Row :=
  OrdMap.ofList (["sequence", "id", "event_type", "event_version", "payload", "recorded_at"].zip
    (Statement.insertRecord r).params)

theorem recordRow_insertedRow (r : OutboxRecord) : RecordRow r (insertedRow r) := by
  have hcolumns : (["sequence", "id", "event_type", "event_version", "payload",
      "recorded_at"]).Nodup := by decide
  have hget : ∀ column, OrdMap.get? column (insertedRow r) = _ :=
    OrdMap.get?_ofList_eq_lookup hcolumns
  exact ⟨hget _, hget _, hget _, hget _, hget _, hget _⟩

/-- A record is read from its row if it has the type of its event, and the event can be decoded. -/
theorem readRecord_eq_asRead {r : OutboxRecord} {row : Row} (hrow : RecordRow r row)
    (htype : r.eventType = r.payload.eventType) (h : r.payload.Recordable)
    (hne : ∀ t, r.payload ≠ .templateCreated t) : readRecord row = .ok r.asRead := by
  have hpayload : decodeOr "outbox payload" LedgerEvent.fromJson r.payload.toJson =
      .ok r.payload.asDecoded := by
    rw [decodeOr, LedgerEvent.fromJson_toJson h hne]
  have hsame : r.eventType = r.payload.asDecoded.eventType :=
    htype.trans r.payload.eventType_asDecoded.symm
  rw [readRecord_of_recordRow hrow, hpayload, ok_bind]
  exact if_neg (not_not_intro hsame)

/-- **What operations record is read again**, templates apart. A recordable event comes back from
the row of its record under every number, and, unless it is nested too deep to be read, from its
text exactly if its doubles do. After any requests on regular clocks all records are of such events:
each comes back from its row, and it is the same exactly if it was recorded on a whole microsecond
and its event decodes to itself. -/
theorem records_read_back :
    (∀ e : LedgerEvent, e.Recordable → (∀ t, e ≠ .templateCreated t) →
      (∀ id sequence row, RecordRow (.ofEvent id sequence e) row →
        readRecord row = .ok (OutboxRecord.ofEvent id sequence e).asRead) ∧
      (e.WithinReach →
        (Json.read e.toJson.chars = .ok e.toJson ↔ ∀ x ∈ e.toJson.reals, x.ReadsBack))) ∧
    ∀ requests, (∀ r ∈ requests, r.OnRegularClocks) → ∀ r ∈ (stateAfter requests).outbox,
      r.payload.Recordable ∧ ((∀ t, r.payload ≠ .templateCreated t) →
        ∀ row, RecordRow r row → readRecord row = .ok r.asRead ∧
          (readRecord row = .ok r ↔
            r.recordedAt.toMicros = r.recordedAt ∧ r.payload.asDecoded = r.payload)) := by
  refine ⟨fun e h hne => ⟨fun id sequence row hrow => ?_, LedgerEvent.read_chars_iff⟩,
    fun requests hclocks r hr => ?_⟩
  · exact readRecord_eq_asRead hrow rfl h hne
  · have hrecordable : r.payload.Recordable :=
      (recordable_stateAfter hclocks).payloads r.payload (List.mem_map_of_mem hr)
    refine ⟨hrecordable, fun hne row hrow => ?_⟩
    have hread := readRecord_eq_asRead hrow (faithful_stateAfter requests r hr).eventType
      hrecordable hne
    refine ⟨hread, ?_⟩
    rw [hread, ← OutboxRecord.asRead_eq_self_iff]
    exact ⟨Except.ok.inj, congrArg Except.ok⟩

/-! ### A void and a nanosecond -/

namespace Sample

open DoubleEntry.Sample

/-- The last nanosecond of the year 12024. -/
def farNow : Timestamp :=
  { leapSecond with date := ⟨12024, 12, 31, by decide⟩, nano := 999999999, nano_lt := by decide }

/-- A void of a dollar and a half, with metadata that need escapes and hold a double. -/
def farVoid : Transaction where
  id := ⟨uuid 5⟩
  templateId := ⟨uuid 9⟩
  templateCode := "TRANSFER"
  journalId := ⟨uuid 1⟩
  correlationId := "it's \\ due"
  externalId := none
  effective := ⟨-1, 2, 28, by decide⟩
  description := some ""
  metadata := some terms
  reverses := some ⟨uuid 4⟩
  createdAt := farNow
  entries := [entry 6 1 .credit, entry 7 2 .debit]
where
  entry (n : Nat) (sequence : UInt32) (direction : Side) : Entry :=
    ⟨⟨uuid n⟩, ⟨uuid 5⟩, ⟨uuid 1⟩, ⟨uuid 2⟩, sequence, "LEG_VOID", dollar, direction, .pending,
      { amount := (Decimal.make? 150 2).getD .zero, nonneg := by decide }, none, farNow⟩

def farEvent : LedgerEvent := .transactionCreated farVoid

theorem recordable_farEvent : farEvent.Recordable where
  createdAt := by decide
  entries := List.forall_mem_cons.mpr
    ⟨⟨by decide, rfl⟩, List.forall_mem_singleton.mpr ⟨by decide, rfl⟩⟩

theorem withinReach_farEvent : farEvent.WithinReach := by
  rintro _ ⟨rfl⟩
  have hitems : Json.Readable (123 + 1)
      (.array [.number (.real minusHalf), .string "a\t'\"\\"]) :=
    .array (List.forall_mem_cons.mpr ⟨.real _, List.forall_mem_singleton.mpr (.string _)⟩)
  show Json.Readable (124 + 1) terms
  exact .object (List.pairwise_singleton ..) (List.forall_mem_singleton.mpr hitems)

/-- The journal as it is created a nanosecond into the year 2024. -/
def tickJournal : Journal := { journal 1 with createdAt := tick, modifiedAt := tick }

def tickRecord : OutboxRecord := .ofEvent (uuid 10) 1 (.journalCreated tickJournal)

end Sample

/-- The void comes back under every number, and so does a transfer that the sample ledger posts. -/
theorem records_read_back_sample :
    (Sample.farEvent.Recordable ∧ Sample.farEvent.WithinReach ∧
      (∀ id sequence, readRecord (insertedRow (.ofEvent id sequence Sample.farEvent)) =
        .ok (OutboxRecord.ofEvent id sequence Sample.farEvent).asRead) ∧
      Json.read Sample.farEvent.toJson.chars = .ok Sample.farEvent.toJson) ∧
    (∀ r ∈ DoubleEntry.Sample.corrected, r.OnRegularClocks) ∧
      ∃ r ∈ (stateAfter DoubleEntry.Sample.corrected).outbox,
        r.eventType = "ledger.transaction.created" ∧ readRecord (insertedRow r) = .ok r.asRead := by
  have hrecordable := Sample.recordable_farEvent
  have hreach := Sample.withinReach_farEvent
  have hreals : ∀ x ∈ Sample.farEvent.toJson.reals, x.ReadsBack := by decide +kernel
  have hclocks : ∀ r ∈ DoubleEntry.Sample.corrected, r.OnRegularClocks := by
    intro r hr
    have hnow : DoubleEntry.Sample.now.Regular := by decide
    obtain ⟨p, -, rfl⟩ := List.mem_map.mp hr
    exact ⟨hnow, hnow⟩
  obtain ⟨hevents, hrecords⟩ := records_read_back
  obtain ⟨hrows, htexts⟩ :=
    hevents Sample.farEvent hrecordable (LedgerEvent.ne_templateCreated (by decide))
  refine ⟨⟨hrecordable, hreach, fun id sequence => hrows id sequence _ (recordRow_insertedRow _),
    (htexts hreach).mpr hreals⟩, hclocks, ?_⟩
  have hposted : ((stateAfter DoubleEntry.Sample.corrected).outbox.any fun r =>
      r.eventType == "ledger.transaction.created") = true := by decide +kernel
  obtain ⟨r, hmem, hr⟩ := List.any_eq_true.mp hposted
  have htype : r.eventType = "ledger.transaction.created" := eq_of_beq hr
  have hpayload : r.payload.eventType = "ledger.transaction.created" :=
    (faithful_stateAfter _ r hmem).eventType.symm.trans htype
  have hne : r.payload.eventType ≠ "ledger.tx_template.created" := by
    rw [hpayload]
    decide
  exact ⟨r, hmem, htype, ((hrecords _ hclocks r hmem).2 (LedgerEvent.ne_templateCreated hne) _
    (recordRow_insertedRow r)).1⟩

/-- **The journal is created a nanosecond into the year, and its record is read as of the start of
the year.** -/
theorem record_cuts_time :
    Journal.create ⟨⟨DoubleEntry.Sample.uuid 1⟩, "General", none, none⟩ Sample.tick =
        .ok Sample.tickJournal ∧
      RecordRow Sample.tickRecord (insertedRow Sample.tickRecord) ∧
      readRecord (insertedRow Sample.tickRecord) =
        .ok { Sample.tickRecord with recordedAt := DoubleEntry.Sample.now } ∧
      readRecord (insertedRow Sample.tickRecord) ≠ .ok Sample.tickRecord := by
  have hrow := recordRow_insertedRow Sample.tickRecord
  have hread : readRecord (insertedRow Sample.tickRecord) =
      .ok { Sample.tickRecord with recordedAt := DoubleEntry.Sample.now } :=
    readRecord_eq_asRead hrow rfl ⟨by decide, by decide⟩
      (LedgerEvent.ne_templateCreated (by decide))
  refine ⟨by decide +kernel, hrow, hread, fun hsame => ?_⟩
  have htime := congrArg OutboxRecord.recordedAt (Except.ok.inj (hread.symm.trans hsame))
  exact absurd htime (by decide)

end Database

end DoubleEntry
