import DoubleEntry.Outbox.Stream
import DoubleEntry.Proofs.Outbox.Numbered
import Mathlib.Data.List.Infix

/-!
# What a stream hands out

A `Feed` is a store with a stream over its outbox, and what the stream handed out so far. Its steps
come in any order: calls to the store, reads of the stream that succeed or fail, the ends of its
waits, and items handed out. One invariant, `Feed.Sound`, carries all there is to say: what was
handed out and what was read ahead are the records after the start, from the first on, and the
position counts the records handed out.
-/

namespace DoubleEntry

/-! ## Items -/

/-- The records among items. -/
def recordsOf (items : List OutboxItem) : List OutboxRecord := items.filterMap Except.toOption

/-- The errors among items. -/
def errorsOf (items : List OutboxItem) : List EngineError :=
  items.filterMap fun i =>
    match i with
    | .ok _ => none
    | .error e => some e

@[simp] theorem recordsOf_nil : recordsOf [] = [] := rfl

@[simp] theorem recordsOf_ok (r : OutboxRecord) (items : List OutboxItem) :
    recordsOf (.ok r :: items) = r :: recordsOf items := rfl

@[simp] theorem recordsOf_error (e : EngineError) (items : List OutboxItem) :
    recordsOf (.error e :: items) = recordsOf items := rfl

@[simp] theorem recordsOf_append (items more : List OutboxItem) :
    recordsOf (items ++ more) = recordsOf items ++ recordsOf more := List.filterMap_append

@[simp] theorem recordsOf_map_ok (batch : List OutboxRecord) :
    recordsOf (batch.map .ok) = batch := by
  induction batch with
  | nil => rfl
  | cons r rest ih => rw [List.map_cons, recordsOf_ok, ih]

@[simp] theorem errorsOf_nil : errorsOf [] = [] := rfl

@[simp] theorem errorsOf_ok (r : OutboxRecord) (items : List OutboxItem) :
    errorsOf (.ok r :: items) = errorsOf items := rfl

@[simp] theorem errorsOf_error (e : EngineError) (items : List OutboxItem) :
    errorsOf (.error e :: items) = e :: errorsOf items := rfl

@[simp] theorem errorsOf_append (items more : List OutboxItem) :
    errorsOf (items ++ more) = errorsOf items ++ errorsOf more := List.filterMap_append

@[simp] theorem errorsOf_map_ok (batch : List OutboxRecord) : errorsOf (batch.map .ok) = [] := by
  induction batch with
  | nil => rfl
  | cons r rest ih => rw [List.map_cons, errorsOf_ok, ih]

/-! ## Feeds -/

/-- A store with a stream over its outbox. -/
structure Feed where
  store : StoreState
  stream : OutboxStream
  /-- What the stream handed out. -/
  items : List OutboxItem
  /-- The errors of the reads that failed. -/
  failed : List StoreError

namespace Feed

/-- What happens to a feed. -/
inductive Step where
  /-- A call of anyone to the store. -/
  | call (m : Moment) (c : StoreCall)
  /-- The stream reads; the read fails with the error, if there is one. -/
  | read (m : Moment) (fault : Option StoreError)
  /-- A commit, or the poll interval, ends the wait of the stream. -/
  | wake
  /-- The stream hands out an item. -/
  | send

/-- The store as the stream finds it: answering, or failing. -/
def backend (m : Moment) : Option StoreError → Backend StoreState
  | none => StoreState.run m
  | some e => fun _ s => (.error (.error e), s)

/-- The stream reads if it is its turn, and goes on as it was otherwise. -/
def read (f : Feed) (m : Moment) (fault : Option StoreError) : Feed :=
  if f.stream.isReading then
    match (f.stream.read (ε := EngineError)).run (backend m fault) f.store with
    | (.ok stream, store) =>
      { f with store := store, stream := stream, failed := f.failed ++ fault.toList }
    | (.error _, store) => { f with store := store }
  else f

def send (f : Feed) : Feed :=
  { f with stream := f.stream.handOut.2, items := f.items ++ f.stream.handOut.1.toList }

def step (f : Feed) : Step → Feed
  | .call m c => { f with store := (StoreState.run m c f.store).2 }
  | .read m fault => f.read m fault
  | .wake => { f with stream := f.stream.wake }
  | .send => f.send

/-- One step after the other. -/
def run (f : Feed) (steps : List Step) : Feed := steps.foldl step f

/-- A stream from a position on, over a store. -/
def start (store : StoreState) (c : UInt64) (config : OutboxConfig) : Feed :=
  ⟨store, .start c config, [], []⟩

/-- The records handed out. -/
def records (f : Feed) : List OutboxRecord := recordsOf f.items

theorem run_append (f : Feed) (steps more : List Step) :
    f.run (steps ++ more) = (f.run steps).run more := List.foldl_append

/-! ## Single steps -/

/-- A read that succeeds comes out with the records after the position, at most a batch. -/
theorem read_ok {f : Feed} (h : f.stream.isReading = true) (m : Moment) :
    f.read m none = { f with
      stream := f.stream.receive
        (.ok (f.store.recordsFrom f.stream.cursor f.stream.batchSize)) } := by
  unfold read
  rw [if_pos h]
  show Feed.mk _ _ _ (f.failed ++ []) = _
  rw [List.append_nil]
  rfl

theorem read_error {f : Feed} (h : f.stream.isReading = true) (m : Moment) (e : StoreError) :
    f.read m (some e) =
      { f with stream := f.stream.receive (.error e), failed := f.failed ++ [e] } := by
  unfold read
  rw [if_pos h]
  rfl

theorem read_of_not_reading {f : Feed} (h : ¬ f.stream.isReading = true) (m : Moment)
    (fault : Option StoreError) : f.read m fault = f := by
  unfold read
  rw [if_neg h]

theorem store_read (f : Feed) (m : Moment) (fault : Option StoreError) :
    (f.read m fault).store = f.store := by
  by_cases h : f.stream.isReading = true
  · cases fault with
    | none => rw [read_ok h]
    | some e => rw [read_error h]
  · rw [read_of_not_reading h]

theorem pending_of_isReading {f : Feed} (h : f.stream.isReading = true) :
    f.stream.pending = [] := by
  unfold OutboxStream.isReading at h
  exact List.isEmpty_iff.mp (Bool.and_eq_true_iff.mp h).1

theorem isReading_of_pending {s : OutboxStream} {i : OutboxItem} {rest : List OutboxItem}
    (h : s.pending = i :: rest) : ¬ s.isReading = true := by
  unfold OutboxStream.isReading
  rw [h]
  exact Bool.false_ne_true

@[simp] theorem wake_pending (s : OutboxStream) : s.wake.pending = s.pending := by
  unfold OutboxStream.wake
  split <;> rfl

@[simp] theorem wake_cursor (s : OutboxStream) : s.wake.cursor = s.cursor := by
  unfold OutboxStream.wake
  split <;> rfl

@[simp] theorem wake_batchSize (s : OutboxStream) : s.wake.batchSize = s.batchSize := by
  unfold OutboxStream.wake
  split <;> rfl

/-- Once everything is handed out, a wake makes the stream read. -/
theorem wake_isReading {s : OutboxStream} (h : s.pending = []) : s.wake.isReading = true := by
  unfold OutboxStream.wake OutboxStream.isWaiting OutboxStream.isReading
  rw [h]
  cases hwaits : s.waits
  · simp [h, hwaits]
  · simp

theorem send_nil {f : Feed} (h : f.stream.pending = []) : f.send = f := by
  unfold send OutboxStream.handOut
  rw [h]
  show { f with items := f.items ++ [] } = f
  rw [List.append_nil]

theorem send_cons {f : Feed} {i : OutboxItem} {rest : List OutboxItem}
    (h : f.stream.pending = i :: rest) :
    f.send = { f with
      stream := { f.stream with
        cursor := OutboxStream.cursorAfter f.stream.cursor i, pending := rest },
      items := f.items ++ [i] } := by
  unfold send OutboxStream.handOut
  rw [h]
  rfl

/-! ## The invariant -/

/-- What was handed out and read ahead are the records after `c`, from the first on. -/
structure Sound (c : UInt64) (f : Feed) : Prop where
  numbered : f.store.Numbered
  inOrder : f.records ++ recordsOf f.stream.pending <+: f.store.outbox.drop c.toNat
  cursor : f.stream.cursor.toNat = c.toNat + f.records.length
  /-- Each failed read was handed out as its error, or will be. -/
  errors : errorsOf f.items ++ errorsOf f.stream.pending = f.failed.map .ofStore

variable {c : UInt64} {f : Feed}

theorem Sound.start {s : StoreState} (h : s.Numbered) (c : UInt64) (config : OutboxConfig) :
    (Feed.start s c config).Sound c :=
  ⟨h, List.nil_prefix, rfl, rfl⟩

/-- A prefix goes on with what comes after it. -/
theorem prefix_of_drop {α : Type} {l b L : List α} (hl : l <+: L) (hb : b <+: L.drop l.length) :
    l ++ b <+: L := by
  obtain ⟨rest, rfl⟩ := hl
  rw [List.drop_left] at hb
  exact (List.prefix_append_right_inj l).mpr hb

theorem Sound.call (h : f.Sound c) (m : Moment) (call : StoreCall) :
    (f.step (.call m call)).Sound c := by
  obtain ⟨hnumbered, hgrows⟩ := h.numbered.run m call
  exact ⟨hnumbered, h.inOrder.trans (hgrows.drop c.toNat), h.cursor, h.errors⟩

theorem Sound.read (h : f.Sound c) (m : Moment) (fault : Option StoreError) :
    (f.step (.read m fault)).Sound c := by
  show (f.read m fault).Sound c
  by_cases hreading : f.stream.isReading = true
  · have hpending := pending_of_isReading hreading
    have horder := h.inOrder
    have herrors := h.errors
    rw [hpending] at horder herrors
    simp only [recordsOf_nil, errorsOf_nil, List.append_nil] at horder herrors
    cases fault with
    | none =>
      rw [read_ok hreading]
      refine ⟨h.numbered, ?_, h.cursor, ?_⟩
      · refine prefix_of_drop horder ?_
        show recordsOf (List.map _ _) <+: List.drop f.records.length _
        rw [recordsOf_map_ok, List.drop_drop, ← h.cursor]
        exact List.take_prefix _ _
      · show _ ++ errorsOf (List.map _ _) = _
        rw [errorsOf_map_ok, List.append_nil]
        exact herrors
    | some e =>
      rw [read_error hreading]
      refine ⟨h.numbered, ?_, h.cursor, ?_⟩
      · show _ ++ recordsOf [.error _] <+: _
        rw [recordsOf_error, recordsOf_nil, List.append_nil]
        exact horder
      · rw [List.map_append, ← herrors]
        rfl
  · rw [read_of_not_reading hreading]
    exact h

theorem Sound.wake (h : f.Sound c) : (f.step .wake).Sound c := by
  refine ⟨h.numbered, ?_, ?_, ?_⟩
  · show _ ++ recordsOf f.stream.wake.pending <+: _
    rw [wake_pending]
    exact h.inOrder
  · show f.stream.wake.cursor.toNat = _
    rw [wake_cursor]
    exact h.cursor
  · show _ ++ errorsOf f.stream.wake.pending = _
    rw [wake_pending]
    exact h.errors

/-- A record comes right after those handed out so far, so its number is the next one. -/
theorem Sound.send (h : f.Sound c) : (f.step .send).Sound c := by
  show f.send.Sound c
  obtain ⟨hnumbered, horder, hcursor, herrors⟩ := h
  cases hpending : f.stream.pending with
  | nil =>
    rw [send_nil hpending]
    exact ⟨hnumbered, horder, hcursor, herrors⟩
  | cons i rest =>
    rw [hpending] at horder herrors
    rw [send_cons hpending]
    cases i with
    | ok r =>
      rw [recordsOf_ok] at horder
      refine ⟨hnumbered, ?_, ?_, ?_⟩
      · simpa [records] using horder
      · have hr : f.store.outbox[c.toNat + f.records.length]? = some r := by
          rw [← List.getElem?_drop]
          obtain ⟨later, hlater⟩ := horder
          rw [← hlater]
          simp
        have hnumber : r.sequence.toNat = _ := hnumbered.number_getElem hr
        simpa [records, OutboxStream.cursorAfter, Nat.add_assoc] using hnumber
      · simpa using herrors
    | error e =>
      refine ⟨hnumbered, ?_, ?_, ?_⟩
      · simpa [records] using horder
      · simpa [records, OutboxStream.cursorAfter] using hcursor
      · simpa using herrors

theorem Sound.step (h : f.Sound c) (x : Step) : (f.step x).Sound c := by
  cases x with
  | call m call => exact h.call m call
  | read m fault => exact h.read m fault
  | wake => exact h.wake
  | send => exact h.send

theorem Sound.run (h : f.Sound c) (steps : List Step) : (f.run steps).Sound c := by
  induction steps generalizing f with
  | nil => exact h
  | cons x more ih => exact ih (h.step x)

/-- Steps only add to the outbox. -/
theorem Sound.outbox_grows (h : f.Sound c) (x : Step) :
    f.store.outbox <+: (f.step x).store.outbox := by
  cases x with
  | call m call => exact (h.numbered.run m call).2
  | read m fault =>
    show f.store.outbox <+: (f.read m fault).store.outbox
    rw [store_read]
  | wake => exact List.prefix_refl _
  | send => exact List.prefix_refl _

/-- The records handed out are the ones from the start to the position. -/
theorem Sound.records_eq (h : f.Sound c) :
    f.records = (f.store.outbox.drop c.toNat).take (f.stream.cursor.toNat - c.toNat) := by
  rw [h.cursor, Nat.add_sub_cancel_left]
  exact List.prefix_iff_eq_take.mp ((List.prefix_append _ _).trans h.inOrder)

/-- They are numbered without gaps from the start on. -/
theorem Sound.numbers_eq (h : f.Sound c) :
    f.records.map OutboxRecord.number =
      List.range' (c.toNat + 1) (f.stream.cursor.toNat - c.toNat) := by
  have hlength : f.records.length = f.stream.cursor.toNat - c.toNat := by
    rw [h.cursor, Nat.add_sub_cancel_left]
  refine List.ext_getElem? fun i => ?_
  by_cases hi : i < f.records.length
  · have hget : f.store.outbox[c.toNat + i]? = some f.records[i] := by
      rw [← List.getElem?_drop]
      obtain ⟨later, hlater⟩ := (List.prefix_append _ _).trans h.inOrder
      rw [← hlater, List.getElem?_append_left hi, List.getElem?_eq_getElem hi]
    rw [List.getElem?_map, List.getElem?_eq_getElem hi, Option.map_some,
      h.numbered.number_getElem hget, List.getElem?_range' (by omega)]
    congr 1
    omega
  · rw [List.getElem?_eq_none (by simpa using hi), List.getElem?_eq_none (by simp; omega)]

/-- When a record was handed out, so was every record from the start to it. -/
theorem Sound.before_item (h : f.Sound c) {i : Nat} {r : OutboxRecord}
    (hr : f.items[i]? = some (.ok r)) :
    r ∈ f.store.outbox ∧ c.toNat < r.number ∧
      ∀ q ∈ f.store.outbox, c.toNat < q.number → q.number < r.number →
        q ∈ recordsOf (f.items.take i) := by
  obtain ⟨hi, hget⟩ := List.getElem?_eq_some_iff.mp hr
  obtain ⟨later, hlater⟩ := (List.prefix_append _ _).trans h.inOrder
  have hsplit : f.records =
      recordsOf (f.items.take i) ++ r :: recordsOf (f.items.drop (i + 1)) := by
    unfold records
    conv_lhs => rw [← List.take_append_drop i f.items, List.drop_eq_getElem_cons hi, hget]
    rw [recordsOf_append, recordsOf_ok]
  rw [hsplit, List.append_assoc] at hlater
  have hplace : f.store.outbox[c.toNat + (recordsOf (f.items.take i)).length]? = some r := by
    rw [← List.getElem?_drop, ← hlater]
    simp
  have hnumber := h.numbered.number_getElem hplace
  refine ⟨List.mem_of_getElem? hplace, by omega, fun q hq hafter hbefore => ?_⟩
  have hqget := (h.numbered.getElem_number hq).2
  rw [show q.number - 1 = c.toNat + (q.number - 1 - c.toNat) by omega, ← List.getElem?_drop,
    ← hlater, List.getElem?_append_left (by omega)] at hqget
  exact List.mem_of_getElem? hqget

/-! ## What a read finds is handed out -/

/-- Steps only add to what was handed out. -/
theorem items_prefix_step (f : Feed) (x : Step) : f.items <+: (f.step x).items := by
  cases x with
  | call m call => exact List.prefix_refl _
  | read m fault =>
    show f.items <+: (f.read m fault).items
    by_cases hreading : f.stream.isReading = true
    · cases fault with
      | none => exact (read_ok hreading m) ▸ List.prefix_refl _
      | some e => exact (read_error hreading m e) ▸ List.prefix_refl _
    · rw [read_of_not_reading hreading]
  | wake => exact List.prefix_refl _
  | send => exact List.prefix_append _ _

theorem items_prefix_run (f : Feed) (steps : List Step) : f.items <+: (f.run steps).items := by
  induction steps generalizing f with
  | nil => exact List.prefix_refl _
  | cons x more ih => exact (f.items_prefix_step x).trans (ih (f.step x))

/-- How many items the steps hand out, as far as there are any. -/
def sends (steps : List Step) : Nat :=
  steps.countP fun x =>
    match x with
    | .send => true
    | _ => false

theorem sends_send (steps : List Step) : sends (.send :: steps) = sends steps + 1 :=
  List.countP_cons_of_pos rfl

/-- After as many sends as there were items read ahead, all of these are handed out: only a send
touches the stream while there are any. -/
theorem pending_handed_out (f : Feed) (steps : List Step)
    (h : f.stream.pending.length ≤ sends steps) :
    f.items ++ f.stream.pending <+: (f.run steps).items := by
  induction steps generalizing f with
  | nil =>
    rw [List.eq_nil_of_length_eq_zero (Nat.le_zero.mp h), List.append_nil]
    exact List.prefix_refl _
  | cons x more ih =>
    cases hpending : f.stream.pending with
    | nil =>
      rw [List.append_nil]
      exact f.items_prefix_run (x :: more)
    | cons i rest =>
      have hsame : ∀ {g : Feed}, f.step x = g → g.items = f.items →
          g.stream.pending = f.stream.pending → sends (x :: more) = sends more →
          f.items ++ i :: rest <+: (f.run (x :: more)).items := by
        intro g hg hitems hstream hsends
        have := ih g (by rw [hstream, ← hsends]; exact h)
        rw [hitems, hstream, hpending, ← hg] at this
        exact this
      cases x with
      | call m call => exact hsame rfl rfl rfl rfl
      | read m fault =>
        exact hsame (read_of_not_reading (isReading_of_pending hpending) m fault) rfl rfl rfl
      | wake => exact hsame rfl rfl (wake_pending _) rfl
      | send =>
        have hstep : f.step .send = _ := send_cons hpending
        have hrest : rest.length ≤ sends more := by
          rw [hpending, sends_send] at h
          exact Nat.le_of_succ_le_succ h
        have := ih (f.step .send) (by rw [hstep]; exact hrest)
        show _ <+: ((f.step .send).run more).items
        rw [hstep] at this ⊢
        rw [List.append_assoc] at this
        exact this

/-- Once the batch of a read that was not full is handed out, so is every record there was. -/
theorem Sound.caught_up (h : f.Sound c) (hreading : f.stream.isReading = true) (m : Moment)
    {batch : List OutboxRecord}
    (hbatch : batch = f.store.recordsFrom f.stream.cursor f.stream.batchSize)
    (hshort : batch.length < f.stream.batchSize.toNat) {more : List Step}
    (hmore : batch.length ≤ sends more) :
    f.store.outbox.drop c.toNat <+: (f.run (.read m none :: more)).records := by
  have hall : f.store.outbox.drop c.toNat = f.records ++ batch := by
    have htake : batch = f.store.outbox.drop f.stream.cursor.toNat := by
      rw [hbatch] at hshort ⊢
      unfold StoreState.recordsFrom at hshort ⊢
      rw [List.length_take] at hshort
      exact List.take_of_length_le (by omega)
    obtain ⟨later, hlater⟩ := (List.prefix_append _ _).trans h.inOrder
    rw [htake, h.cursor, ← List.drop_drop, ← hlater, List.drop_left]
  have hread : f.step (.read m none) = _ := read_ok hreading m
  rw [← hbatch] at hread
  have hitems := pending_handed_out (f.step (.read m none)) more (by
    rw [hread]
    simpa [OutboxStream.receive] using hmore)
  obtain ⟨later, hlater⟩ := hitems
  refine ⟨recordsOf later, ?_⟩
  show _ = recordsOf (((f.step (.read m none)).run more).items)
  rw [← hlater, hread, hall, recordsOf_append, recordsOf_append]
  show _ = f.records ++ recordsOf (batch.map .ok) ++ _
  rw [recordsOf_map_ok]

/-! ## The stream gets on -/

/-- A step of the stream itself, with the store answering. -/
def Step.isOwn : Step → Bool
  | .read _ none => true
  | .wake => true
  | .send => true
  | _ => false

/-- Own steps leave the store. -/
theorem store_step {x : Step} (hx : x.isOwn = true) (f : Feed) : (f.step x).store = f.store := by
  cases x with
  | read m fault => exact store_read f m fault
  | wake => rfl
  | send => rfl
  | call m call => cases hx

theorem store_run {steps : List Step} (h : ∀ x ∈ steps, x.isOwn = true) (f : Feed) :
    (f.run steps).store = f.store := by
  induction steps generalizing f with
  | nil => rfl
  | cons x more ih =>
    obtain ⟨hx, hmore⟩ := List.forall_mem_cons.mp h
    exact (ih hmore (f.step x)).trans (store_step hx f)

/-- Own steps leave the batch size. -/
theorem batchSize_step (f : Feed) (x : Step) :
    (f.step x).stream.batchSize = f.stream.batchSize := by
  cases x with
  | call m call => rfl
  | read m fault =>
    show (f.read m fault).stream.batchSize = _
    by_cases hreading : f.stream.isReading = true
    · cases fault with
      | none => rw [read_ok hreading]; rfl
      | some e => rw [read_error hreading]; rfl
    · rw [read_of_not_reading hreading]
  | wake => exact wake_batchSize _
  | send =>
    show f.send.stream.batchSize = _
    cases hpending : f.stream.pending with
    | nil => rw [send_nil hpending]
    | cons i rest => rw [send_cons hpending]

theorem batchSize_run (f : Feed) (steps : List Step) :
    (f.run steps).stream.batchSize = f.stream.batchSize := by
  induction steps generalizing f with
  | nil => rfl
  | cons x more ih => exact (ih (f.step x)).trans (f.batchSize_step x)

theorem batchSize_start_pos (s : StoreState) (c : UInt64) (config : OutboxConfig) :
    0 < (Feed.start s c config).stream.batchSize.toNat := by
  show 0 < (if config.batchSize = 0 then 1 else config.batchSize).toNat
  split
  · decide
  · next h => exact Nat.pos_of_ne_zero fun hzero => h (UInt64.toNat_inj.mp hzero)

/-- Sends hand out what was read ahead. -/
theorem run_sends (f : Feed) (k : Nat) :
    (f.run (List.replicate k .send)).items = f.items ++ f.stream.pending.take k ∧
      (f.run (List.replicate k .send)).stream.pending = f.stream.pending.drop k := by
  induction k generalizing f with
  | zero => exact ⟨(List.append_nil _).symm, rfl⟩
  | succ k ih =>
    obtain ⟨hitems, hpending⟩ := ih f.send
    rw [List.replicate_succ]
    show (f.send.run _).items = _ ∧ (f.send.run _).stream.pending = _
    rw [hitems, hpending]
    cases h : f.stream.pending with
    | nil =>
      rw [send_nil h, h]
      exact ⟨by rw [List.take_nil, List.take_nil], by rw [List.drop_nil, List.drop_nil]⟩
    | cons i rest =>
      rw [send_cons h]
      exact ⟨List.append_assoc _ _ _, rfl⟩

/-- With everything handed out, the stream reads on and hands out the next record. -/
theorem records_next (hpending : f.stream.pending = []) (m : Moment) :
    (f.run [.wake, .read m none, .send]).records =
      f.records ++ (f.store.recordsFrom f.stream.cursor f.stream.batchSize).take 1 := by
  have hread : (f.step .wake).read m none = _ := read_ok (wake_isReading hpending) m
  have hbatch : ((f.step .wake).read m none).stream.pending =
      (f.store.recordsFrom f.stream.cursor f.stream.batchSize).map .ok := by
    rw [hread]
    show List.map _ (f.store.recordsFrom f.stream.wake.cursor f.stream.wake.batchSize) = _
    rw [wake_cursor, wake_batchSize]
  have hitems := (run_sends ((f.step .wake).read m none) 1).1
  rw [hbatch, ← List.map_take] at hitems
  show recordsOf _ = _
  rw [show (f.run [.wake, .read m none, .send]).items = _ from hitems, recordsOf_append,
    recordsOf_map_ok, hread]
  rfl

/-- Own steps hand out another record, as long as there is one. -/
theorem Sound.exists_advance (h : f.Sound c) (hsize : 0 < f.stream.batchSize.toNat) (m : Moment)
    (hmore : f.records.length < (f.store.outbox.drop c.toNat).length) :
    ∃ own : List Step, (∀ x ∈ own, x.isOwn = true) ∧
      f.records.length < (f.run own).records.length := by
  let flush : List Step := List.replicate f.stream.pending.length .send
  have hflush : ∀ x ∈ flush, x.isOwn = true := fun x hx => (List.eq_of_mem_replicate hx) ▸ rfl
  have hrecords : f.records <+: (f.run flush).records := by
    obtain ⟨later, hlater⟩ := f.items_prefix_run flush
    exact ⟨recordsOf later, by unfold records; rw [← hlater, recordsOf_append]⟩
  by_cases hlonger : f.records.length < (f.run flush).records.length
  · exact ⟨flush, hflush, hlonger⟩
  · have hlength := hrecords.length_le
    refine ⟨flush ++ [.wake, .read m none, .send], ?_, ?_⟩
    · exact List.forall_mem_append.mpr ⟨hflush, by simp [Step.isOwn]⟩
    · have hpending : (f.run flush).stream.pending = [] := by
        rw [(run_sends f _).2, List.drop_length]
      rw [run_append, records_next hpending m, List.length_append]
      unfold StoreState.recordsFrom
      rw [store_run hflush, batchSize_run, (h.run flush).cursor]
      simp only [List.length_take, List.length_drop] at hmore ⊢
      omega

/-- Own steps hand out all records there are. -/
theorem Sound.exists_all (h : f.Sound c) (hsize : 0 < f.stream.batchSize.toNat) (m : Moment) :
    ∃ own : List Step, (∀ x ∈ own, x.isOwn = true) ∧
      (f.run own).records = f.store.outbox.drop c.toNat := by
  induction hleft : (f.store.outbox.drop c.toNat).length - f.records.length using
    Nat.strongRecOn generalizing f with
  | ind left ih =>
    by_cases hmore : f.records.length < (f.store.outbox.drop c.toNat).length
    · obtain ⟨own, hown, hlonger⟩ := h.exists_advance hsize m hmore
      have hstore := store_run hown f
      obtain ⟨more, hmoreOwn, hall⟩ := ih _ (by rw [hstore]; omega) (h.run own)
        (by rw [batchSize_run]; exact hsize) rfl
      refine ⟨own ++ more, ?_, by rw [run_append, hall, hstore]⟩
      exact List.forall_mem_append.mpr ⟨hown, hmoreOwn⟩
    · have hsent := (List.prefix_append _ _).trans h.inOrder
      refine ⟨[], List.forall_mem_nil _, ?_⟩
      exact hsent.eq_of_length (Nat.le_antisymm hsent.length_le (Nat.le_of_not_lt hmore))

end Feed

end DoubleEntry
