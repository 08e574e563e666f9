import DoubleEntry.Outbox.Stream
import DoubleEntry.Proofs.Outbox.Delivery

/-!
# Consumers that start over

A consumer takes the items of a stream in their order, handles the records, and saves numbers of
records it has handled. At any time it may be gone with all it had not handled, and start over from
the position saved; meanwhile the store is written to, reads fail, and other consumers save theirs.
Still no record is handled before all earlier ones were (`HandledInOrder`), and everything up to a
position saved was handled. So a restart loses nothing (`Consumer.Sound.restart`).

Main statement: `outbox_delivery`.
-/

namespace DoubleEntry

/-- A consumer of the outbox. -/
structure Consumer where
  name : String
  feed : Feed
  cursors : OutboxCursors
  /-- How many items of the stream it took since it started. -/
  taken : Nat
  /-- The records it handled, also before it started over. -/
  handled : List OutboxRecord

namespace Consumer

/-- What happens to a consumer. -/
inductive Step where
  | feed (x : Feed.Step)
  /-- It takes the next item, and handles it if it is a record. -/
  | handle
  /-- It saves the number of a record it handled. -/
  | save (i : Nat)
  /-- It starts over. -/
  | restart (config : OutboxConfig)
  /-- Another consumer saves its position, or has it forgotten. -/
  | elsewhere (other : String) (sequence : Option UInt64)

def handle (k : Consumer) : Consumer :=
  match k.feed.items[k.taken]? with
  | none => k
  | some i => { k with taken := k.taken + 1, handled := k.handled ++ recordsOf [i] }

def save (k : Consumer) (i : Nat) : Consumer :=
  match k.handled[i]? with
  | none => k
  | some r => { k with cursors := k.cursors.save k.name r.sequence }

def restart (k : Consumer) (config : OutboxConfig) : Consumer :=
  { k with feed := .start k.feed.store (k.cursors.load k.name) config, taken := 0 }

def elsewhere (k : Consumer) (other : String) (sequence : Option UInt64) : Consumer :=
  if other = k.name then k
  else match sequence with
    | some n => { k with cursors := k.cursors.save other n }
    | none => { k with cursors := k.cursors.reset other }

def step (k : Consumer) : Step → Consumer
  | .feed x => { k with feed := k.feed.step x }
  | .handle => k.handle
  | .save i => k.save i
  | .restart config => k.restart config
  | .elsewhere other sequence => k.elsewhere other sequence

/-- One step after the other. -/
def run (k : Consumer) (steps : List Step) : Consumer := steps.foldl step k

/-- A consumer that starts from the position saved under its name. -/
def start (name : String) (store : StoreState) (cursors : OutboxCursors) (config : OutboxConfig) :
    Consumer :=
  ⟨name, .start store (cursors.load name) config, cursors, 0, []⟩

/-- The position saved for the consumer. -/
def position (k : Consumer) : UInt64 := k.cursors.load k.name

theorem run_append (k : Consumer) (steps more : List Step) :
    k.run (steps ++ more) = (k.run steps).run more := List.foldl_append

end Consumer

/-! ## Positions -/

namespace OutboxCursors

variable (cursors : OutboxCursors) (name : String)

theorem load_save_self (n : UInt64) : (cursors.save name n).load name = n := by
  unfold load save
  rw [OrdMap.get?_put_self]
  rfl

theorem load_save_of_ne {other : String} (h : other ≠ name) (n : UInt64) :
    (cursors.save other n).load name = cursors.load name := by
  unfold load save
  rw [OrdMap.get?_put_of_ne h.symm]

theorem load_reset_of_ne {other : String} (h : other ≠ name) :
    (cursors.reset other).load name = cursors.load name := by
  unfold load reset
  rw [OrdMap.get?_erase_of_ne h.symm]

end OutboxCursors

/-! ## Handling in order -/

/-- When a record was handled, every earlier one after `c` had been. -/
def HandledInOrder (c : UInt64) (outbox handled : List OutboxRecord) : Prop :=
  ∀ before r after, handled = before ++ r :: after →
    r ∈ outbox ∧ c.toNat < r.number ∧
      ∀ q ∈ outbox, c.toNat < q.number → q.number < r.number → q ∈ before

/-- A position that is the start, or the number of a record handled. -/
def Reached (c : UInt64) (handled : List OutboxRecord) (p : UInt64) : Prop :=
  p = c ∨ ∃ r ∈ handled, r.sequence = p

section InOrder

variable {c p : UInt64} {s s' : StoreState} {handled more : List OutboxRecord}

theorem HandledInOrder.nil (c : UInt64) (outbox : List OutboxRecord) :
    HandledInOrder c outbox [] :=
  fun _ _ _ h => absurd h.symm (List.append_ne_nil_of_right_ne_nil _ (List.cons_ne_nil _ _))

/-- Records that the store adds come later than all that were handled. -/
theorem HandledInOrder.mono (h : HandledInOrder c s.outbox handled) (hs : s.Numbered)
    (hs' : s'.Numbered) (hgrows : s.outbox <+: s'.outbox) :
    HandledInOrder c s'.outbox handled := by
  intro before r after hsplit
  obtain ⟨hr, hcr, hbefore⟩ := h before r after hsplit
  refine ⟨hgrows.subset hr, hcr, fun q hq hcq hqr => hbefore q ?_ hcq hqr⟩
  obtain ⟨-, hqget⟩ := hs'.getElem_number hq
  obtain ⟨hrpos, hrget⟩ := hs.getElem_number hr
  have hlt := (List.getElem?_eq_some_iff.mp hrget).1
  obtain ⟨later, hlater⟩ := hgrows
  rw [← hlater, List.getElem?_append_left (by omega)] at hqget
  exact List.mem_of_getElem? hqget

theorem HandledInOrder.concat (h : HandledInOrder c s.outbox handled) {r : OutboxRecord}
    (hr : r ∈ s.outbox) (hcr : c.toNat < r.number)
    (hbefore : ∀ q ∈ s.outbox, c.toNat < q.number → q.number < r.number → q ∈ handled) :
    HandledInOrder c s.outbox (handled ++ [r]) := by
  intro before r' after hsplit
  rcases List.eq_nil_or_concat after with rfl | ⟨after', last, rfl⟩
  · obtain ⟨rfl, hlast⟩ := List.append_inj' hsplit rfl
    cases hlast
    exact ⟨hr, hcr, hbefore⟩
  · rw [List.concat_eq_append, ← List.cons_append, ← List.append_assoc] at hsplit
    obtain ⟨rfl, -⟩ := List.append_inj' hsplit rfl
    exact h before r' after' rfl

theorem Reached.mono (h : Reached c handled p) (hsub : handled ⊆ more) : Reached c more p :=
  h.imp_right fun ⟨r, hr, hp⟩ => ⟨r, hsub hr, hp⟩

/-- Everything up to a position reached was handled. -/
theorem Reached.covers (h : Reached c handled p) (horder : HandledInOrder c s.outbox handled)
    (hs : s.Numbered) {q : OutboxRecord} (hq : q ∈ s.outbox) (hcq : c.toNat < q.number)
    (hqp : q.number ≤ p.toNat) : q ∈ handled := by
  rcases h with rfl | ⟨r, hr, rfl⟩
  · omega
  · obtain ⟨before, after, hsplit⟩ := List.append_of_mem hr
    obtain ⟨hrmem, -, hbefore⟩ := horder before r after hsplit
    rcases Nat.lt_or_eq_of_le hqp with hlt | heq
    · rw [hsplit]
      exact List.mem_append_left _ (hbefore q hq hcq hlt)
    · rw [hs.eq_of_number_eq hq hrmem heq]
      exact hr

end InOrder

namespace Consumer

/-! ## The invariant -/

/-- The consumer handles in order, from the start `c` on; the position saved and the one its stream
started from are reached; and of the items it took it handled all records. -/
structure Sound (c : UInt64) (k : Consumer) : Prop where
  inOrder : HandledInOrder c k.feed.store.outbox k.handled
  position : Reached c k.handled k.position
  feed : ∃ p, k.feed.Sound p ∧ Reached c k.handled p
  size : 0 < k.feed.stream.batchSize.toNat
  taken_le : k.taken ≤ k.feed.items.length
  taken : recordsOf (k.feed.items.take k.taken) ⊆ k.handled

variable {c : UInt64} {k : Consumer}

theorem Sound.start {s : StoreState} (h : s.Numbered) (name : String) (cursors : OutboxCursors)
    (config : OutboxConfig) :
    (Consumer.start name s cursors config).Sound (cursors.load name) where
  inOrder := .nil _ _
  position := .inl rfl
  feed := ⟨_, .start h _ config, .inl rfl⟩
  size := Feed.batchSize_start_pos s _ config
  taken_le := Nat.zero_le _
  taken := List.nil_subset _

theorem Sound.numbered (h : k.Sound c) : k.feed.store.Numbered := by
  obtain ⟨p, hfeed, -⟩ := h.feed
  exact hfeed.numbered

theorem Sound.feedStep (h : k.Sound c) (x : Feed.Step) : (k.step (.feed x)).Sound c := by
  obtain ⟨p, hfeed, hp⟩ := h.feed
  have hitems := k.feed.items_prefix_step x
  refine ⟨?_, h.position, ⟨p, hfeed.step x, hp⟩, ?_, Nat.le_trans h.taken_le hitems.length_le, ?_⟩
  · exact h.inOrder.mono hfeed.numbered (hfeed.step x).numbered (hfeed.outbox_grows x)
  · show 0 < (k.feed.step x).stream.batchSize.toNat
    rw [Feed.batchSize_step]
    exact h.size
  · show recordsOf ((k.feed.step x).items.take k.taken) ⊆ k.handled
    obtain ⟨later, hlater⟩ := hitems
    rw [← hlater, List.take_append_of_le_length h.taken_le]
    exact h.taken

/-- What an item comes after has been handled: records up to the start of the stream before it,
later ones from it. -/
theorem Sound.handle (h : k.Sound c) : (k.step .handle).Sound c := by
  show k.handle.Sound c
  unfold Consumer.handle
  cases hi : k.feed.items[k.taken]? with
  | none => exact h
  | some i =>
    obtain ⟨p, hfeed, hp⟩ := h.feed
    have hsub : k.handled ⊆ k.handled ++ recordsOf [i] := List.subset_append_left _ _
    refine ⟨?_, h.position.mono hsub, ⟨p, hfeed, hp.mono hsub⟩, h.size, ?_, ?_⟩
    · cases i with
      | error e =>
        show HandledInOrder c _ (k.handled ++ [])
        rw [List.append_nil]
        exact h.inOrder
      | ok r =>
        obtain ⟨hr, hpr, hbefore⟩ := hfeed.before_item hi
        refine h.inOrder.concat hr ?_ fun q hq hcq hqr => ?_
        · rcases hp with rfl | ⟨r₀, hr₀, rfl⟩
          · exact hpr
          · obtain ⟨before, after, hsplit⟩ := List.append_of_mem hr₀
            exact Nat.lt_trans (h.inOrder before r₀ after hsplit).2.1 hpr
        · by_cases hqp : q.number ≤ p.toNat
          · exact hp.covers h.inOrder hfeed.numbered hq hcq hqp
          · exact h.taken (hbefore q hq (Nat.lt_of_not_le hqp) hqr)
    · exact (List.getElem?_eq_some_iff.mp hi).1
    · show recordsOf (k.feed.items.take (k.taken + 1)) ⊆ _
      rw [List.take_add_one, hi, recordsOf_append]
      exact List.append_subset.mpr
        ⟨List.Subset.trans h.taken hsub, List.subset_append_right _ _⟩

theorem Sound.save (h : k.Sound c) (i : Nat) : (k.step (.save i)).Sound c := by
  show (k.save i).Sound c
  unfold Consumer.save
  cases hr : k.handled[i]? with
  | none => exact h
  | some r =>
    refine ⟨h.inOrder, .inr ⟨r, List.mem_of_getElem? hr, ?_⟩, h.feed, h.size, h.taken_le, h.taken⟩
    exact (OutboxCursors.load_save_self k.cursors k.name r.sequence).symm

/-- Starting over from a position reached keeps everything. -/
theorem Sound.restart (h : k.Sound c) (config : OutboxConfig) :
    (k.step (.restart config)).Sound c where
  inOrder := h.inOrder
  position := h.position
  feed := ⟨_, .start h.numbered _ config, h.position⟩
  size := Feed.batchSize_start_pos _ _ config
  taken_le := Nat.zero_le _
  taken := List.nil_subset _

theorem Sound.elsewhere (h : k.Sound c) (other : String) (sequence : Option UInt64) :
    (k.step (.elsewhere other sequence)).Sound c := by
  show (k.elsewhere other sequence).Sound c
  unfold Consumer.elsewhere
  split
  · exact h
  · next hne =>
    cases sequence with
    | some n =>
      refine ⟨h.inOrder, ?_, h.feed, h.size, h.taken_le, h.taken⟩
      show Reached c k.handled ((k.cursors.save other n).load k.name)
      rw [OutboxCursors.load_save_of_ne _ _ hne]
      exact h.position
    | none =>
      refine ⟨h.inOrder, ?_, h.feed, h.size, h.taken_le, h.taken⟩
      show Reached c k.handled ((k.cursors.reset other).load k.name)
      rw [OutboxCursors.load_reset_of_ne _ _ hne]
      exact h.position

theorem Sound.step (h : k.Sound c) (x : Step) : (k.step x).Sound c := by
  cases x with
  | feed x => exact h.feedStep x
  | handle => exact h.handle
  | save i => exact h.save i
  | restart config => exact h.restart config
  | elsewhere other sequence => exact h.elsewhere other sequence

theorem Sound.run (h : k.Sound c) (steps : List Step) : (k.run steps).Sound c := by
  induction steps generalizing k with
  | nil => exact h
  | cons x more ih => exact ih (h.step x)

/-- Once it took all items, it has handled every record up to the position of its stream. -/
theorem Sound.handled_of_taken (h : k.Sound c) (htaken : k.taken = k.feed.items.length)
    {r : OutboxRecord} (hr : r ∈ k.feed.store.outbox) (hcr : c.toNat < r.number)
    (hstream : r.number ≤ k.feed.stream.cursor.toNat) : r ∈ k.handled := by
  obtain ⟨p, hfeed, hp⟩ := h.feed
  by_cases hrp : r.number ≤ p.toNat
  · exact hp.covers h.inOrder h.numbered hr hcr hrp
  · have hrecords : k.feed.records ⊆ k.handled := by
      have := h.taken
      rwa [htaken, List.take_length] at this
    refine hrecords ?_
    rw [hfeed.records_eq]
    obtain ⟨hpos, hget⟩ := h.numbered.getElem_number hr
    refine List.mem_of_getElem? (i := r.number - 1 - p.toNat) ?_
    rw [List.getElem?_take_of_lt (by omega), List.getElem?_drop, ← hget]
    congr 1
    omega

/-! ## The consumer gets on -/

/-- A step of the consumer itself, with the store answering. -/
def Step.isOwn : Step → Bool
  | .feed x => x.isOwn
  | .handle => true
  | _ => false

theorem feed_run (k : Consumer) (steps : List Feed.Step) :
    k.run (steps.map .feed) = { k with feed := k.feed.run steps } := by
  induction steps generalizing k with
  | nil => rfl
  | cons x more ih => exact ih (k.step (.feed x))

@[simp] theorem handle_feed (k : Consumer) : k.handle.feed = k.feed := by
  unfold handle
  split <;> rfl

theorem handle_taken (k : Consumer) :
    k.handle.taken = if k.taken < k.feed.items.length then k.taken + 1 else k.taken := by
  unfold handle
  by_cases h : k.taken < k.feed.items.length
  · rw [List.getElem?_eq_getElem h, if_pos h]
  · rw [List.getElem?_eq_none (Nat.le_of_not_lt h), if_neg h]

/-- It takes items until there are no more. -/
theorem handle_run (k : Consumer) (n : Nat) (hn : k.taken ≤ k.feed.items.length) :
    (k.run (List.replicate n .handle)).feed = k.feed ∧
      (k.run (List.replicate n .handle)).taken = min (k.taken + n) k.feed.items.length := by
  induction n generalizing k with
  | zero => exact ⟨rfl, (Nat.min_eq_left hn).symm⟩
  | succ n ih =>
    have hle : k.handle.taken ≤ k.handle.feed.items.length := by
      rw [handle_taken, handle_feed]
      split <;> omega
    obtain ⟨hfeed, htaken⟩ := ih k.handle hle
    rw [handle_feed] at hfeed htaken
    refine ⟨hfeed, htaken.trans ?_⟩
    rw [handle_taken]
    split <;> omega

/-- By its own steps it comes to handle all records there are. -/
theorem Sound.exists_all (h : k.Sound c) (m : Moment) :
    ∃ own : List Step, (∀ x ∈ own, x.isOwn = true) ∧
      ∀ r ∈ k.feed.store.outbox, c.toNat < r.number → r ∈ (k.run own).handled := by
  obtain ⟨p, hfeed, -⟩ := h.feed
  obtain ⟨steps, hsteps, hall⟩ := hfeed.exists_all h.size m
  let k₁ : Consumer := k.run (steps.map .feed)
  have hk₁ : k₁.feed = k.feed.run steps := congrArg Consumer.feed (feed_run k steps)
  let n := k₁.feed.items.length
  refine ⟨steps.map .feed ++ List.replicate n .handle, ?_, fun r hr hcr => ?_⟩
  · refine List.forall_mem_append.mpr ⟨?_, ?_⟩
    · rintro _ hx
      obtain ⟨x, hxmem, rfl⟩ := List.mem_map.mp hx
      exact hsteps x hxmem
    · rintro _ hx
      rw [List.eq_of_mem_replicate hx]
      rfl
  · have hsound := h.run (steps.map .feed ++ List.replicate n .handle)
    rw [run_append] at hsound ⊢
    obtain ⟨hsame, htaken⟩ := handle_run k₁ n (h.run _).taken_le
    change Sound c (k₁.run _) at hsound
    show r ∈ (k₁.run _).handled
    refine hsound.handled_of_taken (by rw [hsame, htaken]; omega) ?_ hcr ?_
    · rw [hsame, hk₁, Feed.store_run hsteps]
      exact hr
    · rw [hsame, hk₁, (hfeed.run steps).cursor, hall, List.length_drop]
      obtain ⟨hpos, hget⟩ := h.numbered.getElem_number hr
      have := (List.getElem?_eq_some_iff.mp hget).1
      omega

end Consumer

/-! ## Delivery -/

/-- What holds of a stream from `c` on at every moment. -/
structure Feed.Delivers (c : UInt64) (f : Feed) : Prop where
  start_le : c.toNat ≤ f.stream.cursor.toNat
  /-- The records handed out are the ones from the start to the position, -/
  records : f.records = (f.store.outbox.drop c.toNat).take (f.stream.cursor.toNat - c.toNat)
  /-- numbered one by one, in their order. -/
  numbers : f.records.map OutboxRecord.number =
    List.range' (c.toNat + 1) (f.stream.cursor.toNat - c.toNat)
  /-- The errors handed out, or next, are those of the failed reads, one each; -/
  errors : errorsOf f.items ++ errorsOf f.stream.pending = f.failed.map .ofStore
  /-- and a failed read does not move the position. -/
  failed_read : ∀ m e, f.stream.isReading = true →
    (f.step (.read m (some e))).stream.cursor = f.stream.cursor ∧
      (f.run [.read m (some e), .send]).items = f.items ++ [.error (.ofStore e)] ∧
      (f.run [.read m (some e), .send]).stream.cursor = f.stream.cursor
  /-- Once as many items are sent as a read found that was not full, all records that were there
  at the read are handed out. -/
  caught_up : ∀ m more, f.stream.isReading = true →
    (f.store.recordsFrom f.stream.cursor f.stream.batchSize).length < f.stream.batchSize.toNat →
    (f.store.recordsFrom f.stream.cursor f.stream.batchSize).length ≤ Feed.sends more →
    f.store.outbox.drop c.toNat <+: (f.run (.read m none :: more)).records
  /-- The stream can always go on to hand out all records. -/
  gets_on : ∀ _ : Moment, ∃ own : List Feed.Step, (∀ x ∈ own, x.isOwn = true) ∧
    (f.run own).records = f.store.outbox.drop c.toNat

/-- What holds of a consumer that began at `c`, at every moment. -/
structure Consumer.Follows (c : UInt64) (k : Consumer) : Prop where
  /-- A record is handled after every earlier one. -/
  inOrder : HandledInOrder c k.feed.store.outbox k.handled
  /-- Up to the position saved, every record was handled, -/
  saved : ∀ r ∈ k.feed.store.outbox, c.toNat < r.number → r.number ≤ k.position.toNat →
    r ∈ k.handled
  /-- and up to the position of the stream, once all its items are taken. -/
  read : k.taken = k.feed.items.length → ∀ r ∈ k.feed.store.outbox, c.toNat < r.number →
    r.number ≤ k.feed.stream.cursor.toNat → r ∈ k.handled
  /-- The consumer can always go on to handle all records. -/
  gets_on : ∀ _ : Moment, ∃ own : List Consumer.Step, (∀ x ∈ own, x.isOwn = true) ∧
    ∀ r ∈ k.feed.store.outbox, c.toNat < r.number → r ∈ (k.run own).handled

theorem Feed.Sound.delivers {c : UInt64} {f : Feed} (h : f.Sound c)
    (hsize : 0 < f.stream.batchSize.toNat) : f.Delivers c where
  start_le := h.cursor ▸ Nat.le_add_right _ _
  records := h.records_eq
  numbers := h.numbers_eq
  errors := h.errors
  failed_read m e hreading := by
    have hread : f.step (.read m (some e)) = _ := Feed.read_error hreading m e
    have hpending : (f.step (.read m (some e))).stream.pending = [.error (.ofStore e)] := by
      rw [hread]
      rfl
    have hsend := Feed.send_cons hpending
    refine ⟨by rw [hread]; rfl, ?_, ?_⟩
    · show (f.step (.read m (some e))).send.items = _
      rw [hsend, hread]
    · show (f.step (.read m (some e))).send.stream.cursor = _
      rw [hsend, hread]
      rfl
  caught_up m more hreading hshort hmore := h.caught_up hreading m rfl hshort hmore
  gets_on m := h.exists_all hsize m

theorem Consumer.Sound.follows {c : UInt64} {k : Consumer} (h : k.Sound c) : k.Follows c where
  inOrder := h.inOrder
  saved _ hr hcr hle := h.position.covers h.inOrder h.numbered hr hcr hle
  read htaken _ hr hcr hle := h.handled_of_taken htaken hr hcr hle
  gets_on m := h.exists_all m

/-- Whatever is called, fails, waits or starts over in between, a stream hands out every record
after its start once and in order, and a consumer that saves only what it has handled handles every
record after its start, none before the earlier ones. -/
theorem outbox_delivery (calls : List (Moment × StoreCall)) (config : OutboxConfig) :
    (∀ c steps, ((Feed.start (chronicleOf calls).state c config).run steps).Delivers c) ∧
      ∀ name cursors steps,
        ((Consumer.start name (chronicleOf calls).state cursors config).run steps).Follows
          (cursors.load name) := by
  have hnumbered := numbered_chronicleOf calls
  refine ⟨fun c steps => ?_, fun name cursors steps => ?_⟩
  · refine ((Feed.Sound.start hnumbered c config).run steps).delivers ?_
    rw [Feed.batchSize_run]
    exact Feed.batchSize_start_pos _ c config
  · exact ((Consumer.Sound.start hnumbered name cursors config).run steps).follows

namespace Sample

/-- Two journals, and batches of no record at all. -/
def consumer : Consumer :=
  .start "reports" (chronicleOf [(moment 10, .createJournal (journal 1)),
    (moment 20, .createJournal (journal 2))]).state ∅ { OutboxConfig.default with batchSize := 0 }

/-- A read fails, the first record is handled and saved, the second is lost on the way; a journal
comes along, and the consumer starts over. -/
def consumed : List Consumer.Step :=
  [.feed (.read (moment 30) (some (.unavailable "down"))), .feed .send, .handle, .feed .wake,
    .feed (.read (moment 30) none), .feed .send, .handle, .save 0, .feed (.read (moment 30) none),
    .feed .send, .feed (.call (moment 40) (.createJournal (journal 3))), .restart .default,
    .feed (.read (moment 30) none), .feed .send, .handle, .feed .send, .handle]

end Sample

theorem outbox_delivery_sample :
    (Sample.consumer.run Sample.consumed).handled.map OutboxRecord.number = [1, 2, 3] ∧
      (Sample.consumer.run Sample.consumed).position = 1 ∧
      (Sample.consumer.run Sample.consumed).Follows 0 :=
  ⟨by decide, by decide, (outbox_delivery _ _).2 "reports" ∅ Sample.consumed⟩

end DoubleEntry
