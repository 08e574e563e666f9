import DoubleEntry.Database.Store
import DoubleEntry.Proofs.Database.Columns
import DoubleEntry.Proofs.Outbox.Numbered
import DoubleEntry.Proofs.Template.Stored
import Mathlib.Data.List.Nodup

/-!
# The outbox read from a table

`selectAfter` is what a database selects for the statement that reads the outbox, from the values
that are bound. On a table of the outbox the database store then reads what the store in memory
reads, as long as the position is below `2 ^ 63`. A position from there on is bound as a negative
number, and every record comes after it (`whole_outbox_read`).

Main statement: `outbox_reads`.
-/

namespace DoubleEntry.Database

/-! ## Evaluating the query -/

/-- What a session comes out with on a database that answers commands in this way. -/
def Session.runOn {α : Type} (answer : Command → Except SessionFault Answer) :
    Session α → StoreResult α
  | .done result => result
  | .send c next => (next (answer c)).runOn answer

/-- The number in the column that outbox rows are sorted by. -/
def sequenceOf (row : Row) : Int :=
  match OrdMap.get? "sequence" row with
  | some (.int i) => i
  | _ => 0

/-- The rows with a number greater than the first parameter, in ascending order, at most as many as
the second one says. -/
def selectAfter (table : List Row) (s : Statement) : List Row :=
  match s.params with
  | [.int after, .int limit] =>
    ((table.filter fun row => after < sequenceOf row).mergeSort fun a b =>
      sequenceOf a ≤ sequenceOf b).take limit.toNat
  | _ => []

/-- A database with this table of outbox rows. -/
def answerFrom (table : List Row) : Command → Except SessionFault Answer
  | .statement s => .ok ⟨selectAfter table s, 0⟩
  | _ => .ok ⟨[], 0⟩

/-- A row that a record is read from, with its number. -/
structure HoldsRecord (r : OutboxRecord) (row : Row) : Prop where
  reads : readRecord row = .ok r
  sequence : OrdMap.get? "sequence" row = some (.ofWord64 r.sequence)

/-- A table with a row for each record, in any order. -/
def Tabulates (outbox : List OutboxRecord) (table : List Row) : Prop :=
  ∃ rows, table.Perm rows ∧ List.Forall₂ HoldsRecord outbox rows

section Table

variable {s : StoreState} {rows table : List Row}

theorem sequenceOf_eq {r : OutboxRecord} {row : Row} (h : HoldsRecord r row)
    (hr : r.number < pow2 63) : sequenceOf row = r.number := by
  unfold sequenceOf
  rw [h.sequence, ofWord64_of_lt hr]
  rfl

/-- The rows of a numbered outbox have its numbers. -/
theorem map_sequenceOf (hs : s.Numbered) (hn : s.outbox.length < pow2 63)
    (hrows : List.Forall₂ HoldsRecord s.outbox rows) :
    rows.map sequenceOf = (List.range' 1 s.outbox.length).map Int.ofNat := by
  have hlt : ∀ r ∈ s.outbox, r.number < pow2 63 := by
    intro r hr
    have hmem : r.number ∈ List.range' 1 s.outbox.length := hs.numbers ▸ List.mem_map_of_mem hr
    have := (List.mem_range'_1.mp hmem).2
    omega
  have hmap : ∀ {outbox : List OutboxRecord} {rows : List Row},
      List.Forall₂ HoldsRecord outbox rows → (∀ r ∈ outbox, r.number < pow2 63) →
      rows.map sequenceOf = (outbox.map OutboxRecord.number).map Int.ofNat := by
    intro outbox rows h hlt
    induction h with
    | nil => rfl
    | cons hrow _ ih =>
      obtain ⟨hr, hrest⟩ := List.forall_mem_cons.mp hlt
      rw [List.map_cons, List.map_cons, List.map_cons, sequenceOf_eq hrow hr, ih hrest]
      rfl
  rw [hmap hrows hlt, hs.numbers]

/-- Sorting a table of the outbox gives its rows in the order of the records. -/
theorem mergeSort_eq (hs : s.Numbered) (hn : s.outbox.length < pow2 63)
    (hrows : List.Forall₂ HoldsRecord s.outbox rows) (htable : table.Perm rows)
    (p : Row → Bool) :
    ((table.filter p).mergeSort fun a b => sequenceOf a ≤ sequenceOf b) = rows.filter p := by
  have hascending : rows.Pairwise fun a b => sequenceOf a < sequenceOf b := by
    rw [← List.pairwise_map, map_sequenceOf hs hn hrows, List.pairwise_map]
    exact (List.pairwise_lt_range').imp fun h => Int.ofNat_lt.mpr h
  have hinjective : ∀ a ∈ rows, ∀ b ∈ rows, sequenceOf a = sequenceOf b → a = b :=
    fun a ha b hb => List.inj_on_of_nodup_map
      (List.pairwise_map.mpr (hascending.imp Int.ne_of_lt)) ha hb
  have hperm := (List.mergeSort_perm (table.filter p) fun a b =>
    decide (sequenceOf a ≤ sequenceOf b)).trans (htable.filter p)
  have htrans : ∀ a b c, decide (sequenceOf a ≤ sequenceOf b) = true →
      decide (sequenceOf b ≤ sequenceOf c) = true →
        decide (sequenceOf a ≤ sequenceOf c) = true := by
    simpa using fun a b c => Int.le_trans
  have htotal : ∀ a b,
      (decide (sequenceOf a ≤ sequenceOf b) || decide (sequenceOf b ≤ sequenceOf a)) = true := by
    simpa using fun a b => Int.le_total (sequenceOf a) (sequenceOf b)
  have hsorted := (List.pairwise_mergeSort htrans htotal (table.filter p)).imp of_decide_eq_true
  refine List.Perm.eq_of_pairwise (fun a b ha hb hab hba => ?_) hsorted
    ((hascending.filter p).imp Int.le_of_lt) hperm
  exact hinjective a (List.mem_filter.mp (hperm.subset ha)).1 b (List.mem_filter.mp hb).1
    (Int.le_antisymm hab hba)

/-- Rows and their records are filtered alike. -/
theorem forall₂_filter {p : Row → Bool} {q : OutboxRecord → Bool} {outbox : List OutboxRecord}
    (hrows : List.Forall₂ HoldsRecord outbox rows)
    (hpq : ∀ r ∈ outbox, ∀ row, HoldsRecord r row → p row = q r) :
    List.Forall₂ HoldsRecord (outbox.filter q) (rows.filter p) := by
  induction hrows with
  | nil => exact .nil
  | @cons r row _ _ hrow _ ih =>
    obtain ⟨hr, hrest⟩ := List.forall_mem_cons.mp hpq
    have hsame := hr row hrow
    by_cases hq : q r = true
    · rw [List.filter_cons_of_pos hq, List.filter_cons_of_pos (hsame.trans hq)]
      exact .cons hrow (ih hrest)
    · rw [List.filter_cons_of_neg hq, List.filter_cons_of_neg (by rwa [hsame])]
      exact ih hrest

/-- What the database store reads for a position that is bound as this number. The bound limit is
cut only where it exceeds the number of records anyway. -/
theorem runOn_loadOutboxAfter (hs : s.Numbered) (hn : s.outbox.length < pow2 63)
    (htable : Tabulates s.outbox table) (m : Moment) {after : UInt64} {position : Int}
    (hposition : SqlValue.ofWord64 after = .int position) (limit : UInt64) :
    (session m (.loadOutboxAfter after limit)).runOn (answerFrom table) =
      .ok ((s.outbox.filter fun r => position < r.number).take limit.toNat) := by
  obtain ⟨rows, hperm, hrows⟩ := htable
  have hselect : selectAfter table (.loadOutboxAfter after limit) =
      (rows.filter fun row => position < sequenceOf row).take limit.toNat := by
    unfold selectAfter Statement.loadOutboxAfter SqlValue.ofLimit
    rw [hposition]
    dsimp only
    rw [mergeSort_eq hs hn hrows hperm]
    by_cases hlimit : limit.toNat ≤ pow2 63 - 1
    · rw [Nat.min_eq_left hlimit]
      rfl
    · have hlength : (rows.filter fun row => position < sequenceOf row).length < pow2 63 :=
        Nat.lt_of_le_of_lt (List.length_filter_le _ _) (hrows.length_eq ▸ hn)
      rw [Nat.min_eq_right (Nat.le_of_not_le hlimit), List.take_of_length_le,
        List.take_of_length_le]
      · omega
      · show _ ≤ pow2 63 - 1
        omega
  have hread : (selectAfter table (.loadOutboxAfter after limit)).mapM readRecord =
      .ok ((s.outbox.filter fun r => position < r.number).take limit.toNat) := by
    rw [hselect, mapM_eq_ok_iff_forall₂]
    refine ((List.forall₂_take limit.toNat (forall₂_filter hrows fun r hr row hrow => ?_)).imp
      fun r row hrow => hrow.reads).flip
    have hlt : r.number < pow2 63 := by
      have := (List.getElem?_eq_some_iff.mp (hs.getElem_number hr).2).1
      omega
    rw [sequenceOf_eq hrow hlt]
  exact hread

end Table

/-- The store in memory reads the records with greater numbers than the position, and the database
store reads the same on a table of the outbox exactly for a position below `2 ^ 63`, unless there is
nothing to read. For a greater one it reads the outbox from its beginning. -/
theorem outbox_reads {s : StoreState} (hs : s.Numbered) (hn : s.outbox.length < pow2 63)
    {table : List Row} (htable : Tabulates s.outbox table) (m : Moment) (after limit : UInt64) :
    (StoreState.run m (.loadOutboxAfter after limit) s).1 =
        .ok ((s.outbox.filter fun r => after.toNat < r.number).take limit.toNat) ∧
      (session m (.loadOutboxAfter after limit)).runOn (answerFrom table) =
        .ok ((if after.toNat < pow2 63 then s.outbox.filter fun r => after.toNat < r.number
          else s.outbox).take limit.toNat) ∧
      ((session m (.loadOutboxAfter after limit)).runOn (answerFrom table) =
          (StoreState.run m (.loadOutboxAfter after limit) s).1 ↔
        after.toNat < pow2 63 ∨ s.outbox = [] ∨ limit = 0) := by
  have hmemory : (StoreState.run m (.loadOutboxAfter after limit) s).1 =
      .ok ((s.outbox.filter fun r => after.toNat < r.number).take limit.toNat) := by
    rw [hs.filter_number]
    rfl
  have hdatabase : (session m (.loadOutboxAfter after limit)).runOn (answerFrom table) =
      .ok ((if after.toNat < pow2 63 then s.outbox.filter fun r => after.toNat < r.number
        else s.outbox).take limit.toNat) := by
    by_cases hafter : after.toNat < pow2 63
    · rw [runOn_loadOutboxAfter hs hn htable m (ofWord64_of_lt hafter), if_pos hafter]
      simp only [Int.ofNat_lt]
    · rw [runOn_loadOutboxAfter hs hn htable m (ofWord64_of_le (Nat.le_of_not_lt hafter)),
        if_neg hafter, List.filter_eq_self.mpr]
      intro r _
      have hlt := after.toNat_lt
      refine decide_eq_true ?_
      rw [pow2_64]
      omega
  refine ⟨hmemory, hdatabase, ?_⟩
  rw [hmemory, hdatabase]
  by_cases hafter : after.toNat < pow2 63
  · rw [if_pos hafter]
    exact ⟨fun _ => .inl hafter, fun _ => rfl⟩
  · have hnone : (s.outbox.filter fun r => after.toNat < r.number) = [] := by
      rw [hs.filter_number]
      exact List.drop_of_length_le (by omega)
    rw [if_neg hafter, hnone, List.take_nil]
    constructor
    · intro h
      rcases List.take_eq_nil_iff.mp (Except.ok.inj h) with hlimit | hempty
      · exact .inr (.inr (UInt64.toNat_inj.mp hlimit))
      · exact .inr (.inl hempty)
    · rintro (h | h | h)
      · exact absurd h hafter
      · rw [h, List.take_nil]
      · rw [h]
        rfl

/-! ### One record -/

namespace Sample

open DoubleEntry.Sample

/-- A ledger with one journal. -/
def journaled : StoreState := (chronicleOf [(moment 10, .createJournal (journal 1))]).state

def record : OutboxRecord := .ofEvent (uuid 10) 1 (.journalCreated (journal 1))

/-- The row of the record, as it was inserted. -/
def recordRow : Row :=
  OrdMap.ofList (["sequence", "id", "event_type", "event_version", "payload", "recorded_at"].zip
    (Statement.insertRecord record).params)

theorem tabulates_journaled : Tabulates journaled.outbox [recordRow] :=
  ⟨[recordRow], .refl _, .cons ⟨rfl, rfl⟩ .nil⟩

end Sample

theorem outbox_reads_journaled :
    Sample.journaled.Numbered ∧ Sample.journaled.outbox.length < pow2 63 ∧
      Tabulates Sample.journaled.outbox [Sample.recordRow] ∧
      (session (Sample.moment 20) (.loadOutboxAfter 0 10)).runOn (answerFrom [Sample.recordRow]) =
        (StoreState.run (Sample.moment 20) (.loadOutboxAfter 0 10) Sample.journaled).1 := by
  have hs : Sample.journaled.Numbered := numbered_chronicleOf _
  have hn : Sample.journaled.outbox.length < pow2 63 := by decide
  refine ⟨hs, hn, Sample.tabulates_journaled, ?_⟩
  exact (outbox_reads hs hn Sample.tabulates_journaled (Sample.moment 20) 0 10).2.2.mpr
    (.inl (by decide))

/-- After the greatest position the store in memory reads nothing, and the database store reads all
there is. -/
theorem whole_outbox_read :
    (StoreState.run (Sample.moment 20) (.loadOutboxAfter 18446744073709551615 10)
        Sample.journaled).1 = .ok [] ∧
      (session (Sample.moment 20) (.loadOutboxAfter 18446744073709551615 10)).runOn
        (answerFrom [Sample.recordRow]) = .ok [Sample.record] := by
  refine ⟨rfl, ?_⟩
  have hafter : SqlValue.ofWord64 18446744073709551615 = .int (-1) := rfl
  exact runOn_loadOutboxAfter (s := Sample.journaled) (numbered_chronicleOf _) (by decide)
    Sample.tabulates_journaled (Sample.moment 20) hafter 10

end DoubleEntry.Database
