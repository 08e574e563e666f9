import DoubleEntry.Proofs.Balance.Deltas
import DoubleEntry.Proofs.Engine.Writes
import DoubleEntry.Proofs.Store.Success

/-!
# The numbers of outbox records

Records are numbered from one on without gaps, in the order in which they were written, and what is
written stays: after any calls the outbox is `Numbered`, and every call leaves it or appends to it.
So the records after a position are those with greater numbers (`filter_number`), and a position
stands for the same record at any later time.
-/

namespace DoubleEntry

/-- The sequence number of a record. -/
def OutboxRecord.number (r : OutboxRecord) : Nat := r.sequence.toNat

/-- Appended records count on from the last number. -/
theorem numbers_of_recordsAfter {ε : Type} {recordId : Nat → Uuid} {last final : UInt64}
    {events : List LedgerEvent} {records : List OutboxRecord}
    (h : recordsAfter (ε := ε) recordId last events = .ok (records, final)) :
    records.map OutboxRecord.number = List.range' (last.toNat + 1) events.length ∧
      final.toNat = last.toNat + events.length := by
  induction events generalizing recordId last records with
  | nil =>
    cases h
    exact ⟨rfl, rfl⟩
  | cons e es ih =>
    obtain ⟨sequence, hsequence, h⟩ := bind_eq_ok.mp h
    obtain ⟨⟨rest, final'⟩, hrest, h⟩ := bind_eq_ok.mp h
    cases h
    have hnext := nextCount_eq_ok hsequence
    obtain ⟨hnumbers, hfinal⟩ := ih hrest
    refine ⟨?_, ?_⟩
    · rw [List.map_cons, hnumbers, hnext, List.length_cons, List.range'_succ]
      exact congrArg (· :: _) hnext
    · rw [hfinal, hnext, List.length_cons]
      omega

namespace StoreState

/-- The records are numbered from one on. -/
structure Numbered (s : StoreState) : Prop where
  numbers : s.outbox.map OutboxRecord.number = List.range' 1 s.outbox.length
  length_lt : s.outbox.length < pow2 64

variable {s s' : StoreState} {m : Moment}

theorem Numbered.empty : StoreState.empty.Numbered := ⟨rfl, pow2_pos 64⟩

/-- The record with a number stands at the place before it. -/
theorem Numbered.number_getElem (h : s.Numbered) {i : Nat} {r : OutboxRecord}
    (hr : s.outbox[i]? = some r) : r.number = i + 1 := by
  have hmap := congrArg (·[i]?) h.numbers
  obtain ⟨hi, -⟩ := List.getElem?_eq_some_iff.mp hr
  simp only [List.getElem?_map, hr, Option.map_some, List.getElem?_range' hi] at hmap
  have hnumber := Option.some.inj hmap
  omega

/-- A record stands at the place before its number. -/
theorem Numbered.getElem_number (h : s.Numbered) {r : OutboxRecord} (hr : r ∈ s.outbox) :
    0 < r.number ∧ s.outbox[r.number - 1]? = some r := by
  obtain ⟨i, hi⟩ := List.mem_iff_getElem?.mp hr
  rw [h.number_getElem hi]
  exact ⟨Nat.succ_pos i, hi⟩

/-- There is one record of each number. -/
theorem Numbered.eq_of_number_eq (h : s.Numbered) {q r : OutboxRecord} (hq : q ∈ s.outbox)
    (hr : r ∈ s.outbox) (hnumber : q.number = r.number) : q = r := by
  have hget := (h.getElem_number hq).2
  rw [hnumber, (h.getElem_number hr).2] at hget
  exact (Option.some.inj hget).symm

theorem Numbered.lastSequence (h : s.Numbered) : s.lastSequence.toNat = s.outbox.length :=
  UInt64.toNat_ofNat_of_lt h.length_lt

/-! ## Calls -/

/-- A call leaves the outbox or appends records that count on. -/
theorem records_of_answer {c : StoreCall} {reply : c.Reply} (h : s.answer m c = .ok (reply, s')) :
    s'.outbox = s.outbox ∨ ∃ events records final,
      recordsAfter (ε := StoreError) m.recordId s.lastSequence events = .ok (records, final) ∧
        s'.outbox = s.outbox ++ records := by
  have happend : ∀ {t : StoreState} {events : List LedgerEvent} {last : UInt64},
      t.append m events = .ok (last, s') → t.outbox = s.outbox →
      ∃ events records final,
        recordsAfter (ε := StoreError) m.recordId s.lastSequence events = .ok (records, final) ∧
          s'.outbox = s.outbox ++ records := by
    intro t events last ht hsame
    obtain ⟨records, hrecords, rfl⟩ := append_eq_ok ht
    unfold StoreState.lastSequence at hrecords ⊢
    rw [hsame] at hrecords
    exact ⟨events, records, last, hrecords, congrArg (· ++ records) hsame⟩
  cases c with
  | createJournal j =>
    obtain ⟨-, codes, -, h⟩ := createJournal_eq_ok h
    exact Or.inr (happend h rfl)
  | updateJournal j fields => exact Or.inr (happend (updateJournal_eq_ok h).2 rfl)
  | createAccount a => exact Or.inr (happend (createAccount_eq_ok h).2.2 rfl)
  | updateAccount a fields => exact Or.inr (happend (updateAccount_eq_ok h).2 rfl)
  | createTemplate t => exact Or.inr (happend (createTemplate_eq_ok h).2 rfl)
  | commitTransaction t => exact Or.inr (happend (commit_eq_ok h).2.2 rfl)
  | _ =>
    cases h
    exact Or.inl rfl

theorem Numbered.append (h : s.Numbered) {events : List LedgerEvent} {records : List OutboxRecord}
    {final : UInt64}
    (hrecords : recordsAfter (ε := StoreError) m.recordId s.lastSequence events
      = .ok (records, final)) (hs' : s'.outbox = s.outbox ++ records) : s'.Numbered := by
  obtain ⟨hnumbers, hfinal⟩ := numbers_of_recordsAfter hrecords
  have hlength : records.length = events.length := by
    rw [← List.length_map (f := OutboxRecord.number), hnumbers, List.length_range']
  rw [h.lastSequence] at hnumbers hfinal
  refine ⟨?_, ?_⟩
  · rw [hs', List.map_append, h.numbers, hnumbers, List.length_append, hlength,
      Nat.add_comm s.outbox.length 1]
    exact List.range'_append_1
  · rw [hs', List.length_append, hlength, ← hfinal]
    exact final.toNat_lt

/-- A call keeps the records that are there, and the numbering. -/
theorem Numbered.run (h : s.Numbered) (m : Moment) (c : StoreCall) :
    (StoreState.run m c s).2.Numbered ∧ s.outbox <+: (StoreState.run m c s).2.outbox := by
  rw [run_eq_answer]
  cases hanswer : s.answer m c with
  | error f => exact ⟨h, List.prefix_refl _⟩
  | ok p =>
    rcases records_of_answer hanswer with hsame | ⟨events, records, final, hrecords, hs'⟩
    · have hgrows : s.outbox <+: p.2.outbox := hsame ▸ List.prefix_refl _
      exact ⟨⟨hsame ▸ h.numbers, hsame ▸ h.length_lt⟩, hgrows⟩
    · exact ⟨h.append hrecords hs', records, hs'.symm⟩

/-! ## Reading -/

/-- The records after a position are those with greater numbers. -/
theorem Numbered.filter_number (h : s.Numbered) (n : Nat) :
    (s.outbox.filter fun r => n < r.number) = s.outbox.drop n := by
  have hbefore : ∀ r ∈ s.outbox.take n, ¬ n < r.number := by
    intro r hr
    obtain ⟨i, hi, rfl⟩ := List.mem_take_iff_getElem.mp hr
    rw [h.number_getElem (List.getElem?_eq_getElem _)]
    omega
  have hafter : ∀ r ∈ s.outbox.drop n, n < r.number := by
    intro r hr
    obtain ⟨i, hi⟩ := List.mem_iff_getElem?.mp hr
    rw [List.getElem?_drop] at hi
    rw [h.number_getElem hi]
    omega
  calc (s.outbox.filter fun r => n < r.number)
      = (s.outbox.take n ++ s.outbox.drop n).filter fun r => n < r.number := by
        rw [List.take_append_drop]
    _ = s.outbox.drop n := by
        rw [List.filter_append, List.filter_eq_nil_iff.mpr (by simpa using hbefore),
          List.filter_eq_self.mpr (by simpa using hafter), List.nil_append]

end StoreState

/-- After any calls the outbox is numbered. -/
theorem numbered_chronicleOf (calls : List (Moment × StoreCall)) :
    (chronicleOf calls).state.Numbered :=
  chronicleOf_invariant (I := fun h => h.state.Numbered) .empty
    (fun m c _ h => (h.run m c).1) calls

end DoubleEntry
