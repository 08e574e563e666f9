import DoubleEntry.Proofs.Engine.Atomicity
import DoubleEntry.Proofs.Engine.Effects

/-!
# Journals and accounts as they are described

Journals and accounts have fields that may change: the name and the description, and the metadata
of an account. Both are updated the same way, so what holds of one is said here of both
(`Described`). An update sets the fields it gives a value for and keeps the others; the fields it
reports are those in which the new row differs from the old one, whatever values were given
(`Described.mem_fields_iff`).

What the tables hold of a journal or account is what the last record told of it carries
(`holdsTold_chronicleOf`).
-/

namespace DoubleEntry

open OrdMap

/-! ## Rows with descriptive fields -/

/-- What has descriptive fields. -/
inductive Described where
  | journal
  | account

namespace Described

def Id : Described → Type
  | .journal => JournalId
  | .account => AccountId

def Row : Described → Type
  | .journal => Journal
  | .account => Account

def Update : Described → Type
  | .journal => JournalUpdate
  | .account => AccountUpdate

instance : (d : Described) → DecidableEq d.Id
  | .journal => inferInstanceAs (DecidableEq JournalId)
  | .account => inferInstanceAs (DecidableEq AccountId)

def rowId : (d : Described) → d.Row → d.Id
  | .journal, j => Journal.id j
  | .account, a => Account.id a

/-- The row that the tables hold. -/
def row? : (d : Described) → StoreState → d.Id → Option d.Row
  | .journal, s, id => s.journals.get? (κ := JournalId) id
  | .account, s, id => s.accounts.get? (κ := AccountId) id

def update : (d : Described) → d.Row → d.Update → Timestamp →
    Except ValueError (d.Row × List String)
  | .journal, j, u, now => Journal.update j u now
  | .account, a, u, now => Account.update a u now

/-- The call that stores an updated row. -/
def call : (d : Described) → d.Row → List String → StoreCall
  | .journal, j, fields => .updateJournal j fields
  | .account, a, fields => .updateAccount a fields

/-- The event that tells of an updated row. -/
def updated : (d : Described) → d.Row → List String → LedgerEvent
  | .journal, j, fields => .journalUpdated j fields
  | .account, a, fields => .accountUpdated a fields

/-- The row that an event tells of, new or updated. -/
def told? : (d : Described) → LedgerEvent → Option d.Row
  | .journal, .journalCreated j => some j
  | .journal, .journalUpdated j _ => some j
  | .account, .accountCreated a => some a
  | .account, .accountUpdated a _ => some a
  | _, _ => none

/-- The row after the last of some events that tells of it. -/
def lastTold (d : Described) (id : d.Id) (events : List LedgerEvent) : Option d.Row :=
  ((events.filterMap d.told?).filter fun row => d.rowId row = id).getLast?

/-- The rows differ in the field of this name, which is one of those that may change. -/
def DiffersIn : (d : Described) → d.Row → d.Row → String → Prop
  | .journal, old, new, f =>
    (f = "name" ∧ Journal.name new ≠ Journal.name old) ∨
      (f = "description" ∧ Journal.description new ≠ Journal.description old)
  | .account, old, new, f =>
    (f = "name" ∧ Account.name new ≠ Account.name old) ∨
      (f = "description" ∧ Account.description new ≠ Account.description old) ∨
        (f = "metadata" ∧ Account.metadata new ≠ Account.metadata old)

/-- The update gives a value for the field of this name. -/
def Sets : (d : Described) → d.Update → String → Prop
  | .journal, u, f =>
    (f = "name" ∧ JournalUpdate.name u ≠ none) ∨
      (f = "description" ∧ JournalUpdate.description u ≠ none)
  | .account, u, f =>
    (f = "name" ∧ AccountUpdate.name u ≠ none) ∨
      (f = "description" ∧ AccountUpdate.description u ≠ none) ∨
        (f = "metadata" ∧ AccountUpdate.metadata u ≠ none)

/-- The row is as the update asks, in all fields that it sets. -/
def Idle : (d : Described) → d.Update → d.Row → Prop
  | .journal, u, j => JournalUpdate.Idle u j
  | .account, u, a => AccountUpdate.Idle u a

/-- The updates set none of the same fields. -/
def Apart (d : Described) (u u' : d.Update) : Prop := ∀ f, d.Sets u f → ¬ d.Sets u' f

end Described

/-! ## What an update does -/

namespace Described

variable {d : Described} {old row : d.Row} {u u' : d.Update} {now : Timestamp}
  {fields : List String}

theorem rowId_update (h : d.update old u now = .ok (row, fields)) : d.rowId row = d.rowId old := by
  cases d with
  | journal =>
    obtain ⟨_, _, -, -, -, hj⟩ := Journal.update_eq_ok h
    rw [hj]
    rfl
  | account =>
    obtain ⟨_, _, _, -, -, -, -, ha⟩ := Account.update_eq_ok h
    rw [ha]
    rfl

/-- The fields reported are those in which the rows differ. -/
theorem mem_fields_iff (h : d.update old u now = .ok (row, fields)) {f : String} :
    f ∈ fields ↔ d.DiffersIn old row f := by
  cases d with
  | journal =>
    obtain ⟨_, _, rfl, hname, hdescription, -⟩ := Journal.update_eq_ok h
    rw [List.mem_append, hname.mem_iff, hdescription.mem_iff]
    rfl
  | account =>
    obtain ⟨_, _, _, rfl, hname, hdescription, hmetadata, -⟩ := Account.update_eq_ok h
    rw [List.mem_append, List.mem_append, hname.mem_iff, hdescription.mem_iff, hmetadata.mem_iff,
      or_assoc]
    rfl

/-- No field is reported twice. -/
theorem nodup_fields (h : d.update old u now = .ok (row, fields)) : fields.Nodup := by
  cases d with
  | journal =>
    obtain ⟨_, _, rfl, hname, hdescription, -⟩ := Journal.update_eq_ok h
    exact (hname.sublist.append hdescription.sublist).nodup (by decide)
  | account =>
    obtain ⟨_, _, _, rfl, hname, hdescription, hmetadata, -⟩ := Account.update_eq_ok h
    exact ((hname.sublist.append hdescription.sublist).append hmetadata.sublist).nodup (by decide)

/-- An update reports no fields exactly if the row is as it asks already. -/
theorem fields_eq_nil_iff (h : d.update old u now = .ok (row, fields)) :
    fields = [] ↔ d.Idle u old := by
  cases d with
  | journal => exact Journal.fields_eq_nil_iff h
  | account => exact Account.fields_eq_nil_iff h

/-- The new row is as the update asks. -/
theorem idle_update (h : d.update old u now = .ok (row, fields)) : d.Idle u row := by
  cases d with
  | journal =>
    obtain ⟨_, _, -, hname, hdescription, -⟩ := Journal.update_eq_ok h
    exact ⟨fun _ => hname.holds, fun _ => hdescription.holds⟩
  | account =>
    obtain ⟨_, _, _, -, hname, hdescription, hmetadata, -⟩ := Account.update_eq_ok h
    exact ⟨fun _ => hname.holds, fun _ => hdescription.holds, fun _ => hmetadata.holds⟩

/-- An update changes only fields that it sets. -/
theorem sets_of_differs (h : d.update old u now = .ok (row, fields)) {f : String}
    (hf : d.DiffersIn old row f) : d.Sets u f := by
  cases d with
  | journal =>
    obtain ⟨_, _, -, hname, hdescription, -⟩ := Journal.update_eq_ok h
    exact hf.imp (.imp_right (mt hname.eq_of_none)) (.imp_right (mt hdescription.eq_of_none))
  | account =>
    obtain ⟨_, _, _, -, hname, hdescription, hmetadata, -⟩ := Account.update_eq_ok h
    exact hf.imp (.imp_right (mt hname.eq_of_none))
      (.imp (.imp_right (mt hdescription.eq_of_none)) (.imp_right (mt hmetadata.eq_of_none)))

theorem DiffersIn.symm {f : String} (h : d.DiffersIn old row f) : d.DiffersIn row old f := by
  cases d with
  | journal => exact h.imp (.imp_right Ne.symm) (.imp_right Ne.symm)
  | account => exact h.imp (.imp_right Ne.symm) (.imp (.imp_right Ne.symm) (.imp_right Ne.symm))

/-- A row is as an update asks if another one is that does not differ in the fields set. -/
theorem idle_of_same (h : ∀ f, d.Sets u f → ¬ d.DiffersIn old row f) (hidle : d.Idle u old) :
    d.Idle u row := by
  cases d with
  | journal =>
    have hname : JournalUpdate.name u ≠ none → Journal.name row = Journal.name old :=
      fun hu => not_not.mp fun hne => h "name" (.inl ⟨rfl, hu⟩) (.inl ⟨rfl, hne⟩)
    have hdescription : JournalUpdate.description u ≠ none →
        Journal.description row = Journal.description old :=
      fun hu => not_not.mp fun hne => h "description" (.inr ⟨rfl, hu⟩) (.inr ⟨rfl, hne⟩)
    exact ⟨fun t ht => hname (by simp [ht]) ▸ JournalUpdate.Idle.name hidle t ht,
      fun t ht => hdescription (by simp [ht]) ▸ JournalUpdate.Idle.description hidle t ht⟩
  | account =>
    have hname : AccountUpdate.name u ≠ none → Account.name row = Account.name old :=
      fun hu => not_not.mp fun hne => h "name" (.inl ⟨rfl, hu⟩) (.inl ⟨rfl, hne⟩)
    have hdescription : AccountUpdate.description u ≠ none →
        Account.description row = Account.description old :=
      fun hu => not_not.mp fun hne =>
        h "description" (.inr (.inl ⟨rfl, hu⟩)) (.inr (.inl ⟨rfl, hne⟩))
    have hmetadata : AccountUpdate.metadata u ≠ none →
        Account.metadata row = Account.metadata old :=
      fun hu => not_not.mp fun hne =>
        h "metadata" (.inr (.inr ⟨rfl, hu⟩)) (.inr (.inr ⟨rfl, hne⟩))
    exact ⟨fun t ht => hname (by simp [ht]) ▸ AccountUpdate.Idle.name hidle t ht,
      fun t ht => hdescription (by simp [ht]) ▸ AccountUpdate.Idle.description hidle t ht,
      fun m hm => hmetadata (by simp [hm]) ▸ AccountUpdate.Idle.metadata hidle m hm⟩

/-- An update leaves the fields that another one sets, where the two are apart. -/
theorem Apart.idle_iff (hapart : d.Apart u u') (h : d.update old u now = .ok (row, fields)) :
    d.Idle u' row ↔ d.Idle u' old :=
  ⟨idle_of_same fun f hf hdiffers => hapart f (sets_of_differs h hdiffers.symm) hf,
    idle_of_same fun f hf hdiffers => hapart f (sets_of_differs h hdiffers) hf⟩

/-- Where a row differs from a third one and another does not, the two differ. -/
theorem DiffersIn.of_not {r : d.Row} {f : String} (hold : d.DiffersIn r old f)
    (hrow : ¬ d.DiffersIn r row f) : d.DiffersIn old row f := by
  cases d with
  | journal =>
    refine hold.imp (fun ⟨hf, hne⟩ => ⟨hf, fun heq => hrow (.inl ⟨hf, heq ▸ hne⟩)⟩) fun ⟨hf, hne⟩ =>
      ⟨hf, fun heq => hrow (.inr ⟨hf, heq ▸ hne⟩)⟩
  | account =>
    refine hold.imp (fun ⟨hf, hne⟩ => ⟨hf, fun heq => hrow (.inl ⟨hf, heq ▸ hne⟩)⟩)
      (.imp (fun ⟨hf, hne⟩ => ⟨hf, fun heq => hrow (.inr (.inl ⟨hf, heq ▸ hne⟩))⟩) fun ⟨hf, hne⟩ =>
        ⟨hf, fun heq => hrow (.inr (.inr ⟨hf, heq ▸ hne⟩))⟩)

end Described

/-! ## What was told last -/

namespace Described

variable {d : Described} {id : d.Id} {events more : List LedgerEvent} {e : LedgerEvent}
  {row : d.Row}

theorem row?_withRecords (d : Described) (s : StoreState) (records : List OutboxRecord)
    (id : d.Id) : d.row? (s.withRecords records) id = d.row? s id := by
  cases d <;> rfl

theorem told?_updated (d : Described) (row : d.Row) (fields : List String) :
    d.told? (d.updated row fields) = some row := by
  cases d <;> rfl

theorem lastTold_append_of_none (h : ∀ e ∈ more, d.told? e = none) :
    d.lastTold id (events ++ more) = d.lastTold id events := by
  unfold lastTold
  rw [List.filterMap_append, List.filterMap_eq_nil_iff.mpr h, List.append_nil]

theorem lastTold_concat (h : d.told? e = some row) :
    d.lastTold id (events ++ [e]) = if id = d.rowId row then some row
      else d.lastTold id events := by
  unfold lastTold
  rw [List.filterMap_append, List.filterMap_cons_some h, List.filterMap_nil, List.filter_append]
  split
  · next hid =>
    rw [List.filter_cons_of_pos (by simp [hid]), List.filter_nil, List.getLast?_concat]
  · next hid =>
    rw [List.filter_cons_of_neg (by simpa using Ne.symm hid), List.filter_nil, List.append_nil]

/-- What was told last of an identifier is a row with this identifier. -/
theorem rowId_of_lastTold (h : d.lastTold id events = some row) : d.rowId row = id := by
  have hmem := List.mem_of_getLast? h
  exact of_decide_eq_true (List.mem_filter.mp hmem).2

end Described

theorem told?_of_mem_postingEvents {d : Described} {t : Transaction} {rows : List BalanceSnapshot}
    {e : LedgerEvent} (he : e ∈ postingEvents t rows) : d.told? e = none := by
  rcases List.mem_cons.mp he with rfl | he
  · cases d <;> rfl
  · obtain ⟨b, -, rfl⟩ := List.mem_map.mp he
    unfold LedgerEvent.forBalance
    split <;> cases d <;> rfl

/-- A call stores a row and tells of it, or neither. -/
theorem StoreState.Stores.tells {s s₁ : StoreState} {now : Timestamp} {c : StoreCall}
    {events : List LedgerEvent} (h : s.Stores now c s₁ events) (d : Described) :
    (∃ e row, events = [e] ∧ d.told? e = some row ∧
        ∀ id, d.row? s₁ id = if id = d.rowId row then some row else d.row? s id) ∨
      ((∀ e ∈ events, d.told? e = none) ∧ ∀ id, d.row? s₁ id = d.row? s id) := by
  have hnone : ∀ {e : LedgerEvent}, d.told? e = none → ∀ e' ∈ [e], d.told? e' = none :=
    fun he e' he' => List.mem_singleton.mp he' ▸ he
  cases h with
  | createJournal hid hcodes =>
    cases d with
    | journal => exact .inl ⟨_, _, rfl, rfl, fun id => get?_put _ _ _ _⟩
    | account => exact .inr ⟨hnone rfl, fun _ => rfl⟩
  | updateJournal hid =>
    cases d with
    | journal => exact .inl ⟨_, _, rfl, rfl, fun id => get?_put _ _ _ _⟩
    | account => exact .inr ⟨hnone rfl, fun _ => rfl⟩
  | createAccount hcode hid =>
    cases d with
    | journal => exact .inr ⟨hnone rfl, fun _ => rfl⟩
    | account => exact .inl ⟨_, _, rfl, rfl, fun id => get?_put _ _ _ _⟩
  | updateAccount hid =>
    cases d with
    | journal => exact .inr ⟨hnone rfl, fun _ => rfl⟩
    | account => exact .inl ⟨_, _, rfl, rfl, fun id => get?_put _ _ _ _⟩
  | createTemplate hcode => exact .inr ⟨hnone (by cases d <;> rfl), fun _ => by cases d <;> rfl⟩
  | commit hplan =>
    exact .inr ⟨fun _ => told?_of_mem_postingEvents, fun _ => by cases d <;> rfl⟩

/-- An update is told of by the call that stores it, and by nothing else. -/
theorem StoreState.Stores.eq_call {s s₁ : StoreState} {now : Timestamp} {c : StoreCall}
    {events : List LedgerEvent} (h : s.Stores now c s₁ events) {d : Described} {row : d.Row}
    {fields : List String} (he : d.updated row fields ∈ events) :
    c = d.call row fields ∧ events = [d.updated row fields] := by
  cases h with
  | commit =>
    have hnone := told?_of_mem_postingEvents (d := d) he
    rw [d.told?_updated] at hnone
    cases hnone
  | _ =>
    cases d <;> cases List.mem_singleton.mp he <;> exact ⟨rfl, rfl⟩

/-- The call that stores an updated row stores it and tells of it. -/
theorem StoreState.Stores.of_call {s s₁ : StoreState} {now : Timestamp} {d : Described}
    {row : d.Row} {fields : List String} {events : List LedgerEvent}
    (h : s.Stores now (d.call row fields) s₁ events) :
    d.row? s₁ (d.rowId row) = some row ∧ events = [d.updated row fields] := by
  cases d <;> cases h <;> exact ⟨get?_put_self _ _ _, rfl⟩

/-- What a request stores of an updated row, it has made from the row that it found. -/
theorem Writes.exists_update {stamp : Stamp} {s : StoreState} {o : Ledger.Operation} {c : StoreCall}
    {result : o.Result} (h : Writes stamp s o c result) {d : Described} {row : d.Row}
    {fields : List String} (hc : c = d.call row fields) :
    ∃ id u old, d.row? s id = some old ∧ d.update old u stamp.now = .ok (row, fields) ∧
      fields ≠ [] := by
  cases d with
  | journal =>
    subst hc
    cases h with
    | updateJournal hold hu hfields => exact ⟨_, _, _, hold, hu, hfields⟩
  | account =>
    subst hc
    cases h with
    | updateAccount hold hu hfields => exact ⟨_, _, _, hold, hu, hfields⟩

/-- The tables hold what the outbox told last. -/
def StoreState.HoldsTold (s : StoreState) : Prop :=
  ∀ (d : Described) (id : d.Id), d.row? s id = d.lastTold id s.payloads

theorem StoreState.HoldsTold.empty : StoreState.empty.HoldsTold := by
  intro d id
  cases d <;> rfl

theorem StoreState.Stores.holdsTold {s s₁ : StoreState} {now : Timestamp} {c : StoreCall}
    {events : List LedgerEvent} (h : s.Stores now c s₁ events) (hs : s.HoldsTold)
    {records : List OutboxRecord} (hrecords : records.map OutboxRecord.payload = events) :
    (s₁.withRecords records).HoldsTold := by
  intro d id
  rw [d.row?_withRecords, payloads_withRecords, hrecords, h.payloads_eq]
  rcases h.tells d with ⟨e, row, rfl, htold, hput⟩ | ⟨hnone, hsame⟩
  · rw [hput, Described.lastTold_concat htold, hs]
  · rw [hsame, Described.lastTold_append_of_none hnone, hs]

theorem Chronicle.holdsTold_run {h : Chronicle} (hs : h.state.HoldsTold) (m : Moment)
    (c : StoreCall) : (Chronicle.run m c h).2.state.HoldsTold := by
  rcases Chronicle.run_effect m c h with hsame | ⟨s₁, events, records, hs₁, hrecords, hrun⟩
  · rwa [hsame]
  · rw [hrun]
    exact hs₁.holdsTold hs hrecords

/-- After any calls the tables hold what the outbox told last. -/
theorem holdsTold_chronicleOf (calls : List (Moment × StoreCall)) :
    (chronicleOf calls).state.HoldsTold :=
  chronicleOf_invariant (I := fun h => h.state.HoldsTold) .empty
    (fun m c _ hs => Chronicle.holdsTold_run hs m c) calls

end DoubleEntry
