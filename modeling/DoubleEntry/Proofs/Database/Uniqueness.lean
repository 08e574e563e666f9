import DoubleEntry.Database.Store
import DoubleEntry.Proofs.Database.Exchange
import DoubleEntry.Proofs.Engine.Identities

/-!
# Rows of their own in the database

Each table has its identifiers for a primary key, and a constraint by which codes are unique. A row
that is in the way of either is reported as a violation of that constraint, and the transaction that
was to insert it is rolled back. The error follows the name of the constraint: a code that is taken
is a duplicate, as in memory, but an identifier that is taken counts as a conflict with others at
work, which is worth trying again.

Main statement: `duplicates_refused`, what both stores make of rows that share something with a
stored row, and what stored rows share.
-/

namespace DoubleEntry

namespace RowKind

/-- The table that rows of this kind are inserted into. -/
def table : RowKind → String
  | .journal => "tally_journals"
  | .account => "tally_accounts"
  | .template => "tally_tx_templates"

/-- The constraint by which codes are unique. -/
def codeKey (k : RowKind) : String := k.table ++ "_code_key"

/-- The constraint by which identifiers are unique, under the name that a primary key has if none is
given. -/
def primaryKey (k : RowKind) : String := k.table ++ "_pkey"

def insert : (k : RowKind) → k.Row → Database.Statement
  | .journal, j => .insertJournal j
  | .account, a => .insertAccount a
  | .template, t => .insertTemplate t

/-- The name of the operation that inserts a row. -/
def operation : RowKind → String
  | .journal => "insert_journal"
  | .account => "insert_account"
  | .template => "insert_tx_template"

/-- Next to the rows stored, a new one violates the constraint of this name. -/
inductive Violates (k : RowKind) (s : StoreState) (row : k.Row) : String → Prop
  | code (h : k.SharesCode s row) : Violates k s row k.codeKey
  | id (h : k.SharesId s row) : Violates k s row k.primaryKey

theorem codeKey_ne_primaryKey (k : RowKind) : k.codeKey ≠ k.primaryKey := by
  cases k <;> decide

end RowKind

namespace Database

open Session

/-! ## Violations -/

/-- The database reports a violation of the constraint of this name. -/
def violation (message constraint : String) : SessionFault := .reported "23505" message constraint

theorem violation_codeKey (k : RowKind) (operation message : String) :
    (violation message k.codeKey).toStoreError operation =
      .duplicateCode s!"database error in {operation}: {message}" := by
  have hexternal : k.codeKey ≠ "tally_transactions_external_id_key" := by cases k <;> decide
  have hcode : k.codeKey.endsWith "_code_key" = true := by cases k <;> decide +kernel
  show reportedError _ _ _ = _
  unfold reportedError
  rw [if_pos rfl, if_neg hexternal, if_pos hcode]

theorem violation_primaryKey (k : RowKind) (operation message : String) :
    (violation message k.primaryKey).toStoreError operation =
      .concurrency s!"database error in {operation}: {message}" := by
  have hexternal : k.primaryKey ≠ "tally_transactions_external_id_key" := by cases k <;> decide
  have hcode : k.primaryKey.endsWith "_code_key" = false := by cases k <;> decide +kernel
  show reportedError _ _ _ = _
  unfold reportedError
  rw [if_pos rfl, if_neg hexternal, if_neg (Bool.eq_false_iff.mp hcode)]

section Sessions

variable {m : Moment} {replies : Nat → Except SessionFault Answer} {began : Answer}
  {fault : SessionFault}

/-- Where the database refuses the first statement, the transaction is rolled back at once. -/
theorem follow_insertWith_of_fault {operation : String} {s : Statement} {e : LedgerEvent}
    (hbegan : replies 0 = .ok began) (hfault : replies 1 = .error fault) :
    (insertWith m operation s e).follow replies =
      ([⟨.begin, .ok began⟩, ⟨.statement s, .error fault⟩, ⟨.rollback, replies 2⟩],
        .error (.error (fault.toStoreError operation))) := by
  have hbody : (execute operation s >>= fun _ => appendOutbox m [e]).andThen close =
      .send (.statement s) fun answer =>
        ((Session.done (Failure.lift (SessionFault.toStoreError operation) answer)).bind
          fun _ => appendOutbox m [e]).andThen close := rfl
  unfold insertWith inTransaction
  simp only [follow, hbegan, hbody, Nat.zero_add, hfault]
  rfl

/-- A row that the database refuses is not stored. -/
theorem follow_create_of_fault (k : RowKind) (row : k.Row) (hbegan : replies 0 = .ok began)
    (hfault : replies 1 = .error fault) :
    (session m (k.create row)).follow replies =
      ([⟨.begin, .ok began⟩, ⟨.statement (k.insert row), .error fault⟩, ⟨.rollback, replies 2⟩],
        .error (.error (fault.toStoreError k.operation))) := by
  cases k <;> exact follow_insertWith_of_fault hbegan hfault

end Sessions

/-- A code that is taken is a duplicate, and an identifier that is taken worth trying again. -/
theorem error_of_violates {k : RowKind} {s : StoreState} {row : k.Row} {constraint : String}
    (h : k.Violates s row constraint) (operation message : String) :
    let e := (violation message constraint).toStoreError operation
    ((∃ what, e = .duplicateCode what) ↔ constraint = k.codeKey) ∧
      ((EngineError.ofStore e).isRetryable = true ↔ constraint = k.primaryKey) := by
  intro e
  cases h with
  | code _ =>
    rw [show e = _ from violation_codeKey k operation message]
    exact ⟨iff_of_true ⟨_, rfl⟩ rfl, iff_of_false Bool.false_ne_true k.codeKey_ne_primaryKey⟩
  | id _ =>
    rw [show e = _ from violation_primaryKey k operation message]
    exact ⟨iff_of_false nofun k.codeKey_ne_primaryKey.symm, iff_of_true rfl rfl⟩

/-! ## Both stores -/

/-- What becomes of rows that share something with a stored one, whatever operations have been at
work. In memory a row is refused, for good and as a duplicate, exactly if its code is taken, or its
identifier and it is no template. The database refuses what violates a constraint, and stores
nothing of it; it reports a duplicate if that is the constraint of codes, and a conflict worth
trying again if it is the primary key. Stored rows share no codes, and only templates share
identifiers. -/
theorem duplicates_refused (asked : List (Ledger.Operation × Stamp)) (turns : List Turn)
    (m : Moment) (k : RowKind) (row : k.Row) :
    let s := (interleave asked turns).chronicle.state
    let r := StoreState.run m (k.create row) s
    ((∃ e, r.1 = .error (.error e)) ↔
      k.SharesCode s row ∨ (k ≠ .template ∧ k.SharesId s row)) ∧
    (∀ e, r.1 = .error (.error e) → (∃ what, e = .duplicateCode what) ∧
      (EngineError.ofStore e).isRetryable = false ∧ r.2 = s) ∧
    (∀ constraint, k.Violates s row constraint → ∀ replies began message,
      replies 0 = .ok began → replies 1 = .error (violation message constraint) →
      ∃ e, (session m (k.create row)).follow replies =
          ([⟨.begin, .ok began⟩, ⟨.statement (k.insert row), replies 1⟩, ⟨.rollback, replies 2⟩],
            .error (.error e)) ∧
        ((∃ what, e = .duplicateCode what) ↔ constraint = k.codeKey) ∧
        ((EngineError.ofStore e).isRetryable = true ↔ constraint = k.primaryKey)) ∧
    ∀ key key' stored stored', k.row? s key = some stored → k.row? s key' = some stored' →
      (∃ c, k.code? stored = some c ∧ k.code? stored' = some c) ∨
        (k ≠ .template ∧ k.uuid stored = k.uuid stored') → key = key' := by
  intro s r
  have hs : s.Named := named_interleave asked turns
  have hanswer := RowKind.duplicatesIff_answer hs m k row
  refine ⟨?_, fun e he => ?_, ?_, ?_⟩
  · rw [← hanswer.refused]
    exact exists_congr fun e => StoreState.run_fst_eq_error
  · have herror := StoreState.run_fst_eq_error.mp he
    obtain ⟨what, rfl⟩ := hanswer.duplicate e herror
    exact ⟨⟨what, rfl⟩, rfl, StoreState.run_snd_of_error herror⟩
  · intro constraint hviolates replies began message hbegan hfault
    exact ⟨_, hfault ▸ follow_create_of_fault k row hbegan hfault,
      error_of_violates hviolates k.operation message⟩
  · exact fun key key' stored stored' => RowKind.key_unique hs

namespace Sample

open DoubleEntry.Sample Ledger

/-- Two templates with one identifier, and a journal. -/
def namesakes : List (Operation × Stamp) :=
  askedBy [request 10 (.createTemplate transferTemplate),
    request 20 (.createTemplate { transferTemplate with code := "REFUND" }),
    request 30 (.createJournal ⟨⟨uuid 1⟩, "General", none, none⟩)]

def shared : StoreState := (interleave namesakes (turnsOf [0, 1, 2])).chronicle.state

/-- A database that finds the identifier of a journal taken. -/
def takenJournal (i : Nat) : Except SessionFault Answer :=
  if i = 1 then .error (violation "taken" RowKind.journal.primaryKey) else .ok ⟨[], 1⟩

end Sample

/-- A template is created under the identifier of another one, and both are stored. And a database
that is asked to insert a journal whose identifier is taken reports what the store takes for a
conflict worth trying again. -/
theorem identities_shared :
    (∃ stored stored', RowKind.template.row? Sample.shared "TRANSFER" = some stored ∧
      RowKind.template.row? Sample.shared "REFUND" = some stored' ∧
      RowKind.template.uuid stored = RowKind.template.uuid stored') ∧
    RowKind.journal.SharesId Sample.shared (Sample.journal 1) ∧
    ∃ e, ((session (Sample.moment 40) (.createJournal (Sample.journal 1))).follow
        Sample.takenJournal).2 = .error (.error e) ∧
      (∀ what, e ≠ .duplicateCode what) ∧ (EngineError.ofStore e).isRetryable = true := by
  have hids : ∀ code, code = "TRANSFER" ∨ code = "REFUND" →
      (Sample.shared.templates.get? code).map TxTemplate.id = some ⟨Sample.uuid 9⟩ := by
    rintro code (rfl | rfl) <;> decide +kernel
  obtain ⟨stored, hstored, hid⟩ := Option.map_eq_some_iff.mp (hids _ (.inl rfl))
  obtain ⟨stored', hstored', hid'⟩ := Option.map_eq_some_iff.mp (hids _ (.inr rfl))
  have hjournal : (Sample.shared.journals.get? ⟨Sample.uuid 1⟩).map Journal.id =
      some ⟨Sample.uuid 1⟩ := by decide +kernel
  obtain ⟨other, hother, hotherId⟩ := Option.map_eq_some_iff.mp hjournal
  have hfollow : (session (Sample.moment 40) (.createJournal (Sample.journal 1))).follow
      Sample.takenJournal = (_, .error (.error
        ((violation "taken" RowKind.journal.primaryKey).toStoreError "insert_journal"))) :=
    follow_create_of_fault .journal (Sample.journal 1) rfl rfl
  rw [violation_primaryKey] at hfollow
  refine ⟨⟨stored, stored', hstored, hstored', congrArg Id.uuid (hid.trans hid'.symm)⟩,
    ⟨⟨Sample.uuid 1⟩, other, hother, congrArg Id.uuid hotherId⟩, ?_⟩
  exact ⟨_, congrArg Prod.snd hfollow, nofun, rfl⟩

end Database

end DoubleEntry
