import DoubleEntry.Proofs.Engine.Described
import DoubleEntry.Proofs.Engine.Rows

/-!
# Rows amended in place

`update` hands back a new row or fails, so it could not leave a row half changed if it wanted to.
Whoever holds the row assigns to it field by field, and a failure comes in the middle of that:
`amend` is the update in this form, where what is assigned stays assigned, however it ends. The two
come to the same (`run_amend`), and the reason is the order: what can fail is the first thing done.

Main statement: `updates_reported`.
-/

namespace DoubleEntry

/-! ## Assigning to a field -/

/-- A change of a row in place: what it has assigned stays assigned, however it ends. -/
abbrev Amendment (ρ : Type) := EStateM ValueError ρ

/-- A field of a row that is assigned to. Assigning what is there changes nothing. -/
structure Cell (ρ α : Type) where
  label : String
  read : ρ → α
  write : α → ρ → ρ
  write_read : ∀ row, write (read row) row = row

namespace Cell

variable {ρ α : Type}

/-- Assign to a field that is not as asked; the labels of what was assigned. -/
def assign (f : Cell ρ α) (asIs : α → Bool) (new : α) : Amendment ρ (List String) := do
  if asIs (f.read (← get)) then pure []
  else
    modify (f.write new)
    pure [f.label]

/-- Assign a name, with blanks around it removed; a blank one is refused. -/
def rename (f : Cell ρ String) (noun : String) : Option String → Amendment ρ (List String)
  | none => pure []
  | some text => do
    let name := Text.trim text
    if name.isEmpty then throw (.validation s!"{noun} name cannot be empty")
    f.assign (fun old => name = old) name

def describe (f : Cell ρ (Option String)) : Option String → Amendment ρ (List String)
  | none => pure []
  | some text => f.assign (fun old => old = some text) (some text)

def annotate (f : Cell ρ Metadata) : Option Metadata → Amendment ρ (List String)
  | none => pure []
  | some m => f.assign (fun old => m.same old) m

/-- Set a time where there are labels, and hand the labels on. -/
def stamp (f : Cell ρ Timestamp) (now : Timestamp) (labels : List String) :
    Amendment ρ (List String) := do
  if !labels.isEmpty then modify (f.write now)
  pure labels

end Cell

namespace Journal

def nameCell : Cell Journal String := ⟨"name", name, fun a j => { j with name := a }, fun _ => rfl⟩

def descriptionCell : Cell Journal (Option String) :=
  ⟨"description", description, fun a j => { j with description := a }, fun _ => rfl⟩

def modifiedCell : Cell Journal Timestamp :=
  ⟨"modified_at", modifiedAt, fun a j => { j with modifiedAt := a }, fun _ => rfl⟩

/-- Update a journal in place. -/
def amend (u : JournalUpdate) (now : Timestamp) : Amendment Journal (List String) := do
  let names ← nameCell.rename "journal" u.name
  let descriptions ← descriptionCell.describe u.description
  modifiedCell.stamp now (names ++ descriptions)

end Journal

namespace Account

def nameCell : Cell Account String := ⟨"name", name, fun v a => { a with name := v }, fun _ => rfl⟩

def descriptionCell : Cell Account (Option String) :=
  ⟨"description", description, fun v a => { a with description := v }, fun _ => rfl⟩

def metadataCell : Cell Account Metadata :=
  ⟨"metadata", metadata, fun v a => { a with metadata := v }, fun _ => rfl⟩

def modifiedCell : Cell Account Timestamp :=
  ⟨"modified_at", modifiedAt, fun v a => { a with modifiedAt := v }, fun _ => rfl⟩

/-- Update an account in place. -/
def amend (u : AccountUpdate) (now : Timestamp) : Amendment Account (List String) := do
  let names ← nameCell.rename "account" u.name
  let descriptions ← descriptionCell.describe u.description
  let metadatas ← metadataCell.annotate u.metadata
  modifiedCell.stamp now (names ++ descriptions ++ metadatas)

end Account

/-! ## What an assignment leaves -/

namespace Cell

variable {ρ α : Type}

theorem run_assign {f : Cell ρ α} (asIs : α → Bool) (new : α) (row : ρ) :
    (f.assign asIs new).run row =
      if asIs (f.read row) then .ok [] (f.write (f.read row) row)
      else .ok [f.label] (f.write new row) := by
  unfold assign
  rw [EStateM.run_bind, EStateM.run_get]
  dsimp only
  split
  · rw [f.write_read]
    rfl
  · rfl

theorem run_rename {f : Cell ρ String} (hlabel : f.label = "name") (noun : String)
    (new : Option String) (row : ρ) :
    (f.rename noun new).run row =
      match replaceName noun (f.read row) new with
      | .ok (name, labels) => .ok labels (f.write name row)
      | .error e => .error e row := by
  cases new with
  | none => exact congrArg (EStateM.Result.ok []) (f.write_read row).symm
  | some text =>
    unfold rename replaceName
    dsimp only
    by_cases hblank : (Text.trim text).isEmpty = true
    · rw [if_pos hblank, if_pos hblank]
      rfl
    · rw [if_neg hblank, if_neg hblank]
      show (f.assign _ _).run row = _
      rw [run_assign, hlabel]
      unfold replaceText
      by_cases hsame : Text.trim text = f.read row <;> simp [hsame]

theorem run_describe {f : Cell ρ (Option String)} (new : Option String) (row : ρ) :
    (f.describe new).run row =
      .ok (replaceOptional f.label (f.read row) new).2
        (f.write (replaceOptional f.label (f.read row) new).1 row) := by
  cases new with
  | none => exact congrArg (EStateM.Result.ok []) (f.write_read row).symm
  | some text =>
    unfold describe replaceOptional
    dsimp only
    rw [run_assign]
    by_cases hsame : f.read row = some text <;> simp [hsame]

theorem run_annotate {f : Cell ρ Metadata} (hlabel : f.label = "metadata")
    (new : Option Metadata) (row : ρ) :
    (f.annotate new).run row =
      .ok (replaceMetadata (f.read row) new).2
        (f.write (replaceMetadata (f.read row) new).1 row) := by
  cases new with
  | none => exact congrArg (EStateM.Result.ok []) (f.write_read row).symm
  | some m =>
    unfold annotate replaceMetadata
    dsimp only
    rw [run_assign, hlabel]
    by_cases hsame : m.same (f.read row) = true <;> simp [hsame]

theorem run_stamp {f : Cell ρ Timestamp} (now : Timestamp) (labels : List String)
    (row : ρ) :
    (f.stamp now labels).run row =
      .ok labels (f.write (if labels.isEmpty then f.read row else now) row) := by
  unfold stamp
  cases labels with
  | nil => exact congrArg (EStateM.Result.ok []) (f.write_read row).symm
  | cons l labels => rfl

end Cell

theorem Journal.eq_of_fixed {j k : Journal} (hfixed : j.fixed = k.fixed) (hname : j.name = k.name)
    (hdescription : j.description = k.description) (hmodified : j.modifiedAt = k.modifiedAt) :
    j = k := by
  cases j
  cases k
  simp_all [Journal.fixed]

theorem Account.eq_of_fixed {a b : Account} (hfixed : a.fixed = b.fixed) (hname : a.name = b.name)
    (hdescription : a.description = b.description) (hmetadata : a.metadata = b.metadata)
    (hmodified : a.modifiedAt = b.modifiedAt) : a = b := by
  cases a
  cases b
  simp_all [Account.fixed]

theorem replaceName_succeeds_iff (noun old : String) (new : Option String) :
    (∃ p, replaceName noun old new = .ok p) ↔ ¬ ∃ text, new = some text ∧ Text.trim text = "" := by
  unfold replaceName
  cases new with
  | none => simp
  | some text => by_cases hblank : Text.trim text = "" <;> simp [hblank]

/-- A result as the holder of the row sees it, who keeps the row where there is no new one. -/
def inPlace {ρ : Type} (row : ρ) :
    Except ValueError (ρ × List String) → EStateM.Result ValueError ρ (List String)
  | .ok (after, labels) => .ok labels after
  | .error e => .error e row

theorem Journal.run_amend (u : JournalUpdate) (now : Timestamp) (j : Journal) :
    (amend u now).run j = inPlace j (j.update u now) := by
  unfold amend update
  rw [EStateM.run_bind, Cell.run_rename rfl,
    show nameCell.read j = j.name from rfl]
  cases replaceName "journal" j.name u.name with
  | error e => rfl
  | ok p =>
    obtain ⟨name, names⟩ := p
    dsimp only
    rw [EStateM.run_bind, Cell.run_describe]
    dsimp only
    rw [Cell.run_stamp]
    rfl

theorem Account.run_amend (u : AccountUpdate) (now : Timestamp) (a : Account) :
    (amend u now).run a = inPlace a (a.update u now) := by
  unfold amend update
  rw [EStateM.run_bind, Cell.run_rename rfl,
    show nameCell.read a = a.name from rfl]
  cases replaceName "account" a.name u.name with
  | error e => rfl
  | ok p =>
    obtain ⟨name, names⟩ := p
    dsimp only
    rw [EStateM.run_bind, Cell.run_describe]
    dsimp only
    rw [EStateM.run_bind, Cell.run_annotate rfl]
    dsimp only
    rw [Cell.run_stamp]
    rfl

/-! ## What an update reports -/

namespace Described

def amend : (d : Described) → d.Update → Timestamp → Amendment d.Row (List String)
  | .journal, u, now => Journal.amend u now
  | .account, u, now => Account.amend u now

/-- The labels of the fields that may change, in the order they are looked at. -/
def labels : Described → List String
  | .journal => ["name", "description"]
  | .account => ["name", "description", "metadata"]

def modifiedAt : (d : Described) → d.Row → Timestamp
  | .journal, j => Journal.modifiedAt j
  | .account, a => Account.modifiedAt a

def Fixed : Described → Type
  | .journal => JournalId × Option String × Timestamp
  | .account => AccountId × String × Side × Timestamp

/-- What no update changes: the identifier, the code, the side of an account and the time of
creation. -/
def fixed : (d : Described) → d.Row → d.Fixed
  | .journal, j => Journal.fixed j
  | .account, a => Account.fixed a

/-- The update asks for a name of blanks. -/
def Unnames : (d : Described) → d.Update → Prop
  | .journal, u => ∃ text, JournalUpdate.name u = some text ∧ Text.trim text = ""
  | .account, u => ∃ text, AccountUpdate.name u = some text ∧ Text.trim text = ""

variable {d : Described} {old row : d.Row} {u : d.Update} {now : Timestamp} {fields : List String}

theorem run_amend (d : Described) (u : d.Update) (now : Timestamp) (row : d.Row) :
    (d.amend u now).run row = inPlace row (d.update row u now) := by
  cases d with
  | journal => exact Journal.run_amend u now row
  | account => exact Account.run_amend u now row

theorem fixed_update (h : d.update old u now = .ok (row, fields)) : d.fixed row = d.fixed old := by
  cases d with
  | journal => exact Journal.fixed_of_update h
  | account => exact Account.fixed_of_update h

/-- The fields reported come in the order they are looked at, each once. -/
theorem fields_sublist (h : d.update old u now = .ok (row, fields)) : fields.Sublist d.labels := by
  cases d with
  | journal =>
    obtain ⟨_, _, rfl, hname, hdescription, -⟩ := Journal.update_eq_ok h
    exact hname.sublist.append hdescription.sublist
  | account =>
    obtain ⟨_, _, _, rfl, hname, hdescription, hmetadata, -⟩ := Account.update_eq_ok h
    exact (hname.sublist.append hdescription.sublist).append hmetadata.sublist

theorem modifiedAt_update (h : d.update old u now = .ok (row, fields)) :
    d.modifiedAt row = if fields = [] then d.modifiedAt old else now := by
  cases d with
  | journal =>
    obtain ⟨_, _, -, -, -, hj⟩ := Journal.update_eq_ok h
    have hmodified := congrArg Journal.modifiedAt hj
    simp only [List.isEmpty_iff] at hmodified
    exact hmodified
  | account =>
    obtain ⟨_, _, _, -, -, -, -, ha⟩ := Account.update_eq_ok h
    have hmodified := congrArg Account.modifiedAt ha
    simp only [List.isEmpty_iff] at hmodified
    exact hmodified

/-- A row is what is fixed of it, the fields that may change and the time of its last change. -/
theorem row_ext (hfixed : d.fixed row = d.fixed old)
    (hmodified : d.modifiedAt row = d.modifiedAt old) (hsame : ∀ f, ¬ d.DiffersIn old row f) :
    row = old := by
  cases d with
  | journal =>
    have hname := not_not.mp fun hne => hsame "name" (.inl ⟨rfl, hne⟩)
    have hdescription := not_not.mp fun hne => hsame "description" (.inr ⟨rfl, hne⟩)
    exact Journal.eq_of_fixed hfixed hname hdescription hmodified
  | account =>
    have hname := not_not.mp fun hne => hsame "name" (.inl ⟨rfl, hne⟩)
    have hdescription := not_not.mp fun hne => hsame "description" (.inr (.inl ⟨rfl, hne⟩))
    have hmetadata := not_not.mp fun hne => hsame "metadata" (.inr (.inr ⟨rfl, hne⟩))
    exact Account.eq_of_fixed hfixed hname hdescription hmetadata hmodified

/-- Where no field is reported, the row is as it was. -/
theorem eq_of_update_nil (h : d.update old u now = .ok (row, [])) : row = old :=
  row_ext (fixed_update h) (modifiedAt_update h) fun _ hf => by cases (mem_fields_iff h).mpr hf

/-- An update is refused for a blank name only. -/
theorem update_succeeds_iff (d : Described) (old : d.Row) (u : d.Update) (now : Timestamp) :
    (∃ p, d.update old u now = .ok p) ↔ ¬ d.Unnames u := by
  cases d with
  | journal =>
    rw [Unnames, ← replaceName_succeeds_iff "journal" (Journal.name old)]
    exact ⟨fun ⟨_, h⟩ => (bind_eq_ok.mp h).imp fun _ => And.left,
      fun ⟨_, h⟩ => ⟨_, bind_eq_ok.mpr ⟨_, h, rfl⟩⟩⟩
  | account =>
    rw [Unnames, ← replaceName_succeeds_iff "account" (Account.name old)]
    exact ⟨fun ⟨_, h⟩ => (bind_eq_ok.mp h).imp fun _ => And.left,
      fun ⟨_, h⟩ => ⟨_, bind_eq_ok.mpr ⟨_, h, rfl⟩⟩⟩

/-- An update of what it has made succeeds and reports nothing. -/
theorem update_again (h : d.update old u now = .ok (row, fields)) (later : Timestamp) :
    d.update row u later = .ok (row, []) := by
  have hname := (d.update_succeeds_iff old u now).mp ⟨_, h⟩
  obtain ⟨⟨row', fields'⟩, hagain⟩ := (d.update_succeeds_iff row u later).mpr hname
  have hnil := (fields_eq_nil_iff hagain).mpr (idle_update h)
  rw [hnil] at hagain
  rwa [eq_of_update_nil hagain] at hagain

end Described

/-- Updating a row in place comes to what `update` makes of it, whatever row and update. Where it
succeeds, the labels reported are in order and each there once, and they are of the fields in which
the row differs from before; with labels the row has the time of the update, without any it is the
same row; what is fixed stays; and the same update again, at whatever time, reports nothing and
leaves the row. Where it fails, it was asked for a blank name, and the row is as before. -/
theorem updates_reported (d : Described) (row : d.Row) (u : d.Update) (now : Timestamp) :
    match (d.amend u now).run row with
    | .ok fields after =>
      d.update row u now = .ok (after, fields) ∧
        fields.Sublist d.labels ∧ (∀ f, f ∈ fields ↔ d.DiffersIn row after f) ∧
        (fields ≠ [] → d.modifiedAt after = now) ∧ (fields = [] → after = row) ∧
        d.fixed after = d.fixed row ∧
        ∀ later, (d.amend u later).run after = .ok [] after
    | .error e after => d.update row u now = .error e ∧ d.Unnames u ∧ after = row := by
  rw [d.run_amend]
  cases h : d.update row u now with
  | error e =>
    refine ⟨rfl, by_contra fun hname => ?_, rfl⟩
    obtain ⟨p, hp⟩ := (d.update_succeeds_iff row u now).mpr hname
    cases h.symm.trans hp
  | ok p =>
    obtain ⟨after, fields⟩ := p
    refine ⟨rfl, Described.fields_sublist h, fun f => Described.mem_fields_iff h, fun hne => ?_,
      fun hnil => ?_, Described.fixed_update h, fun later => ?_⟩
    · rw [Described.modifiedAt_update h, if_neg hne]
    · rw [hnil] at h
      exact Described.eq_of_update_nil h
    · rw [d.run_amend, Described.update_again h]
      rfl

end DoubleEntry
