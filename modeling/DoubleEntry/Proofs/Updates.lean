import DoubleEntry.Account
import DoubleEntry.Proofs.Results

/-!
# Updates of journals and accounts

An update gives values for some fields and leaves the others. What becomes of a field is the same
for all of them (`Replaced`): it keeps its value if that is as asked, and else takes the new one and
is named among the changed fields.
-/

namespace DoubleEntry

/-! ## Values are the same as themselves -/

namespace Json

theorem same_number (n : JsonNumber) : n.same n = true := by
  cases n <;> simp [JsonNumber.same, Binary64.same]

mutual

theorem same_self : ∀ j : Json, j.same j = true
  | .null => rfl
  | .bool b => beq_self_eq_true b
  | .number n => same_number n
  | .string s => beq_self_eq_true s
  | .array items => sameItems_self items
  | .object members => sameMembers_self members

theorem sameItems_self : ∀ items : List Json, sameItems items items = true
  | [] => rfl
  | x :: xs => by simp [sameItems, same_self x, sameItems_self xs]

theorem sameMembers_self : ∀ members : List (String × Json), sameMembers members members = true
  | [] => rfl
  | (k, x) :: rest => by simp [sameMembers, same_self x, sameMembers_self rest]

end

end Json

/-! ## One field -/

/-- A field that held `old` holds this after an update that may ask for a value, and these are the
names of changed fields. `Holds b a` says that `a` is as the value `b` asks. -/
inductive Replaced {α β : Type} (Holds : β → α → Prop) (field : String) (old : α)
    (asked : Option β) : α → List String → Prop
  | kept (h : ∀ b, asked = some b → Holds b old) : Replaced Holds field old asked old []
  | changed {b : β} {new : α} (hb : asked = some b) (hnew : Holds b new) (hne : new ≠ old)
    (hold : ¬ Holds b old) : Replaced Holds field old asked new [field]

section Replaced

variable {noun field old name : String} {new : Option String} {fields : List String}

theorem replaced_name (h : replaceName noun old new = .ok (name, fields)) :
    Replaced (fun text a => Text.trim text = a) "name" old new name fields := by
  unfold replaceName at h
  cases new with
  | none =>
    cases h
    exact .kept nofun
  | some text =>
    dsimp only at h
    split at h
    · cases h
    · unfold replaceText at h
      split at h
      · next heq =>
        cases h
        exact .kept fun _ hb => Option.some.inj hb ▸ heq
      · next hne =>
        cases h
        exact .changed rfl rfl hne hne

theorem replaced_optional (field : String) (old new : Option String) :
    Replaced (fun text a => a = some text) field old new (replaceOptional field old new).1
      (replaceOptional field old new).2 := by
  unfold replaceOptional
  cases new with
  | none => exact .kept nofun
  | some text =>
    dsimp only
    split
    · next heq => exact .kept fun _ hb => Option.some.inj hb ▸ heq
    · next hne => exact .changed rfl rfl (Ne.symm hne) hne

theorem replaced_metadata (old : Metadata) (new : Option Metadata) :
    Replaced (fun m a => m.same a = true) "metadata" old new
      (replaceMetadata old new).1 (replaceMetadata old new).2 := by
  unfold replaceMetadata
  cases new with
  | none => exact .kept nofun
  | some m =>
    dsimp only
    split
    · next hsame => exact .kept fun _ hb => Option.some.inj hb ▸ hsame
    · next hdiffer =>
      refine .changed rfl (Json.sameMembers_self m.rows) (fun heq => ?_) hdiffer
      exact hdiffer (heq ▸ Json.sameMembers_self m.rows)

end Replaced

namespace Replaced

variable {α β : Type} {Holds : β → α → Prop} {field : String} {old new : α} {asked : Option β}
  {fields : List String}

theorem mem_iff (h : Replaced Holds field old asked new fields) {f : String} :
    f ∈ fields ↔ f = field ∧ new ≠ old := by
  cases h with
  | kept => simp
  | changed _ _ hne _ => simp [hne]

theorem sublist (h : Replaced Holds field old asked new fields) : fields.Sublist [field] := by
  cases h with
  | kept => exact List.nil_sublist _
  | changed => exact List.Sublist.refl _

theorem holds (h : Replaced Holds field old asked new fields) {b : β} (hb : asked = some b) :
    Holds b new := by
  cases h with
  | kept h => exact h b hb
  | changed hb' hnew _ _ =>
    cases hb.symm.trans hb'
    exact hnew

theorem eq_nil_iff (h : Replaced Holds field old asked new fields) :
    fields = [] ↔ ∀ b, asked = some b → Holds b old := by
  cases h with
  | kept h => exact ⟨fun _ => h, fun _ => rfl⟩
  | changed hb _ _ hold => exact ⟨nofun, fun h => absurd (h _ hb) hold⟩

/-- Where nothing is asked for, nothing changes. -/
theorem eq_of_none (h : Replaced Holds field old asked new fields) (hasked : asked = none) :
    new = old := by
  cases h with
  | kept => rfl
  | changed hb => cases hasked.symm.trans hb

end Replaced

/-! ## Journals and accounts -/

/-- The update sets the fields of a journal to what they are. -/
structure JournalUpdate.Idle (u : JournalUpdate) (j : Journal) : Prop where
  name : ∀ name, u.name = some name → Text.trim name = j.name
  description : ∀ text, u.description = some text → j.description = some text

/-- The update sets the fields of an account to what they are. -/
structure AccountUpdate.Idle (u : AccountUpdate) (a : Account) : Prop where
  name : ∀ name, u.name = some name → Text.trim name = a.name
  description : ∀ text, u.description = some text → a.description = some text
  metadata : ∀ m, u.metadata = some m → m.same a.metadata = true

theorem Journal.update_eq_ok {old j : Journal} {u : JournalUpdate} {now : Timestamp}
    {fields : List String} (h : old.update u now = .ok (j, fields)) :
    ∃ names descriptions, fields = names ++ descriptions ∧
      Replaced (fun text a => Text.trim text = a) "name" old.name u.name j.name names ∧
      Replaced (fun text a => a = some text) "description" old.description u.description
        j.description descriptions ∧
      j = { old with
        name := j.name
        description := j.description
        modifiedAt := if fields.isEmpty then old.modifiedAt else now } := by
  obtain ⟨⟨name, names⟩, hname, h⟩ := bind_eq_ok.mp h
  cases h
  exact ⟨names, _, rfl, replaced_name hname, replaced_optional _ _ _, rfl⟩

theorem Account.update_eq_ok {old a : Account} {u : AccountUpdate} {now : Timestamp}
    {fields : List String} (h : old.update u now = .ok (a, fields)) :
    ∃ names descriptions metadatas, fields = names ++ descriptions ++ metadatas ∧
      Replaced (fun text a => Text.trim text = a) "name" old.name u.name a.name names ∧
      Replaced (fun text a => a = some text) "description" old.description u.description
        a.description descriptions ∧
      Replaced (fun m a => m.same a = true) "metadata" old.metadata u.metadata
        a.metadata metadatas ∧
      a = { old with
        name := a.name
        description := a.description
        metadata := a.metadata
        modifiedAt := if fields.isEmpty then old.modifiedAt else now } := by
  obtain ⟨⟨name, names⟩, hname, h⟩ := bind_eq_ok.mp h
  cases h
  exact ⟨names, _, _, rfl, replaced_name hname, replaced_optional _ _ _, replaced_metadata _ _, rfl⟩

/-- An update of a journal reports no fields exactly if the journal is as it asks already. -/
theorem Journal.fields_eq_nil_iff {old j : Journal} {u : JournalUpdate} {now : Timestamp}
    {fields : List String} (h : old.update u now = .ok (j, fields)) : fields = [] ↔ u.Idle old := by
  obtain ⟨_, _, rfl, hname, hdescription, -⟩ := update_eq_ok h
  rw [List.append_eq_nil_iff, hname.eq_nil_iff, hdescription.eq_nil_iff]
  exact ⟨fun ⟨hn, hd⟩ => ⟨hn, hd⟩, fun hidle => ⟨hidle.name, hidle.description⟩⟩

/-- An update of an account reports no fields exactly if the account is as it asks already. -/
theorem Account.fields_eq_nil_iff {old a : Account} {u : AccountUpdate} {now : Timestamp}
    {fields : List String} (h : old.update u now = .ok (a, fields)) : fields = [] ↔ u.Idle old := by
  obtain ⟨_, _, _, rfl, hname, hdescription, hmetadata, -⟩ := update_eq_ok h
  rw [List.append_eq_nil_iff, List.append_eq_nil_iff, hname.eq_nil_iff, hdescription.eq_nil_iff,
    hmetadata.eq_nil_iff]
  exact ⟨fun ⟨⟨hn, hd⟩, hm⟩ => ⟨hn, hd, hm⟩,
    fun hidle => ⟨⟨hidle.name, hidle.description⟩, hidle.metadata⟩⟩

end DoubleEntry
