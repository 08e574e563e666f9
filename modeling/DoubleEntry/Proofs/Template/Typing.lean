import DoubleEntry.Posting.Resolve
import DoubleEntry.Proofs.Param.Binding
import DoubleEntry.Template.Create

/-!
# Types of template expressions

Slots are checked twice. `checkSlot` compares the static type of an expression with the type of its
slot, when a template is made; `Expr.valueIn` evaluates the expression and reads the value, when the
template posts. For bound parameters that match the declarations the two agree:

* an expression has a static type if and only if it has a value, and then it is the type of the
  value (`staticType_iff`);
* so a slot passes the check if and only if it can be read (`checkSlot_iff`), and the same goes for
  the header as a whole (`checkHeader_iff`) and for the slots of an entry (`checkEntry_iff`).

Both types and readings are in the `Slot`. What is asked of one is that it reads whatever its
type takes (`Slot.ReadsAll`), which each of the five kinds of slots does.
-/

namespace DoubleEntry

/-! ## Slots -/

/-- Every value of a type that the slot takes is read, whole numbers after they have widened. -/
def Slot.ReadsAll {α : Type} (slot : Slot α) : Prop :=
  ∀ v : ParamValue, v.dataType.assignableTo slot.expected = true →
    ∃ a, slot.value? (v.widenTo slot.expected) = some a

namespace Slot

theorem readsAll_uuid (name : String) : (uuid name).ReadsAll := by
  intro v hv
  cases v with
  | uuid u => exact ⟨u, rfl⟩
  | _ => exact absurd hv Bool.false_ne_true

theorem readsAll_date (name : String) : (date name).ReadsAll := by
  intro v hv
  cases v with
  | date d => exact ⟨d, rfl⟩
  | _ => exact absurd hv Bool.false_ne_true

theorem readsAll_string (name : String) : (string name).ReadsAll := by
  intro v hv
  cases v with
  | string s => exact ⟨s, rfl⟩
  | _ => exact absurd hv Bool.false_ne_true

theorem readsAll_decimal (name : String) : (decimal name).ReadsAll := by
  intro v hv
  cases v with
  | decimal d => exact ⟨d, rfl⟩
  | integer i => exact ⟨Decimal.ofInt64 i, rfl⟩
  | _ => exact absurd hv Bool.false_ne_true

theorem readsAll_json (name : String) : (json name).ReadsAll := by
  intro v hv
  cases v with
  | json j => exact ⟨j, rfl⟩
  | _ => exact absurd hv Bool.false_ne_true

end Slot

/-! ## Expressions -/

section Evaluation

variable {α : Type} {params : List ParamDefinition} {bound : Params}

theorem staticType_iff (hbound : bound.Matches params) (e : Expr) (slotName : String)
    (t : DataType) :
    e.staticType params slotName = .ok t ↔ ∃ v, e.resolve bound = .ok v ∧ v.dataType = t := by
  cases e with
  | literal v =>
    constructor
    · intro h
      cases h
      exact ⟨v, rfl, rfl⟩
    · rintro ⟨w, hw, rfl⟩
      cases hw
      rfl
  | param name =>
    unfold Expr.staticType Expr.resolve
    dsimp only
    cases hfind : params.find? fun d => d.name == name with
    | some d =>
      have hname : d.name = name := by simpa using List.find?_some hfind
      obtain ⟨v, hv, htype⟩ := hbound.declared d (List.mem_of_find?_eq_some hfind)
      rw [hname] at hv
      rw [hv]
      constructor
      · intro h
        cases h
        exact ⟨v, rfl, htype⟩
      · rintro ⟨w, hw, rfl⟩
        cases hw
        rw [htype]
    | none =>
      constructor
      · intro h
        cases h
      · rintro ⟨v, hv, -⟩
        split at hv
        · next w hw =>
          obtain ⟨d, hd, hname⟩ := hbound.undeclared name w hw
          exact absurd (List.find?_eq_none.mp hfind d hd) (by simp [hname])
        · cases hv

/-- Evaluation in a slot that reads all that it takes fails only before the value is read. -/
theorem valueIn_eq_ok {slot : Slot α} (hslot : slot.ReadsAll) (e : Expr) :
    (∃ a, e.valueIn slot bound = .ok a) ↔
      ∃ v, e.resolve bound = .ok v ∧ v.dataType.assignableTo slot.expected = true := by
  unfold Expr.valueIn Expr.evaluate
  constructor
  · rintro ⟨a, h⟩
    obtain ⟨w, hw, -⟩ := bind_eq_ok.mp h
    obtain ⟨v, hv, hw⟩ := bind_eq_ok.mp hw
    refine ⟨v, hv, ?_⟩
    split at hw
    · next hfits => exact hfits
    · cases hw
  · rintro ⟨v, hv, hfits⟩
    obtain ⟨a, ha⟩ := hslot v hfits
    refine ⟨a, bind_eq_ok.mpr ⟨v.widenTo slot.expected, bind_eq_ok.mpr ⟨v, hv, ?_⟩, ?_⟩⟩
    · rw [if_pos hfits]
      rfl
    · rw [ha]
      rfl

theorem checkSlot_eq_ok {slot : Slot α} {e : Expr} :
    checkSlot params e slot = .ok () ↔
      ∃ t, e.staticType params slot.name = .ok t ∧ t.assignableTo slot.expected = true := by
  unfold checkSlot
  rw [bind_eq_ok]
  refine exists_congr fun t => and_congr_right fun _ => ?_
  cases t.assignableTo slot.expected with
  | true => exact ⟨fun _ => rfl, fun _ => rfl⟩
  | false => exact ⟨(nomatch ·), (nomatch ·)⟩

theorem checkSlot_iff (hbound : bound.Matches params) (slot : Slot α) (hslot : slot.ReadsAll)
    (e : Expr) : checkSlot params e slot = .ok () ↔ ∃ a, e.valueIn slot bound = .ok a := by
  rw [checkSlot_eq_ok, valueIn_eq_ok hslot]
  constructor
  · rintro ⟨t, ht, hfits⟩
    obtain ⟨v, hv, rfl⟩ := (staticType_iff hbound e slot.name t).mp ht
    exact ⟨v, hv, hfits⟩
  · rintro ⟨v, hv, hfits⟩
    exact ⟨v.dataType, (staticType_iff hbound e slot.name _).mpr ⟨v, hv, rfl⟩, hfits⟩

theorem checkOptionalSlot_iff (hbound : bound.Matches params) (slot : Slot α)
    (hslot : slot.ReadsAll) (e : Option Expr) :
    checkOptionalSlot params e slot = .ok () ↔ ∃ a, optionalValueIn e slot bound = .ok a := by
  cases e with
  | none => exact ⟨fun _ => ⟨none, rfl⟩, fun _ => rfl⟩
  | some e =>
    refine (checkSlot_iff hbound slot hslot e).trans ⟨?_, ?_⟩
    · rintro ⟨a, ha⟩
      exact ⟨some a, bind_eq_ok.mpr ⟨a, ha, rfl⟩⟩
    · rintro ⟨o, ho⟩
      obtain ⟨a, ha, -⟩ := bind_eq_ok.mp ho
      exact ⟨a, ha⟩

/-! ## Headers and entries -/

theorem checkHeader_iff (hbound : bound.Matches params) {t : TxTemplate} :
    checkHeader params t.transaction = .ok () ↔ ∃ header, t.resolveHeader bound = .ok header := by
  unfold checkHeader TxTemplate.resolveHeader
  simp only [bind_unit_eq_ok]
  rw [checkSlot_iff hbound Slot.journalId (Slot.readsAll_uuid _),
    checkSlot_iff hbound Slot.effective (Slot.readsAll_date _),
    checkOptionalSlot_iff hbound Slot.correlationId (Slot.readsAll_string _),
    checkOptionalSlot_iff hbound Slot.externalId (Slot.readsAll_string _),
    checkOptionalSlot_iff hbound Slot.description (Slot.readsAll_string _),
    checkOptionalSlot_iff hbound Slot.metadata (Slot.readsAll_json _)]
  constructor
  · rintro ⟨⟨journal, hjournal⟩, ⟨effective, heffective⟩, ⟨correlation, hcorrelation⟩,
      ⟨external, hexternal⟩, ⟨description, hdescription⟩, ⟨metadata, hmetadata⟩⟩
    refine ⟨⟨⟨journal⟩, effective, correlation, external, description, metadata⟩, ?_⟩
    rw [hjournal, heffective, hcorrelation, hexternal, hdescription, hmetadata]
    rfl
  · rintro ⟨header, h⟩
    obtain ⟨journal, hjournal, h⟩ := bind_eq_ok.mp h
    obtain ⟨effective, heffective, h⟩ := bind_eq_ok.mp h
    obtain ⟨correlation, hcorrelation, h⟩ := bind_eq_ok.mp h
    obtain ⟨external, hexternal, h⟩ := bind_eq_ok.mp h
    obtain ⟨description, hdescription, h⟩ := bind_eq_ok.mp h
    obtain ⟨metadata, hmetadata, -⟩ := bind_eq_ok.mp h
    exact ⟨⟨_, hjournal⟩, ⟨_, heffective⟩, ⟨_, hcorrelation⟩, ⟨_, hexternal⟩, ⟨_, hdescription⟩,
      ⟨_, hmetadata⟩⟩

/-- All slots of the entry at an index can be read. -/
structure EntryFields.Reads (e : EntryTemplate) (index : Nat) (bound : Params) : Prop where
  account : ∃ a, e.accountId.valueIn (.entryAccount index) bound = .ok a
  currency : ∃ text, e.currency.valueIn (.entryCurrency index) bound = .ok text
  units : ∃ amount, e.units.valueIn (.entryUnits index) bound = .ok amount
  description : ∃ d, optionalValueIn e.description (.entryDescription index) bound = .ok d

theorem checkEntry_iff (hbound : bound.Matches params) (e : EntryTemplate) (index : Nat) :
    checkEntry params e index = .ok () ↔ EntryFields.Reads e index bound := by
  unfold checkEntry
  simp only [bind_unit_eq_ok]
  rw [checkSlot_iff hbound (Slot.entryAccount index) (Slot.readsAll_uuid _),
    checkSlot_iff hbound (Slot.entryCurrency index) (Slot.readsAll_string _),
    checkSlot_iff hbound (Slot.entryUnits index) (Slot.readsAll_decimal _),
    checkOptionalSlot_iff hbound (Slot.entryDescription index) (Slot.readsAll_string _)]
  constructor
  · rintro ⟨haccount, hcurrency, hunits, hdescription⟩
    exact ⟨haccount, hcurrency, hunits, hdescription⟩
  · rintro ⟨haccount, hcurrency, hunits, hdescription⟩
    exact ⟨haccount, hcurrency, hunits, hdescription⟩

end Evaluation

end DoubleEntry
