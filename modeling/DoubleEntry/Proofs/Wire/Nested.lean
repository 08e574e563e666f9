import DoubleEntry.Proofs.Json.Values
import DoubleEntry.Proofs.Wire.Events

/-!
# Events are read from their JSON text

A database keeps the JSON form of an event as a text. All of it is written by the ledger itself but
the metadata, which is free: it may be nested as deep as the reader goes, less the two objects that
it stands in (`LedgerEvent.WithinReach`). Then the text is read as the form it was written from, as
far as the doubles in it are (`LedgerEvent.read_chars_iff`).
-/

namespace DoubleEntry

/-! ## Values as they are written -/

namespace Json

variable {depth : Nat}

@[simp]
theorem readable_null : Readable depth .null := .null

@[simp]
theorem readable_string (s : String) : Readable depth (.string s) := .string s

@[simp]
theorem readable_ofText {α : Type} [ToString α] (a : α) : Readable depth (.ofText a) := .string _

@[simp]
theorem readable_ofNat {n : Nat} (h : n < pow2 64) : Readable depth (.ofNat n) := by
  refine .whole (decide_eq_true ⟨?_, ?_⟩) <;> omega

@[simp]
theorem readable_ofWord32 (n : UInt32) : Readable depth (.ofWord32 n) :=
  readable_ofNat (pow2_64 ▸ Nat.lt_trans n.toNat_lt (by decide))

@[simp]
theorem readable_ofWord64 (n : UInt64) : Readable depth (.ofWord64 n) :=
  readable_ofNat (pow2_64 ▸ n.toNat_lt)

@[simp]
theorem readable_ofOption {α : Type} {f : α → Json} (hf : ∀ a, Readable depth (f a))
    (o : Option α) : Readable depth (.ofOption f o) := by
  cases o with
  | none => exact .null
  | some a => exact hf a

theorem readable_orNull {o : Option Json} (h : ∀ j, o = some j → Readable depth j) :
    Readable depth (.orNull o) := by
  cases o with
  | none => exact .null
  | some j => exact h j rfl

theorem readable_ofList {α : Type} {f : α → Json} {as : List α}
    (h : ∀ a ∈ as, Readable depth (f a)) : Readable (depth + 1) (.ofList f as) :=
  .array (List.forall_mem_map.mpr h)

@[simp]
theorem readable_texts (texts : List String) : Readable (depth + 1) (.ofList .string texts) :=
  readable_ofList fun s _ => readable_string s

/-- An object is one deeper than its members. -/
theorem readable_ofMembers {pairs : List (String × Json)} (h : ∀ p ∈ pairs, Readable depth p.2) :
    Readable (depth + 1) (.ofMembers pairs) :=
  .object (OrdMap.ofList pairs).ascending fun p hp => h p (OrdMap.mem_of_mem_ofList hp)

end Json

/-! ## Records as they are written -/

section Records

variable {depth : Nat}

theorem Journal.readable_toJson (j : Journal) : Json.Readable (depth + 1) j.toJson :=
  Json.readable_ofMembers (by simp)

theorem Account.readable_toJson {a : Account}
    (h : Json.Readable depth (Metadata.toJson a.metadata)) : Json.Readable (depth + 1) a.toJson :=
  Json.readable_ofMembers (by simp [h])

theorem Entry.readable_toJson (e : Entry) : Json.Readable (depth + 1) e.toJson :=
  Json.readable_ofMembers (by simp)

theorem Transaction.readable_toJson {t : Transaction}
    (h : ∀ m, t.metadata = some m → Json.Readable (depth + 2) m) :
    Json.Readable (depth + 3) t.toJson := by
  have hentries : Json.Readable (depth + 2) (.ofList Entry.toJson t.entries) :=
    Json.readable_ofList fun e _ => e.readable_toJson
  exact Json.readable_ofMembers (by simp [Json.readable_orNull h, hentries])

theorem BalanceSnapshot.readable_toJson (b : BalanceSnapshot) :
    Json.Readable (depth + 1) b.toJson :=
  Json.readable_ofMembers (by simp)

end Records

/-! ## Events as they are written -/

namespace LedgerEvent

/-- The metadata is nested as deep at most as the reader goes inside of two objects. Templates are
another matter. -/
def WithinReach : LedgerEvent → Prop
  | .accountCreated a => Json.Readable (Json.maxDepth - 2) (Metadata.toJson a.metadata)
  | .accountUpdated a _ => Json.Readable (Json.maxDepth - 2) (Metadata.toJson a.metadata)
  | .transactionCreated t => ∀ m, t.metadata = some m → Json.Readable (Json.maxDepth - 2) m
  | .templateCreated _ => False
  | _ => True

theorem readable_toJson {e : LedgerEvent} (h : e.WithinReach) :
    Json.Readable Json.maxDepth e.toJson := by
  show Json.Readable (126 + 1) e.toJson
  cases e with
  | journalCreated j => exact Json.readable_ofMembers (by simp [j.readable_toJson])
  | journalUpdated j fields => exact Json.readable_ofMembers (by simp [j.readable_toJson])
  | accountCreated a =>
    have ha : Json.Readable 126 a.toJson := Account.readable_toJson h
    exact Json.readable_ofMembers (by simp [ha])
  | accountUpdated a fields =>
    have ha : Json.Readable 126 a.toJson := Account.readable_toJson h
    exact Json.readable_ofMembers (by simp [ha])
  | templateCreated t => exact h.elim
  | transactionCreated t =>
    have ht : Json.Readable 126 t.toJson := Transaction.readable_toJson h
    exact Json.readable_ofMembers (by simp [ht])
  | balanceCreated b => exact Json.readable_ofMembers (by simp [b.readable_toJson])
  | balanceUpdated b => exact Json.readable_ofMembers (by simp [b.readable_toJson])

/-- The text of an event is read as the form that it was written from exactly if its doubles are. -/
theorem read_chars_iff {e : LedgerEvent} (h : e.WithinReach) :
    Json.read e.toJson.chars = .ok e.toJson ↔ ∀ x ∈ e.toJson.reals, x.ReadsBack :=
  Json.read_chars_iff (readable_toJson h)

end LedgerEvent

end DoubleEntry
