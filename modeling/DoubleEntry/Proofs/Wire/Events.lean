import DoubleEntry.Proofs.Wire.Values
import DoubleEntry.Wire.Event

/-!
# Events decode to what was recorded

What the ledger records has instants as clocks give them and amounts as they are read or added up
(`Recordable`). Its JSON form is decoded to the same again, member by member and in whatever order
they come, up to what single values lose (`asDecoded`): the sign of a zero, and metadata that is
null.

Main statement: `LedgerEvent.fromJson_toJson`, for all events but the creation of templates, which
depends on what expressions are read as.
-/

namespace DoubleEntry

/-! ## What is recorded -/

structure Journal.Recordable (j : Journal) : Prop where
  createdAt : j.createdAt.Regular
  modifiedAt : j.modifiedAt.Regular

structure Account.Recordable (a : Account) : Prop where
  createdAt : a.createdAt.Regular
  modifiedAt : a.modifiedAt.Regular

structure Entry.Recordable (e : Entry) : Prop where
  createdAt : e.createdAt.Regular
  units : e.units.zeros = 0

structure Transaction.Recordable (t : Transaction) : Prop where
  createdAt : t.createdAt.Regular
  entries : ∀ e ∈ t.entries, e.Recordable

structure BalanceSnapshot.Recordable (b : BalanceSnapshot) : Prop where
  createdAt : b.createdAt.Regular
  modifiedAt : b.modifiedAt.Regular
  debitTotal : b.debitTotal.zeros = 0
  creditTotal : b.creditTotal.zeros = 0

/-- Instants are regular, and amounts have no zeros past their last place. -/
def LedgerEvent.Recordable : LedgerEvent → Prop
  | .journalCreated j => j.Recordable
  | .journalUpdated j _ => j.Recordable
  | .accountCreated a => a.Recordable
  | .accountUpdated a _ => a.Recordable
  | .templateCreated _ => True
  | .transactionCreated t => t.Recordable
  | .balanceCreated b => b.Recordable
  | .balanceUpdated b => b.Recordable

/-! ## Records -/

def Entry.asDecoded (e : Entry) : Entry := { e with units := e.units.unsigned }

def Transaction.asDecoded (t : Transaction) : Transaction :=
  { t with metadata := Json.present? t.metadata, entries := t.entries.map Entry.asDecoded }

def BalanceSnapshot.asDecoded (b : BalanceSnapshot) : BalanceSnapshot :=
  { b with debitTotal := b.debitTotal.unsigned, creditTotal := b.creditTotal.unsigned }

section Assembly

attribute [local simp] Record.build_seq Record.build_map Record.build_required
  Record.build_optional List.lookup_cons ok_bind

theorem Journal.fromJson_toJson {j : Journal} (h : j.Recordable) :
    Journal.fromJson j.toJson = .ok j := by
  unfold Journal.fromJson Journal.toJson
  rw [Record.decode_ofMembers (by apply_rules [Record.Sound.seq, Record.sound_pure,
    Record.sound_required, Record.sound_optional]) (by simp)]
  simp [Timestamp.fromJson_ofText h.createdAt, Timestamp.fromJson_ofText h.modifiedAt]

theorem Account.fromJson_toJson {a : Account} (h : a.Recordable) :
    Account.fromJson a.toJson = .ok a := by
  unfold Account.fromJson Account.toJson
  rw [Record.decode_ofMembers (by apply_rules [Record.Sound.seq, Record.sound_pure,
    Record.sound_required, Record.sound_optional]) (by simp)]
  simp [Timestamp.fromJson_ofText h.createdAt, Timestamp.fromJson_ofText h.modifiedAt]

theorem Entry.fromJson_toJson {e : Entry} (h : e.Recordable) :
    Entry.fromJson e.toJson = .ok e.asDecoded := by
  unfold Entry.fromJson Entry.toJson
  rw [Record.decode_ofMembers (by apply_rules [Record.Sound.seq, Record.sound_pure,
    Record.sound_required, Record.sound_optional]) (by simp)]
  simp [Timestamp.fromJson_ofText h.createdAt, Units.fromJson_ofText h.units, asDecoded]

theorem Transaction.fromJson_toJson {t : Transaction} (h : t.Recordable) :
    Transaction.fromJson t.toJson = .ok t.asDecoded := by
  have hentries : Decode.list Entry.fromJson (.ofList Entry.toJson t.entries) =
      .ok (t.entries.map Entry.asDecoded) := by
    rw [Decode.list_ofList, List.forall₂_map_right_iff, List.forall₂_same]
    exact fun e he => Entry.fromJson_toJson (h.entries e he)
  unfold Transaction.fromJson Transaction.toJson
  rw [Record.decode_ofMembers (by apply_rules [Record.Sound.seq, Record.sound_pure,
    Record.sound_required, Record.sound_optional]) (by simp)]
  simp [Timestamp.fromJson_ofText h.createdAt, hentries, asDecoded]

theorem BalanceSnapshot.fromJson_toJson {b : BalanceSnapshot} (h : b.Recordable) :
    BalanceSnapshot.fromJson b.toJson = .ok b.asDecoded := by
  unfold BalanceSnapshot.fromJson BalanceSnapshot.toJson
  rw [Record.decode_ofMembers (by apply_rules [Record.Sound.seq, Record.sound_pure,
    Record.sound_required, Record.sound_optional]) (by simp)]
  simp [Timestamp.fromJson_ofText h.createdAt, Timestamp.fromJson_ofText h.modifiedAt,
    Units.fromJson_ofText h.debitTotal, Units.fromJson_ofText h.creditTotal, asDecoded]

end Assembly

/-! ## Events -/

namespace LedgerEvent

theorem Kind.record_sound (kind : Kind) : kind.record.Sound := by
  cases kind <;> unfold record <;>
    apply_rules [Record.Sound.seq, Record.sound_pure, Record.sound_required]

/-- An event decodes to what is assembled for its kind from the other members. -/
theorem fromJson_ofMembers {word : String} (kind : Kind) {pairs : List (String × Json)}
    (hkind : kindFromJson (.string word) = .ok kind)
    (hnodup : ("type" :: pairs.map Prod.fst).Nodup) {e : LedgerEvent} :
    fromJson (.ofMembers (("type", .string word) :: pairs)) = .ok e ↔
      kind.record.build (fun name => pairs.lookup name) = .ok e := by
  let ms := OrdMap.ofList (("type", Json.string word) :: pairs)
  have hget (name : String) : ms.get? name =
      (("type", Json.string word) :: pairs).lookup name :=
    OrdMap.get?_ofList_eq_lookup (show ((("type", Json.string word) :: pairs).map Prod.fst).Nodup
      from hnodup) name
  have htype : ms.rows.lookup "type" = some (.string word) := hget "type"
  have hrest : (fun name => (ms.rows.filter fun m => m.1 != "type").lookup name) =
      fun name => pairs.lookup name := by
    funext name
    refine Option.ext fun j => (OrdMap.get?_filter fun m => m.1 != "type").trans ?_
    rw [hget, List.lookup_cons]
    by_cases hname : name = "type"
    · have hnone : pairs.lookup "type" = none :=
        List.lookup_eq_none_iff.mpr fun p hp => by
          have hne := (List.nodup_cons.mp hnodup).1
          exact bne_iff_ne.mpr fun heq => hne (heq ▸ List.mem_map_of_mem hp)
      simp [hname, hnone]
    · simp [hname, beq_false_of_ne hname]
  have hdecode : fromJson (.object ms.rows) = kindFromJson (.string word) >>= fun kind =>
      kind.record.ofMembers (ms.rows.filter fun m => m.1 != "type") := by
    unfold fromJson
    dsimp only
    rw [htype]
  show fromJson (.object ms.rows) = .ok e ↔ _
  rw [hdecode, hkind, ok_bind, Record.ofMembers_eq_ok kind.record_sound (ms.ascending.filter _),
    hrest]

/-- The event as its JSON form is decoded. -/
def asDecoded : LedgerEvent → LedgerEvent
  | .transactionCreated t => .transactionCreated t.asDecoded
  | .balanceCreated b => .balanceCreated b.asDecoded
  | .balanceUpdated b => .balanceUpdated b.asDecoded
  | e => e

theorem eventType_asDecoded (e : LedgerEvent) : e.asDecoded.eventType = e.eventType := by
  cases e <;> rfl

/-- **What was recorded is decoded again**, apart from templates. -/
theorem fromJson_toJson {e : LedgerEvent} (h : e.Recordable) (hne : ∀ t, e ≠ .templateCreated t) :
    fromJson e.toJson = .ok e.asDecoded := by
  cases e with
  | journalCreated j =>
    refine (fromJson_ofMembers .journalCreated rfl (by simp)).mpr ?_
    simp [Kind.record, List.lookup_cons, Journal.fromJson_toJson h, asDecoded]
  | journalUpdated j fields =>
    refine (fromJson_ofMembers .journalUpdated rfl (by simp)).mpr ?_
    simp [Kind.record, List.lookup_cons, Journal.fromJson_toJson h, asDecoded]
  | accountCreated a =>
    refine (fromJson_ofMembers .accountCreated rfl (by simp)).mpr ?_
    simp [Kind.record, List.lookup_cons, Account.fromJson_toJson h, asDecoded]
  | accountUpdated a fields =>
    refine (fromJson_ofMembers .accountUpdated rfl (by simp)).mpr ?_
    simp [Kind.record, List.lookup_cons, Account.fromJson_toJson h, asDecoded]
  | templateCreated t => exact absurd rfl (hne t)
  | transactionCreated t =>
    refine (fromJson_ofMembers .transactionCreated rfl (by simp)).mpr ?_
    simp [Kind.record, List.lookup_cons, Transaction.fromJson_toJson h, asDecoded]
  | balanceCreated b =>
    refine (fromJson_ofMembers .balanceCreated rfl (by simp)).mpr ?_
    simp [Kind.record, List.lookup_cons, BalanceSnapshot.fromJson_toJson h, asDecoded]
  | balanceUpdated b =>
    refine (fromJson_ofMembers .balanceUpdated rfl (by simp)).mpr ?_
    simp [Kind.record, List.lookup_cons, BalanceSnapshot.fromJson_toJson h, asDecoded]

end LedgerEvent

end DoubleEntry
