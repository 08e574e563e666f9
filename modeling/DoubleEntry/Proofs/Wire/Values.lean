import DoubleEntry.Proofs.Calendar
import DoubleEntry.Proofs.Decimal.Written
import DoubleEntry.Proofs.Uuid
import DoubleEntry.Proofs.Wire.Records
import DoubleEntry.Wire.Ledger

/-!
# Single values decode to what they were written from

Identifiers, words, dates, regular instants, codes and amounts are written as texts, and the decoder
of each has its text read by the reader of the type. Only two things are lost: the sign of a zero
(`Units.unsigned`), and the difference between null and a value that is missing (`Json.present?`).
-/

namespace DoubleEntry

/-! ## Texts -/

theorem Json.ofText_ne_null {α : Type} [ToString α] (a : α) : Json.ofText a ≠ .null := nofun

@[simp]
theorem Decode.string_string (s : String) : Decode.string (.string s) = .ok s := rfl

/-- A text that may be missing. -/
@[simp]
theorem Decode.optional_string (o : Option String) :
    Decode.optional Decode.string (.ofOption .string o) = .ok o := by
  cases o <;> rfl

@[simp]
theorem Decode.list_string (ss : List String) :
    Decode.list Decode.string (.ofList .string ss) = .ok ss :=
  Decode.list_ofList.mpr (List.forall₂_same.mpr fun _ _ => rfl)

/-- A text that is read by the reader of its type. -/
theorem Decode.parsed_ofText {ε α : Type} [ToString α] {read : String → Except ε α}
    {message : ε → String} {expected : String} {a b : α} (h : read (toString a) = .ok b) :
    Decode.parsed read message expected (.ofText a) = .ok b := by
  unfold Decode.parsed Json.ofText
  dsimp only
  rw [h]

/-! ## Words -/

@[simp]
theorem DataType.fromJson_ofText (t : DataType) : DataType.fromJson (.ofText t) = .ok t := by
  cases t <;> rfl

@[simp]
theorem Side.fromJson_ofText (s : Side) : Side.fromJson (.ofText s) = .ok s := by
  cases s <;> rfl

@[simp]
theorem Layer.fromJson_ofText (l : Layer) : Layer.fromJson (.ofText l) = .ok l := by
  cases l <;> rfl

/-! ## Identifiers, dates and instants -/

@[simp]
theorem Id.fromJson_ofText {k : IdKind} (i : Id k) : Id.fromJson (.ofText i) = .ok i := by
  have hread : Uuid.read (toString i.uuid).toList = .ok i.uuid := by
    have htext : (toString i.uuid).toList = i.uuid.chars := String.toList_ofList
    rw [htext, Uuid.read_chars]
  have huuid : Uuid.fromJson (.ofText i.uuid) = .ok i.uuid := Decode.parsed_ofText hread
  show (Uuid.fromJson (.ofText i.uuid)).map Id.mk = .ok i
  rw [huuid]
  rfl

/-- An identifier that may be missing. -/
@[simp]
theorem Id.optional_ofOption {k : IdKind} (o : Option (Id k)) :
    Decode.optional Id.fromJson (.ofOption .ofText o) = .ok o := by
  cases o with
  | none => rfl
  | some i =>
    show (Id.fromJson (.ofText i)).map some = .ok (some i)
    rw [Id.fromJson_ofText]
    rfl

@[simp]
theorem Date.fromJson_ofText (d : Date) : Date.fromJson (.ofText d) = .ok d := by
  have htext : (toString d).toList = d.chars := String.toList_ofList
  refine Decode.parsed_ofText ?_
  rw [htext, Date.readSpaced_chars]

theorem Timestamp.fromJson_ofText {t : Timestamp} (h : t.Regular) :
    Timestamp.fromJson (.ofText t) = .ok t := by
  have htext : (toString t).toList = t.chars := String.toList_ofList
  refine Decode.parsed_ofText ?_
  rw [htext, Timestamp.readSpaced_chars h]

/-! ## Codes -/

theorem toUpper_of_isUpper_or_isDigit {c : Char} (h : (c.isUpper || c.isDigit) = true) :
    c.toUpper = c := by
  have hle : c.val.toNat ≤ 90 := by
    rcases Bool.or_eq_true_iff.mp h with h | h
    · have hupper : c.val ≤ 90 := (of_decide_eq_true h).2
      exact UInt32.le_iff_toNat_le.mp hupper
    · have hdigit : c.val ≤ 57 := of_decide_eq_true (Bool.and_eq_true_iff.mp h).2
      exact Nat.le_trans (UInt32.le_iff_toNat_le.mp hdigit) (by decide)
  unfold Char.toUpper
  split
  · next hlower =>
    have hge : 97 ≤ c.val.toNat := UInt32.le_iff_toNat_le.mp hlower.1
    omega
  · rfl

/-- The code of a currency is read as the currency. -/
theorem Currency.ofString_code (c : Currency) : Currency.ofString c.code = .ok c := by
  obtain ⟨code, hcode⟩ := c
  have hchars := List.all_eq_true.mp hcode.2.2
  have htrim : Text.trim code = code := by
    have hblank : ∀ c ∈ code.toList, Text.isBlank c = false := by
      intro c hc
      refine Text.isBlank_of_continuesName ?_
      have hletter : Text.continuesName c = (c.isUpper || c.isLower || c.isDigit || c == '_') := rfl
      rw [hletter]
      rcases Bool.or_eq_true_iff.mp (hchars c hc) with h | h <;> simp [h]
    rw [Text.trim, Text.trimChars_of_forall hblank, String.ofList_toList]
  have hupper : Text.upperAscii code = code := by
    have hsame : ∀ c ∈ code.toList, c.toUpper = id c :=
      fun c hc => toUpper_of_isUpper_or_isDigit (hchars c hc)
    rw [Text.upperAscii, List.map_congr_left hsame, List.map_id, String.ofList_toList]
  unfold ofString
  dsimp only
  rw [htrim, hupper, dif_pos hcode]

@[simp]
theorem Currency.fromJson_ofText (c : Currency) : Currency.fromJson (.ofText c) = .ok c := by
  have hread : Currency.ofString (toString c) = .ok c := c.ofString_code
  unfold Currency.fromJson Json.ofText
  rw [Decode.string_string, ok_bind, hread]
  rfl

/-! ## Numbers -/

/-- A decimal as its text is read: a zero without its sign. -/
def Decimal.unsigned (d : Decimal) : Decimal := ofCoeff d.coeff d.scale d.coeff_lt d.scale_le

/-- An amount as its text is read: a zero without its sign. -/
def Units.unsigned (u : Units) : Units := { amount := u.amount.unsigned, nonneg := u.nonneg }

/-- An amount with no zeros past its last place. -/
theorem Units.fromJson_ofText {u : Units} (h : u.zeros = 0) :
    Units.fromJson (.ofText u) = .ok u.unsigned := by
  have htext : (toString u).toList = u.amount.chars := by
    show (String.ofList (u.amount.charsWith u.zeros)).toList = _
    rw [String.toList_ofList, h, Decimal.charsWith, pow10_zero, Nat.mul_one, Nat.add_zero]
    rfl
  have hread : Decimal.fromJson (.ofText u) = .ok u.amount.unsigned := by
    show Decimal.orInvalid _ (Decimal.readLenient (toString u).toList) = _
    rw [htext, Decimal.readLenient_chars]
    rfl
  have hnonneg : 0 ≤ u.amount.unsigned.coeff := u.nonneg
  unfold Units.fromJson
  rw [hread, ok_bind, Units.ofDecimal, dif_pos hnonneg]
  rfl

theorem Decode.integer_ofNat {n bound : Nat} (h : n < bound) (expected : String) :
    Decode.integer 0 (bound - 1) expected (.ofNat n) = .ok (n : Int) := by
  unfold Decode.integer Json.ofNat
  dsimp only
  rw [if_pos (by omega)]

@[simp]
theorem Decode.word32_ofWord32 (n : UInt32) : Decode.word32 (.ofWord32 n) = .ok n := by
  have hlt : n.toNat < pow2 32 := pow2_32 ▸ n.toNat_lt
  unfold Decode.word32 Json.ofWord32
  rw [Decode.integer_ofNat hlt]
  exact congrArg Except.ok UInt32.ofNat_toNat

@[simp]
theorem Decode.word64_ofWord64 (n : UInt64) : Decode.word64 (.ofWord64 n) = .ok n := by
  have hlt : n.toNat < pow2 64 := pow2_64 ▸ n.toNat_lt
  unfold Decode.word64 Json.ofWord64
  rw [Decode.integer_ofNat hlt]
  exact congrArg Except.ok UInt64.ofNat_toNat

/-! ## Free values -/

/-- Null counts as missing. -/
def Json.present? : Option Json → Option Json
  | some .null => none
  | j => j

@[simp]
theorem Decode.optional_any_orNull (j : Option Json) :
    Decode.optional Decode.any (.orNull j) = .ok (Json.present? j) := by
  cases j with
  | none => rfl
  | some j => cases j <;> rfl

@[simp]
theorem Metadata.fromJson_toJson (m : Metadata) : Metadata.fromJson m.toJson = .ok m := by
  have hrows : m.rows.mapM (fun p => (Decode.any p.2).map (p.1, ·)) = .ok m.rows :=
    mapM_eq_ok_iff_forall₂.mpr (List.forall₂_same.mpr fun _ _ => rfl)
  exact bind_eq_ok.mpr ⟨m.rows, hrows, congrArg Except.ok m.ofList_rows⟩

end DoubleEntry
