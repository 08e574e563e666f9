import DoubleEntry.Decimal.Text
import DoubleEntry.Proofs.Text.Digits

/-!
# Decimals are read from their own text

The scanner goes over the digits in front of the point and then over those behind it, and ends with
the coefficient and the scale the text was written from. Only the sign of a zero is not read again.
-/

namespace DoubleEntry.Decimal

open Text

/-! ## The scanner on digits -/

/-- Where a scan is after some digits. -/
def Scan.afterDigits (s : Scan) (ds : List Char) : Scan where
  magnitude := Nat.ofDigitChars 10 ds s.magnitude
  point := s.point
  scale := if s.point then s.scale + ds.length else 0
  hasDigit := true

theorem Scan.afterDigits_afterDigits (s : Scan) (cs ds : List Char) :
    (s.afterDigits cs).afterDigits ds = s.afterDigits (cs ++ ds) := by
  unfold afterDigits
  cases s.point <;> simp [Nat.ofDigitChars_append, Nat.add_assoc]

theorem scan_digit {s : Scan} {c : Char} (hc : c.isDigit = true) (rest : List Char)
    (hscale : s.point = true → s.scale < maxScale)
    (hmagnitude : Nat.ofDigitChars 10 [c] s.magnitude < bound) :
    scan s (c :: rest) = scan (s.afterDigits [c]) rest := by
  rw [Nat.ofDigitChars_cons, Nat.ofDigitChars_nil, Nat.mul_comm] at hmagnitude
  have hroom : (s.point && s.scale == maxScale) = false := by
    cases hpoint : s.point with
    | false => rfl
    | true => exact beq_false_of_ne (Nat.ne_of_lt (hscale hpoint))
  rw [scan, hroom, digitValue?_of_isDigit hc]
  dsimp only
  rw [if_neg Bool.false_ne_true, if_pos hmagnitude, Scan.afterDigits, Nat.ofDigitChars_cons,
    Nat.ofDigitChars_nil, Nat.mul_comm 10]
  rfl

theorem scan_digits {s : Scan} {ds : List Char} (hds : AllDigits ds) (hne : ds ≠ [])
    (rest : List Char) (hscale : s.point = true → s.scale + ds.length ≤ maxScale)
    (hmagnitude : Nat.ofDigitChars 10 ds s.magnitude < bound) :
    scan s (ds ++ rest) = scan (s.afterDigits ds) rest := by
  obtain ⟨c, ds, rfl⟩ := List.exists_cons_of_ne_nil hne
  clear hne
  induction ds generalizing s c with
  | nil => exact scan_digit hds.of_cons.1 rest hscale hmagnitude
  | cons c' ds ih =>
    obtain ⟨hc, hds⟩ := hds.of_cons
    rw [← List.singleton_append, Nat.ofDigitChars_append] at hmagnitude
    have hfirst : Nat.ofDigitChars 10 [c] s.magnitude < bound :=
      Nat.lt_of_le_of_lt (le_ofDigitChars _ _) hmagnitude
    have hroom : s.point = true → s.scale < maxScale := fun hpoint =>
      Nat.lt_of_lt_of_le (Nat.lt_add_of_pos_right (Nat.succ_pos _)) (hscale hpoint)
    rw [List.cons_append, scan_digit hc _ hroom hfirst, ih c' hds _ hmagnitude,
      Scan.afterDigits_afterDigits, List.singleton_append]
    intro hpoint
    have hpoint : s.point = true := hpoint
    have := hscale hpoint
    simp only [Scan.afterDigits, hpoint, if_true, List.length_cons, List.length_nil] at this ⊢
    omega

/-! ## Digits around a point -/

theorem scan_point {s : Scan} (h : s.point = false) (rest : List Char) :
    scan s ('.' :: rest) = scan { s with point := true } rest := by
  rw [scan, h]
  rfl

theorem scan_whole {whole : List Char} (hwhole : AllDigits whole) (hne : whole ≠ [])
    (hmagnitude : Nat.ofDigitChars 10 whole 0 < bound) :
    scan {} whole = .ok (.complete ⟨Nat.ofDigitChars 10 whole 0, false, 0, true⟩) := by
  have hscan := scan_digits (s := {}) hwhole hne [] nofun hmagnitude
  rwa [List.append_nil] at hscan

theorem scan_fraction {whole fraction : List Char} (hwhole : AllDigits whole) (hne : whole ≠ [])
    (hfraction : AllDigits fraction) (hne' : fraction ≠ []) (hscale : fraction.length ≤ maxScale)
    (hmagnitude : Nat.ofDigitChars 10 (whole ++ fraction) 0 < bound) :
    scan {} (whole ++ '.' :: fraction) = .ok (.complete
      ⟨Nat.ofDigitChars 10 (whole ++ fraction) 0, true, fraction.length, true⟩) := by
  rw [Nat.ofDigitChars_append] at hmagnitude ⊢
  have hfirst := Nat.lt_of_le_of_lt (le_ofDigitChars _ _) hmagnitude
  have hroom : 0 + fraction.length ≤ maxScale := by rwa [Nat.zero_add]
  rw [scan_digits (s := {}) hwhole hne _ nofun hfirst, scan_point rfl, ← List.append_nil fraction,
    scan_digits hfraction hne' [] (fun _ => hroom) hmagnitude]
  simp [scan, Scan.afterDigits]

/-- The point before the last digits sets the scale and leaves the number they make. -/
theorem scan_placePoint {ds : List Char} (hds : AllDigits ds) {scale : Nat}
    (hlength : scale < ds.length) (hscale : scale ≤ maxScale)
    (hmagnitude : Nat.ofDigitChars 10 ds 0 < bound) :
    ∃ point, scan {} (placePoint ds scale) =
      .ok (.complete ⟨Nat.ofDigitChars 10 ds 0, point, scale, true⟩) := by
  unfold placePoint
  split
  · next hzero =>
    exact ⟨false, hzero ▸ scan_whole hds (List.ne_nil_of_length_pos (by omega)) hmagnitude⟩
  · next hpos =>
    have hlen : (ds.drop (ds.length - scale)).length = scale := by simp; omega
    have hscan := scan_fraction (hds.take (ds.length - scale))
      (List.ne_nil_of_length_pos (by simp; omega)) (hds.drop (ds.length - scale))
      (List.ne_nil_of_length_pos (by omega)) (by omega) (by rwa [List.take_append_drop])
    rw [List.take_append_drop, hlen] at hscan
    exact ⟨true, hscan⟩

/-! ## The text of a decimal -/

theorem takeSign_of_isDigit {c : Char} (hc : c.isDigit = true) (cs : List Char) :
    takeSign (c :: cs) = (false, c :: cs) := by
  have hminus : c ≠ '-' := ne_of_isDigit hc rfl
  have hplus : c ≠ '+' := ne_of_isDigit hc rfl
  simp [takeSign, hminus, hplus]

theorem placePoint_head {ds : List Char} (hds : AllDigits ds) {scale : Nat}
    (hlength : scale < ds.length) :
    ∃ c cs, placePoint ds scale = c :: cs ∧ c.isDigit = true := by
  have hne : ds ≠ [] := List.ne_nil_of_length_pos (by omega)
  unfold placePoint
  split
  · simpa using hds.exists_head hne []
  · exact (hds.take _).exists_head (List.ne_nil_of_length_pos (by simp; omega)) _

theorem natAbs_signed (negative : Bool) (n : Nat) :
    (if negative then -(n : Int) else (n : Int)).natAbs = n := by
  cases negative <;> simp

/-- The characters of a number within bounds are a sign and a complete scan. -/
theorem scan_charsOf (negative : Bool) {magnitude scale : Nat} (hmagnitude : magnitude < bound)
    (hscale : scale ≤ maxScale) :
    (charsOf negative magnitude scale).isEmpty = false ∧
      ∃ digits point, takeSign (charsOf negative magnitude scale) = (negative, digits) ∧
        scan {} digits = .ok (.complete ⟨magnitude, point, scale, true⟩) := by
  have hds : AllDigits (padZeros (scale + 1) (natChars magnitude)) :=
    (allDigits_natChars magnitude).padZeros _
  have hlength : scale < (padZeros (scale + 1) (natChars magnitude)).length := by
    rw [length_padZeros]
    omega
  obtain ⟨point, hscan⟩ := scan_placePoint hds hlength hscale (by simpa using hmagnitude)
  rw [value_padZeros, value_natChars] at hscan
  obtain ⟨c, cs, hbody, hc⟩ := placePoint_head hds hlength
  rw [hbody] at hscan
  unfold charsOf
  rw [hbody]
  cases negative with
  | false => exact ⟨rfl, _, point, takeSign_of_isDigit hc cs, hscan⟩
  | true => exact ⟨rfl, _, point, rfl, hscan⟩

theorem ofScan_eq_ofCoeff (negative point : Bool) {magnitude scale : Nat}
    (hmagnitude : magnitude < bound) (hscale : scale ≤ maxScale) :
    ofScan negative ⟨magnitude, point, scale, true⟩ =
      .ok (ofCoeff (if negative then -(magnitude : Int) else magnitude) scale
        (by rwa [natAbs_signed]) hscale) := by
  simp [ofScan, make?, natAbs_signed, hmagnitude, hscale]

/-- The characters of a number within bounds denote it. -/
theorem readExact_charsOf (negative : Bool) {magnitude scale : Nat}
    (hmagnitude : magnitude < bound) (hscale : scale ≤ maxScale) :
    readExact (charsOf negative magnitude scale) =
      .ok (ofCoeff (if negative then -(magnitude : Int) else magnitude) scale
        (by rwa [natAbs_signed]) hscale) := by
  obtain ⟨hne, digits, point, hsign, hscan⟩ := scan_charsOf negative hmagnitude hscale
  unfold readExact
  rw [hne, if_neg Bool.false_ne_true, hsign]
  dsimp only
  rw [hscan]
  exact ofScan_eq_ofCoeff negative point hmagnitude hscale

/-- The reader that rounds has nothing to round there. -/
theorem readRounded_charsOf (negative : Bool) {magnitude scale : Nat}
    (hmagnitude : magnitude < bound) (hscale : scale ≤ maxScale) :
    readRounded (charsOf negative magnitude scale) =
      some (ofCoeff (if negative then -(magnitude : Int) else magnitude) scale
        (by rwa [natAbs_signed]) hscale) := by
  obtain ⟨hne, digits, point, hsign, hscan⟩ := scan_charsOf negative hmagnitude hscale
  unfold readRounded
  rw [hne, if_neg Bool.false_ne_true, hsign]
  dsimp only
  rw [hscan]
  dsimp only
  rw [ofScan_eq_ofCoeff negative point hmagnitude hscale]
  rfl

theorem signed_natAbs (d : Decimal) :
    (if (d.isNegative || d.signedZero) = true then -(d.coeff.natAbs : Int)
      else (d.coeff.natAbs : Int)) = d.coeff := by
  have hzero := d.coeff_eq_zero
  unfold isNegative
  split
  · next h =>
    rw [Bool.or_eq_true, decide_eq_true_eq] at h
    rcases h with h | h
    · omega
    · rw [hzero h]
      rfl
  · next h =>
    rw [Bool.not_eq_true, Bool.or_eq_false_iff, decide_eq_false_iff_not] at h
    omega

/-- **A decimal is read from its own text**, apart from the sign of a zero. -/
theorem readExact_chars (d : Decimal) :
    readExact d.chars = .ok (ofCoeff d.coeff d.scale d.coeff_lt d.scale_le) := by
  rw [chars, readExact_charsOf _ d.coeff_lt d.scale_le]
  simp only [signed_natAbs]

theorem readLenient_chars (d : Decimal) :
    readLenient d.chars = some (ofCoeff d.coeff d.scale d.coeff_lt d.scale_le) := by
  rw [readLenient, chars, readRounded_charsOf _ d.coeff_lt d.scale_le]
  simp only [signed_natAbs, Option.some_or]

theorem ofCoeff_self {d : Decimal} (h : d.signedZero = false) :
    ofCoeff d.coeff d.scale d.coeff_lt d.scale_le = d := by
  cases d
  cases h
  rfl

/-! ## What is read has no signed zero -/

theorem signedZero_of_make? {coeff : Int} {scale : Nat} {d : Decimal}
    (h : make? coeff scale = some d) : d.signedZero = false := by
  unfold make? at h
  split at h
  · split at h
    · cases h
      rfl
    · cases h
  · cases h

theorem signedZero_of_ofScan {negative : Bool} {s : Scan} {d : Decimal}
    (h : ofScan negative s = .ok d) : d.signedZero = false := by
  unfold ofScan at h
  split at h
  · cases h
  · dsimp only at h
    split at h
    · next hmake =>
      cases h
      exact signedZero_of_make? hmake
    · cases h

theorem signedZero_of_readExact {cs : List Char} {d : Decimal} (h : readExact cs = .ok d) :
    d.signedZero = false := by
  unfold readExact at h
  split at h
  · cases h
  · dsimp only at h
    split at h
    · cases h
    · exact signedZero_of_ofScan h
    · cases h

end DoubleEntry.Decimal
