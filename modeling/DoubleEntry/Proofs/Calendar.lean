import DoubleEntry.Calendar.Reader
import DoubleEntry.Proofs.Results
import DoubleEntry.Proofs.Text.Digits

/-!
# Dates and instants are read from their own text

A date is read from its text by both of its readers, an instant by the spaced one. The strict reader
takes instants of the years 0 to 9999 only: outside of them the text carries a sign, which has no
place in the fixed-width form (`readStrict_chars`, `readStrict_chars_eq_error`).

The text of an instant writes the leap second of a minute as its second 60. So the readers give back
instants that are `Regular`, and every instant that comes out of a reader is.
-/

namespace DoubleEntry.Calendar

open Text

/-! ## Numbers -/

theorem moreDigits_digits {ds rest : List Char} (hds : AllDigits ds) (hrest : EndsDigits rest)
    {most acc : Nat} (hmost : ds.length ≤ most) (hvalue : Nat.ofDigitChars 10 ds acc < pow2 63) :
    moreDigits acc most (ds ++ rest) = .ok (Nat.ofDigitChars 10 ds acc, rest) := by
  induction ds generalizing most acc with
  | nil =>
    cases most with
    | zero => rfl
    | succ most =>
      cases rest with
      | nil => rfl
      | cons c rest => rw [List.nil_append, moreDigits, digitValue?_eq_none (hrest c rfl)]; rfl
  | cons c ds ih =>
    obtain ⟨hc, hds⟩ := hds.of_cons
    obtain ⟨most, rfl⟩ := Nat.exists_eq_succ_of_ne_zero
      (Nat.ne_of_gt (Nat.lt_of_lt_of_le (Nat.succ_pos _) hmost))
    rw [Nat.ofDigitChars_cons, Nat.mul_comm] at hvalue ⊢
    have hnext := Nat.lt_of_le_of_lt (le_ofDigitChars ds _) hvalue
    rw [List.cons_append, moreDigits, digitValue?_of_isDigit hc]
    dsimp only
    rw [if_pos hnext, ih hds (Nat.le_of_succ_le_succ hmost) hvalue]

theorem number_digits {ds rest : List Char} (hds : AllDigits ds) (hne : ds ≠ [])
    (hrest : EndsDigits rest) {most : Nat} (hmost : ds.length ≤ most)
    (hvalue : Nat.ofDigitChars 10 ds 0 < pow2 63) :
    number most (ds ++ rest) = .ok (Nat.ofDigitChars 10 ds 0, rest) := by
  have hmore := moreDigits_digits hds hrest hmost hvalue
  obtain ⟨c, tail, heq, hc⟩ := hds.exists_head hne rest
  rw [heq] at hmore ⊢
  rw [number, if_pos hc, hmore]

theorem field_twoChars {lo hi n : Nat} (hlo : lo ≤ n) (hhi : n ≤ hi) (hn : n < 100)
    {rest : List Char} (hrest : EndsDigits rest) :
    field lo hi (Date.twoChars n ++ rest) = .ok (n, rest) := by
  have hds : AllDigits (Date.twoChars n) := (allDigits_natChars n).padZeros 2
  have hne : Date.twoChars n ≠ [] := padZeros_ne_nil (by decide) _
  have hlength : (Date.twoChars n).length = 2 := length_padZeros_natChars (by decide) hn
  have hvalue : Nat.ofDigitChars 10 (Date.twoChars n) 0 = n := by simp [Date.twoChars]
  have hnumber := number_digits hds hne hrest (Nat.le_of_eq hlength)
    (by rw [hvalue, pow2_63]; omega)
  rw [field, hds.trimStart hne, hnumber, ok_bind, hvalue]
  exact if_pos ⟨hlo, hhi⟩

/-! ## Years -/

section Years

variable {digits rest : List Char} {n : Nat}

theorem year_minus (h : number digits.length digits = .ok (n, rest)) (hn : n < pow2 31) :
    year ('-' :: digits) = .ok (-(n : Int), rest) := by
  have hword : -(pow2 31 : Int) ≤ -(n : Int) ∧ -(n : Int) < (pow2 31 : Int) := by omega
  rw [year, trimStart_cons (by decide)]
  dsimp only
  split
  · next heq =>
    obtain ⟨-, rfl⟩ := List.cons.inj heq
    rw [h, ok_bind, pure_bind]
    exact if_pos hword
  · next heq => exact absurd (List.cons.inj heq).1 (by decide)
  · next hminus _ => exact absurd rfl (hminus digits)

theorem year_plus (h : number digits.length digits = .ok (n, rest)) (hn : n < pow2 31) :
    year ('+' :: digits) = .ok ((n : Int), rest) := by
  have hword : -(pow2 31 : Int) ≤ (n : Int) ∧ (n : Int) < (pow2 31 : Int) := by omega
  rw [year, trimStart_cons (by decide)]
  dsimp only
  split
  · next heq => exact absurd (List.cons.inj heq).1 (by decide)
  · next heq =>
    obtain ⟨-, rfl⟩ := List.cons.inj heq
    rw [h, ok_bind, pure_bind]
    exact if_pos hword
  · next hplus => exact absurd rfl (hplus digits)

theorem year_digit {c : Char} (hc : c.isDigit = true)
    (h : number 4 (c :: digits) = .ok (n, rest)) (hn : n < pow2 31) :
    year (c :: digits) = .ok ((n : Int), rest) := by
  have hword : -(pow2 31 : Int) ≤ (n : Int) ∧ (n : Int) < (pow2 31 : Int) := by omega
  rw [year, trimStart_cons (isBlank_of_isDigit hc)]
  dsimp only
  split
  · next heq => exact absurd (List.cons.inj heq).1 (ne_of_isDigit hc rfl)
  · next heq => exact absurd (List.cons.inj heq).1 (ne_of_isDigit hc rfl)
  · rw [h, ok_bind, pure_bind]
    exact if_pos hword

/-- A year is read from its own text: four digits, or a sign and as many digits as there are. -/
theorem year_yearChars {y : Int} (hlo : -262143 ≤ y) (hhi : y ≤ 262142)
    (hrest : EndsDigits rest) : year (Date.yearChars y ++ rest) = .ok (y, rest) := by
  have hds : AllDigits (padZeros 4 (natChars y.natAbs)) := (allDigits_natChars _).padZeros 4
  have hne : padZeros 4 (natChars y.natAbs) ≠ [] := padZeros_ne_nil (by decide) _
  have hword : y.natAbs < pow2 31 := by
    rw [pow2_31]
    omega
  have hnumber : ∀ most, (padZeros 4 (natChars y.natAbs)).length ≤ most →
      number most (padZeros 4 (natChars y.natAbs) ++ rest) = .ok (y.natAbs, rest) := by
    intro most hmost
    have hread := number_digits hds hne hrest hmost (by
      rw [value_padZeros, value_natChars, pow2_63]
      omega)
    rwa [value_padZeros, value_natChars] at hread
  have hsigned := hnumber (padZeros 4 (natChars y.natAbs) ++ rest).length
    (by rw [List.length_append]; omega)
  unfold Date.yearChars
  dsimp only
  split
  · next hneg =>
    have habs : -(y.natAbs : Int) = y := by omega
    rw [List.cons_append, year_minus hsigned hword, habs]
  · next hpos =>
    have habs : (y.natAbs : Int) = y := by omega
    split
    · rw [List.cons_append, year_plus hsigned hword, habs]
    · have hread := hnumber 4
        (Nat.le_of_eq (length_padZeros_natChars (by decide) (show y.natAbs < 10000 by omega)))
      obtain ⟨c, tail, heq, hc⟩ := hds.exists_head hne rest
      rw [heq] at hread ⊢
      rw [year_digit hc hread hword, habs]

end Years

/-! ## Dates -/

theorem literal_cons (c : Char) (rest : List Char) : literal c (c :: rest) = .ok ((), rest) :=
  if_pos rfl

theorem blanks_cons {c : Char} (h : isBlank c = false) (spaced : Bool) (rest : List Char) :
    blanks spaced (c :: rest) = c :: rest := by
  cases spaced with
  | false => rfl
  | true => exact trimStart_cons h rest

theorem bounds_of_isDate {year : Int} {month day : Nat} (h : IsDate year month day) :
    1 ≤ month ∧ month ≤ 12 ∧ 1 ≤ day ∧ day ≤ 31 := by
  obtain ⟨-, -, hday, hmonth⟩ := h
  unfold daysInMonth at hmonth
  split at hmonth <;> first | omega | (split at hmonth <;> omega)

theorem yearMonthDay_chars (d : Date) (spaced : Bool) {rest : List Char}
    (hrest : EndsDigits rest) :
    yearMonthDay spaced (d.chars ++ rest) = .ok ((d.year, d.month, d.day), rest) := by
  obtain ⟨hmonth, hmonth', hday, hday'⟩ := bounds_of_isDate d.isDate
  have hhyphen : EndsDigits ('-' :: (Date.twoChars d.day ++ rest)) := endsDigits_cons (by decide)
  have hend : EndsDigits ('-' :: (Date.twoChars d.month ++
      '-' :: (Date.twoChars d.day ++ rest))) := endsDigits_cons (by decide)
  have hyear := year_yearChars d.isDate.1 d.isDate.2.1 hend
  have hchars : d.chars ++ rest = Date.yearChars d.year ++ '-' :: (Date.twoChars d.month ++
      '-' :: (Date.twoChars d.day ++ rest)) := by simp [Date.chars]
  have hblank : isBlank '-' = false := by decide
  rw [hchars, yearMonthDay, hyear, ok_bind]
  dsimp only
  rw [blanks_cons hblank, literal_cons, ok_bind, field_twoChars hmonth hmonth' (by omega) hhyphen,
    ok_bind]
  dsimp only
  rw [blanks_cons hblank, literal_cons, ok_bind, field_twoChars hday hday' (by omega) hrest,
    ok_bind]
  rfl

theorem toDate_date (d : Date) : toDate (d.year, d.month, d.day) = .ok d := by
  rw [toDate, Date.ofYmd?, dif_pos d.isDate]

end DoubleEntry.Calendar

namespace DoubleEntry

open Text Calendar

/-- **A date is read from its own text.** -/
theorem Date.read_chars (d : Date) : Date.read d.chars = .ok d := by
  have hparts := yearMonthDay_chars d false endsDigits_nil
  rw [List.append_nil] at hparts
  rw [Date.read, hparts]
  exact toDate_date d

theorem Date.readSpaced_chars (d : Date) : Date.readSpaced d.chars = .ok d := by
  have hparts := yearMonthDay_chars d true endsDigits_nil
  rw [List.append_nil] at hparts
  rw [Date.readSpaced, hparts]
  exact toDate_date d

/-! ## Times of day -/

/-- Only the last second of a minute is a leap second. -/
def Timestamp.Regular (t : Timestamp) : Prop := nanosPerSecond ≤ t.nano → t.second % 60 = 59

instance (t : Timestamp) : Decidable t.Regular := by unfold Timestamp.Regular; infer_instance

namespace Calendar

theorem fraction_digits {ds : List Char} (hds : AllDigits ds) (hne : ds ≠ [])
    (hlength : ds.length ≤ 9) {rest : List Char} (hrest : EndsDigits rest) :
    fraction (ds ++ rest) = .ok (Nat.ofDigitChars 10 ds 0 * pow10 (9 - ds.length), rest) := by
  have hvalue : Nat.ofDigitChars 10 ds 0 < pow2 63 := by
    refine Nat.lt_of_lt_of_le (ofDigitChars_lt hds 0) ?_
    rw [Nat.zero_add, Nat.one_mul]
    exact Nat.le_trans (pow10_le hlength) (by decide)
  have hdrop : rest.dropWhile Char.isDigit = rest := dropWhile_isDigit allDigits_nil hrest
  rw [fraction, number_digits hds hne hrest hlength hvalue, ok_bind]
  dsimp only
  rw [List.length_append, Nat.add_sub_cancel, hdrop]
  rfl

/-- Fraction digits stand for nanoseconds by their places. -/
theorem optionalFraction_group {n : Nat} (places : Nat) (hpos : 0 < places)
    (hplaces : places ≤ 9) (hn : n < pow10 places) (rest : List Char) :
    optionalFraction ('.' :: (padZeros places (natChars n) ++ 'Z' :: rest)) =
      .ok (n * pow10 (9 - places), 'Z' :: rest) := by
  have hlength := length_padZeros_natChars hpos hn
  rw [optionalFraction, fraction_digits ((allDigits_natChars n).padZeros places)
    (padZeros_ne_nil hpos _) (by omega) (endsDigits_cons (by decide)), hlength, value_padZeros,
    value_natChars]

theorem optionalFraction_chars {nano : Nat} (h : nano < nanosPerSecond) (rest : List Char) :
    optionalFraction (Timestamp.fractionChars nano ++ 'Z' :: rest) = .ok (nano, 'Z' :: rest) := by
  unfold nanosPerSecond at h
  unfold Timestamp.fractionChars
  split
  · next hzero => rw [hzero]; rfl
  · split
    · next hmilli =>
      have heq : nano / 1000000 * pow10 (9 - 3) = nano :=
        Nat.div_mul_cancel (Nat.dvd_of_mod_eq_zero hmilli)
      have hread := optionalFraction_group (n := nano / 1000000) 3 (by decide) (by decide)
        (show nano / 1000000 < 1000 by omega) rest
      rwa [heq] at hread
    · split
      · next hmicro =>
        have heq : nano / 1000 * pow10 (9 - 6) = nano :=
          Nat.div_mul_cancel (Nat.dvd_of_mod_eq_zero hmicro)
        have hread := optionalFraction_group (n := nano / 1000) 6 (by decide) (by decide)
          (show nano / 1000 < 1000000 by omega) rest
        rwa [heq] at hread
      · have hread := optionalFraction_group 9 (by decide) (by decide) h rest
        rwa [show pow10 (9 - 9) = 1 from rfl, Nat.mul_one] at hread

/-- The parts of a regular instant make it up again. -/
theorem toInstant_parts {t : Timestamp} (h : t.Regular) :
    toInstant t.date
      (t.second / 3600, t.second / 60 % 60, t.second % 60 + t.nano / nanosPerSecond)
      (t.nano % nanosPerSecond) 0 = .ok t := by
  have hsecond := t.second_lt
  have hnano := t.nano_lt
  unfold Timestamp.Regular at h
  unfold secondsPerDay at hsecond
  have hmake : Timestamp.make? t.date t.second t.nano = some t := by
    rw [Timestamp.make?, dif_pos t.second_lt, dif_pos t.nano_lt]
  have hclock : Timestamp.ofClock? t.date (t.second / 3600) (t.second / 60 % 60)
      (t.second % 60 + t.nano / nanosPerSecond) (t.nano % nanosPerSecond) = some t := by
    unfold nanosPerSecond at *
    unfold Timestamp.ofClock?
    rw [if_pos (by omega), ← hmake]
    split
    · next hleap =>
      congr 1
      · omega
      · unfold nanosPerSecond
        omega
    · next hplain => congr 1 <;> omega
  have hshift : t.shift? (-0) = some t := by
    unfold Timestamp.shift?
    dsimp only
    rw [if_neg (by omega), if_neg (by unfold secondsPerDay; omega), ← hmake]
    congr 1
  rw [toInstant]
  dsimp only
  rw [hclock]
  dsimp only
  rw [hshift]

end Calendar

/-! ## Instants -/

namespace Timestamp

theorem second_le_sixty {t : Timestamp} (h : t.Regular) :
    t.second % 60 + t.nano / nanosPerSecond ≤ 60 := by
  have hnano := t.nano_lt
  have hleap : nanosPerSecond ≤ t.nano → t.second % 60 = 59 := h
  unfold nanosPerSecond at hnano hleap ⊢
  omega

theorem endsDigits_fractionChars (nano : Nat) (rest : List Char) :
    EndsDigits (fractionChars nano ++ 'Z' :: rest) := by
  unfold fractionChars
  split
  · exact endsDigits_cons (by decide)
  · split
    · exact endsDigits_cons (by decide)
    · split <;> exact endsDigits_cons (by decide)

/-- **A regular instant is read from its own text** by the spaced reader. -/
theorem readSpaced_chars {t : Timestamp} (h : t.Regular) : readSpaced t.chars = .ok t := by
  have hsecond := t.second_lt
  unfold secondsPerDay at hsecond
  have hsixty := second_le_sixty h
  have hcolon : ∀ rest, EndsDigits (':' :: rest) := fun _ => endsDigits_cons (by decide)
  have hnano : t.nano % nanosPerSecond < nanosPerSecond := Nat.mod_lt _ (by decide)
  have hfraction := optionalFraction_chars hnano []
  have hends := endsDigits_fractionChars (t.nano % nanosPerSecond) []
  have hcolonBlank : isBlank ':' = false := by decide
  unfold Timestamp.chars
  dsimp only
  rw [readSpaced, yearMonthDay_chars t.date true (endsDigits_cons (by decide)), ok_bind]
  dsimp only
  rw [show betweenDateAndTime ('T' :: _) = .ok ((), _) from rfl, ok_bind]
  dsimp only
  rw [field_twoChars (Nat.zero_le _) (by omega) (by omega) (hcolon _), ok_bind]
  dsimp only
  rw [trimStart_cons hcolonBlank, literal_cons, ok_bind]
  dsimp only
  rw [field_twoChars (Nat.zero_le _) (by omega) (by omega) (hcolon _), ok_bind]
  dsimp only
  rw [trimStart_cons hcolonBlank, literal_cons, ok_bind]
  dsimp only
  rw [field_twoChars (Nat.zero_le _) hsixty (by omega) hends, ok_bind]
  dsimp only
  rw [hfraction, ok_bind]
  dsimp only
  rw [show spacedOffset (trimStart ['Z']) = .ok (0, []) from rfl, ok_bind]
  dsimp only
  rw [show finish () (trimStart []) = .ok () from rfl, ok_bind, toDate_date, ok_bind,
    show checkOffset 0 = .ok () from rfl, ok_bind]
  exact toInstant_parts h

/-! ## The fixed-width form -/

section FixedWidth

theorem fixedTwo_digits {cs : List Char} {i a b : Nat} (hfirst : cs[i]? = some a.digitChar)
    (hsecond : cs[i + 1]? = some b.digitChar) (ha : a < 10) (hb : b < 10) :
    fixedTwo cs i = .ok (a * 10 + b) := by
  rw [fixedTwo, hfirst, hsecond, Option.bind_some, Option.bind_some, digitValue?_digitChar ha,
    digitValue?_digitChar hb]

theorem fixedChar_mem {cs : List Char} {i : Nat} {c : Char} {allowed : List Char}
    (h : cs[i]? = some c) (hmem : c ∈ allowed) : fixedChar cs i allowed = .ok () := by
  rw [fixedChar, h]
  exact if_pos hmem

theorem length_le_byteLength (cs : List Char) : cs.length ≤ byteLength cs := by
  induction cs with
  | nil => exact Nat.le_refl 0
  | cons c cs ih =>
    have hsize := c.utf8Size_pos
    show cs.length + 1 ≤ c.utf8Size + byteLength cs
    omega

theorem twoChars_eq {n : Nat} (h : n < 100) :
    Date.twoChars n = [(n / 10).digitChar, (n % 10).digitChar] := by
  rw [Date.twoChars, padZeros_succ (by decide), padZeros_one (by omega)]
  rfl

theorem yearChars_eq {y : Int} (hlo : 0 ≤ y) (hhi : y ≤ 9999) :
    Date.yearChars y = [(y.natAbs / 10 / 10 / 10).digitChar, (y.natAbs / 10 / 10 % 10).digitChar,
      (y.natAbs / 10 % 10).digitChar, (y.natAbs % 10).digitChar] := by
  rw [Date.yearChars, if_neg (by omega), if_neg (by omega), padZeros_succ (by decide),
    padZeros_succ (by decide), padZeros_succ (by decide), padZeros_one (by omega)]
  rfl

/-- Every character stands at its own place, up to the fraction digits. -/
theorem chars_eq_digits {t : Timestamp} (h : t.Regular) (hlo : 0 ≤ t.date.year)
    (hhi : t.date.year ≤ 9999) :
    t.chars = [(t.date.year.natAbs / 10 / 10 / 10).digitChar,
      (t.date.year.natAbs / 10 / 10 % 10).digitChar, (t.date.year.natAbs / 10 % 10).digitChar,
      (t.date.year.natAbs % 10).digitChar, '-', (t.date.month / 10).digitChar,
      (t.date.month % 10).digitChar, '-', (t.date.day / 10).digitChar,
      (t.date.day % 10).digitChar, 'T', (t.second / 3600 / 10).digitChar,
      (t.second / 3600 % 10).digitChar, ':', (t.second / 60 % 60 / 10).digitChar,
      (t.second / 60 % 60 % 10).digitChar, ':',
      ((t.second % 60 + t.nano / nanosPerSecond) / 10).digitChar,
      ((t.second % 60 + t.nano / nanosPerSecond) % 10).digitChar] ++
        (fractionChars (t.nano % nanosPerSecond) ++ ['Z']) := by
  have hsecond := t.second_lt
  unfold secondsPerDay at hsecond
  have hsixty := second_le_sixty h
  obtain ⟨-, hmonth, -, hday⟩ := bounds_of_isDate t.date.isDate
  rw [Timestamp.chars, Date.chars, yearChars_eq hlo hhi, twoChars_eq (by omega),
    twoChars_eq (by omega), twoChars_eq (by omega), twoChars_eq (by omega),
    twoChars_eq (by omega)]
  rfl

/-- **The strict reader takes a regular instant of the years 0 to 9999** from its own text. -/
theorem readStrict_chars {t : Timestamp} (h : t.Regular) (hlo : 0 ≤ t.date.year)
    (hhi : t.date.year ≤ 9999) : readStrict t.chars = .ok t := by
  have hsecond := t.second_lt
  unfold secondsPerDay at hsecond
  have hsixty := second_le_sixty h
  obtain ⟨hmonth, hmonth', hday, hday'⟩ := bounds_of_isDate t.date.isDate
  have hchars := chars_eq_digits h hlo hhi
  have hlength : ¬ byteLength t.chars < 19 := by
    have hle := length_le_byteLength t.chars
    rw [hchars] at hle ⊢
    simp only [List.length_append, List.length_cons] at hle
    omega
  have hyear : (((t.date.year.natAbs / 10 / 10 / 10 * 10 + t.date.year.natAbs / 10 / 10 % 10) * 100
      + (t.date.year.natAbs / 10 % 10 * 10 + t.date.year.natAbs % 10) : Nat) : Int)
        = t.date.year := by omega
  have htwo : ∀ n : Nat, n / 10 * 10 + n % 10 = n := fun n => by omega
  rw [readStrict, if_neg hlength, hchars,
    fixedTwo_digits (i := 0) rfl rfl (by omega) (by omega), ok_bind,
    fixedTwo_digits (i := 2) rfl rfl (by omega) (by omega), ok_bind,
    fixedChar_mem (i := 4) rfl (by decide), ok_bind,
    fixedTwo_digits (i := 5) rfl rfl (by omega) (by omega), ok_bind,
    fixedChar_mem (i := 7) rfl (by decide), ok_bind,
    fixedTwo_digits (i := 8) rfl rfl (by omega) (by omega), ok_bind,
    hyear, htwo, htwo, toDate_date, ok_bind,
    fixedChar_mem (i := 10) rfl (by decide), ok_bind,
    fixedTwo_digits (i := 11) rfl rfl (by omega) (by omega), ok_bind,
    fixedChar_mem (i := 13) rfl (by decide), ok_bind,
    fixedTwo_digits (i := 14) rfl rfl (by omega) (by omega), ok_bind,
    fixedChar_mem (i := 16) rfl (by decide), ok_bind,
    fixedTwo_digits (i := 17) rfl rfl (by omega) (by omega), ok_bind,
    htwo, htwo, htwo]
  simp only [List.cons_append, List.nil_append, List.drop_succ_cons, List.drop_zero]
  rw [optionalFraction_chars (Nat.mod_lt _ (by decide)), ok_bind]
  dsimp only
  rw [if_neg (by omega), show offset (literal ':') ['Z'] = .ok (0, []) from rfl, ok_bind]
  exact toInstant_parts h

/-- Outside of these years the text starts with a sign, where the strict reader wants a digit. -/
theorem readStrict_chars_eq_error {t : Timestamp} (h : t.date.year < 0 ∨ 9999 < t.date.year) :
    ∃ e, readStrict t.chars = .error e := by
  obtain ⟨sign, rest, hchars, hsign⟩ : ∃ sign rest, t.chars = sign :: rest ∧
      sign.isDigit = false := by
    rw [Timestamp.chars, Date.chars, Date.yearChars]
    rcases h with h | h
    · rw [if_pos h]
      exact ⟨'-', _, rfl, rfl⟩
    · rw [if_neg (by omega), if_pos h]
      exact ⟨'+', _, rfl, rfl⟩
  rw [readStrict, hchars]
  split
  · exact ⟨_, rfl⟩
  · have hfirst : fixedTwo (sign :: rest) 0 = .error .invalid := by
      rw [fixedTwo, List.getElem?_cons_zero, Option.bind_some, digitValue?_eq_none hsign]
    rw [hfirst]
    exact ⟨_, rfl⟩

end FixedWidth

end Timestamp

/-! ## What is read is regular -/

namespace Calendar

theorem moreDigits_lt {most acc n : Nat} {cs rest : List Char}
    (h : moreDigits acc most cs = .ok (n, rest)) :
    rest.length ≤ cs.length ∧ cs.length - rest.length ≤ most ∧
      n < (acc + 1) * pow10 (cs.length - rest.length) := by
  induction most generalizing acc cs with
  | zero =>
    cases h
    simp
  | succ most ih =>
    cases cs with
    | nil =>
      cases h
      simp
    | cons c cs =>
      rw [moreDigits] at h
      split at h
      · cases h
        simp
      · next d hd =>
        dsimp only at h
        split at h
        · obtain ⟨hlength, hmost, hlt⟩ := ih h
          have hdigit := digitValue?_le hd
          have hcount : (c :: cs).length - rest.length = cs.length - rest.length + 1 := by
            rw [List.length_cons]
            omega
          refine ⟨Nat.le_succ_of_le hlength, by omega, ?_⟩
          rw [hcount, pow10_succ, Nat.mul_comm _ 10]
          calc n < (acc * 10 + d + 1) * pow10 (cs.length - rest.length) := hlt
            _ ≤ (acc + 1) * 10 * pow10 (cs.length - rest.length) :=
              Nat.mul_le_mul_right _ (by omega)
            _ = (acc + 1) * (10 * pow10 (cs.length - rest.length)) := Nat.mul_assoc _ _ _
        · cases h

theorem fraction_lt {cs rest : List Char} {nano : Nat} (h : fraction cs = .ok (nano, rest)) :
    nano < nanosPerSecond := by
  obtain ⟨⟨n, rest'⟩, hnumber, h⟩ := bind_eq_ok.mp h
  cases h
  have hmore : moreDigits 0 9 cs = .ok (n, rest') := by
    unfold number at hnumber
    split at hnumber
    · cases hnumber
    · split at hnumber
      · exact hnumber
      · cases hnumber
  obtain ⟨-, hnine, hlt⟩ := moreDigits_lt hmore
  generalize cs.length - rest'.length = digits at hnine hlt ⊢
  rw [Nat.zero_add, Nat.one_mul] at hlt
  calc n * pow10 (9 - digits) < pow10 digits * pow10 (9 - digits) :=
        Nat.mul_lt_mul_of_pos_right hlt (pow10_pos _)
    _ = nanosPerSecond := by
      rw [← pow10_add, Nat.add_sub_cancel' hnine]
      rfl

theorem optionalFraction_lt {cs rest : List Char} {nano : Nat}
    (h : optionalFraction cs = .ok (nano, rest)) : nano < nanosPerSecond := by
  unfold optionalFraction at h
  split at h
  · exact fraction_lt h
  · cases h
    decide

/-- Offsets are whole minutes. -/
theorem dvd_offset {separator : Scanner Unit} {cs rest : List Char} {seconds : Int}
    (h : offset separator cs = .ok (seconds, rest)) : 60 ∣ seconds := by
  unfold offset at h
  split at h
  · cases h
  · split at h
    · cases h
      exact Int.dvd_zero 60
    · split at h
      · obtain ⟨⟨hours, cs⟩, -, h⟩ := bind_eq_ok.mp h
        obtain ⟨⟨_, cs⟩, -, h⟩ := bind_eq_ok.mp h
        obtain ⟨⟨minutes, cs⟩, -, h⟩ := bind_eq_ok.mp h
        cases h
        split <;> omega
      · cases h

theorem make?_eq_some {date : Date} {second nano : Nat} {t : Timestamp}
    (h : Timestamp.make? date second nano = some t) : t.second = second ∧ t.nano = nano := by
  unfold Timestamp.make? at h
  split at h
  · split at h
    · cases h
      exact ⟨rfl, rfl⟩
    · cases h
  · cases h

theorem regular_of_ofClock? {date : Date} {hour minute second nano : Nat} {t : Timestamp}
    (hnano : nano < nanosPerSecond)
    (h : Timestamp.ofClock? date hour minute second nano = some t) : t.Regular := by
  intro hleap
  unfold Timestamp.ofClock? at h
  split at h
  · split at h
    · rw [(make?_eq_some h).1]
      omega
    · rw [(make?_eq_some h).2] at hleap
      omega
  · cases h

theorem regular_of_shift? {t u : Timestamp} {seconds : Int} (ht : t.Regular)
    (hminutes : 60 ∣ seconds) (hday : seconds.natAbs < secondsPerDay)
    (h : t.shift? seconds = some u) : u.Regular := by
  intro hleap
  unfold Timestamp.shift? at h
  dsimp only at h
  unfold secondsPerDay at h hday
  split at h
  · obtain ⟨date, -, h⟩ := Option.bind_eq_some_iff.mp h
    obtain ⟨hsecond, hnano⟩ := make?_eq_some h
    have := ht (hnano ▸ hleap)
    omega
  · split at h
    · obtain ⟨date, -, h⟩ := Option.bind_eq_some_iff.mp h
      obtain ⟨hsecond, hnano⟩ := make?_eq_some h
      have := ht (hnano ▸ hleap)
      omega
    · obtain ⟨hsecond, hnano⟩ := make?_eq_some h
      have := ht (hnano ▸ hleap)
      omega

theorem regular_of_toInstant {date : Date} {clock : Nat × Nat × Nat} {nano : Nat} {zone : Int}
    {t : Timestamp} (hnano : nano < nanosPerSecond) (hzone : 60 ∣ zone)
    (hday : zone.natAbs < secondsPerDay) (h : toInstant date clock nano zone = .ok t) :
    t.Regular := by
  unfold toInstant at h
  split at h
  · cases h
  · next hclock =>
    split at h
    · cases h
    · next hshift =>
      cases h
      exact regular_of_shift? (regular_of_ofClock? hnano hclock) (Int.dvd_neg.mpr hzone)
        (by rwa [Int.natAbs_neg]) hshift

end Calendar

/-- The strict reader comes to regular instants only: the fraction is less than a second, and the
offset is in whole minutes. -/
theorem Timestamp.regular_of_readStrict {cs : List Char} {t : Timestamp}
    (h : readStrict cs = .ok t) : t.Regular := by
  unfold readStrict at h
  split at h
  · cases h
  · iterate 13 obtain ⟨_, -, h⟩ := bind_eq_ok.mp h
    obtain ⟨⟨nano, rest⟩, hfraction, h⟩ := bind_eq_ok.mp h
    dsimp only at h
    split at h
    · cases h
    · obtain ⟨⟨zone, rest'⟩, hoffset, h⟩ := bind_eq_ok.mp h
      obtain ⟨-, -, h⟩ := bind_eq_ok.mp h
      obtain ⟨hday, h⟩ := bind_unit_eq_ok.mp h
      have hday : zone.natAbs < secondsPerDay := by
        unfold checkOffset at hday
        split at hday
        · assumption
        · cases hday
      exact regular_of_toInstant (optionalFraction_lt hfraction) (dvd_offset hoffset) hday h

end DoubleEntry
