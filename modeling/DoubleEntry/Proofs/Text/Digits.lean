import DoubleEntry.Power
import DoubleEntry.Text.Basic

/-!
# What is written in digits is read again

Whole numbers are written by `natChars`, with or without zeros in front, and core's
`Nat.ofDigitChars 10` tells what digits denote. Every reader of digits is compared with that number,
so that a round trip comes down to `Nat.ofDigitChars_ten_toDigits`. The last part is about texts
without blanks at their ends, which trimming leaves alone.
-/

namespace DoubleEntry.Text

/-! ## Texts made of digits -/

def AllDigits (cs : List Char) : Prop := ∀ c ∈ cs, c.isDigit = true

/-- Digits in front of this text are not followed by another one. -/
def EndsDigits (rest : List Char) : Prop := ∀ c ∈ rest.head?, c.isDigit = false

theorem endsDigits_nil : EndsDigits [] := fun _ hc => nomatch hc

theorem endsDigits_cons {c : Char} {cs : List Char} (h : c.isDigit = false) :
    EndsDigits (c :: cs) := by
  intro x hx
  cases hx
  exact h

theorem ne_of_isDigit {c x : Char} (hc : c.isDigit = true) (hx : x.isDigit = false) : c ≠ x := by
  rintro rfl
  rw [hc] at hx
  cases hx

/-- The ASCII code of a digit. -/
theorem toNat_of_isDigit {c : Char} (h : c.isDigit = true) : 48 ≤ c.toNat ∧ c.toNat ≤ 57 :=
  Char.isDigit_iff_toNat.mp h

theorem digitValue?_of_isDigit {c : Char} (h : c.isDigit = true) :
    digitValue? c = some (c.toNat - '0'.toNat) := if_pos h

theorem digitValue?_eq_none {c : Char} (h : c.isDigit = false) : digitValue? c = none :=
  if_neg (by rw [h]; decide)

theorem digitValue?_le {c : Char} {d : Nat} (h : digitValue? c = some d) : d ≤ 9 := by
  unfold digitValue? at h
  split at h
  · next hc =>
    have := toNat_of_isDigit hc
    cases h
    show c.toNat - 48 ≤ 9
    omega
  · cases h

@[simp]
theorem digitValue?_digitChar {n : Nat} (h : n < 10) : digitValue? n.digitChar = some n := by
  rw [digitValue?_of_isDigit (by rw [Nat.isDigit_digitChar, decide_eq_true h])]
  exact congrArg some (Nat.toNat_digitChar_sub_48_of_lt_ten h)

section Digits

variable {cs ds : List Char}

theorem allDigits_nil : AllDigits [] := fun _ hc => absurd hc List.not_mem_nil

theorem AllDigits.of_cons {c : Char} (h : AllDigits (c :: cs)) :
    c.isDigit = true ∧ AllDigits cs := List.forall_mem_cons.mp h

theorem AllDigits.append (hcs : AllDigits cs) (hds : AllDigits ds) : AllDigits (cs ++ ds) :=
  fun c hc => (List.mem_append.mp hc).elim (hcs c) (hds c)

theorem AllDigits.take (h : AllDigits cs) (n : Nat) : AllDigits (cs.take n) :=
  fun c hc => h c (List.mem_of_mem_take hc)

theorem AllDigits.drop (h : AllDigits cs) (n : Nat) : AllDigits (cs.drop n) :=
  fun c hc => h c (List.mem_of_mem_drop hc)

theorem allDigits_zeros (n : Nat) : AllDigits (List.replicate n '0') := by
  intro c hc
  rw [(List.mem_replicate.mp hc).2]
  rfl

theorem allDigits_natChars (n : Nat) : AllDigits (natChars n) :=
  fun _ hc => Nat.isDigit_of_mem_toDigits (by decide) (by decide) hc

theorem AllDigits.padZeros (h : AllDigits cs) (width : Nat) : AllDigits (padZeros width cs) :=
  (allDigits_zeros _).append h

/-- The first of some digits is one, whatever follows them. -/
theorem AllDigits.exists_head (h : AllDigits cs) (hne : cs ≠ []) (rest : List Char) :
    ∃ c tail, cs ++ rest = c :: tail ∧ c.isDigit = true := by
  obtain ⟨c, tail, rfl⟩ := List.exists_cons_of_ne_nil hne
  exact ⟨c, tail ++ rest, rfl, h.of_cons.1⟩

theorem takeWhile_isDigit (h : AllDigits ds) {rest : List Char} (hrest : EndsDigits rest) :
    (ds ++ rest).takeWhile Char.isDigit = ds := by
  rw [List.takeWhile_append_of_pos h]
  cases rest with
  | nil => rw [List.takeWhile_nil, List.append_nil]
  | cons c tail =>
    rw [List.takeWhile_cons_of_neg (by rw [hrest c rfl]; decide), List.append_nil]

theorem dropWhile_isDigit (h : AllDigits ds) {rest : List Char} (hrest : EndsDigits rest) :
    (ds ++ rest).dropWhile Char.isDigit = rest := by
  rw [List.dropWhile_append_of_pos h]
  cases rest with
  | nil => rfl
  | cons c tail => exact List.dropWhile_cons_of_neg (by rw [hrest c rfl]; decide)

end Digits

/-! ## Values of digits -/

theorem le_ofDigitChars (cs : List Char) (acc : Nat) : acc ≤ Nat.ofDigitChars 10 cs acc := by
  rw [Nat.ofDigitChars_eq_ofDigitChars_zero]
  exact Nat.le_trans (Nat.le_mul_of_pos_left acc (Nat.pow_pos (Nat.succ_pos 9)))
    (Nat.le_add_right _ _)

/-- Digits denote less than the power of ten that has one place more. -/
theorem ofDigitChars_lt {ds : List Char} (hds : AllDigits ds) (acc : Nat) :
    Nat.ofDigitChars 10 ds acc < (acc + 1) * pow10 ds.length := by
  induction ds generalizing acc with
  | nil => simp
  | cons c ds ih =>
    obtain ⟨hc, hds⟩ := hds.of_cons
    have hdigit : c.toNat - '0'.toNat ≤ 9 := digitValue?_le (digitValue?_of_isDigit hc)
    rw [Nat.ofDigitChars_cons]
    calc Nat.ofDigitChars 10 ds (10 * acc + (c.toNat - '0'.toNat))
        < (10 * acc + (c.toNat - '0'.toNat) + 1) * pow10 ds.length := ih hds _
      _ ≤ 10 * (acc + 1) * pow10 ds.length := Nat.mul_le_mul_right _ (by omega)
      _ = (acc + 1) * pow10 (c :: ds).length := by
        rw [List.length_cons, pow10_succ, Nat.mul_comm 10, Nat.mul_assoc, Nat.mul_comm 10]

@[simp]
theorem value_natChars (n : Nat) : Nat.ofDigitChars 10 (natChars n) 0 = n :=
  Nat.ofDigitChars_ten_toDigits

@[simp]
theorem value_padZeros (width : Nat) (cs : List Char) :
    Nat.ofDigitChars 10 (padZeros width cs) 0 = Nat.ofDigitChars 10 cs 0 := by
  rw [padZeros, Nat.ofDigitChars_append, Nat.ofDigitChars_replicate_zero, Nat.mul_zero]

theorem natChars_ne_nil (n : Nat) : natChars n ≠ [] := Nat.toDigits_ne_nil

theorem length_natChars_le {n k : Nat} (hk : 0 < k) : (natChars n).length ≤ k ↔ n < pow10 k :=
  Nat.length_toDigits_le_iff (by decide) hk

/-- A number has as many digits as it takes to reach it. -/
theorem pow10_le_of_length_natChars {n : Nat} (h : n ≠ 0) :
    pow10 ((natChars n).length - 1) ≤ n := by
  cases hk : (natChars n).length - 1 with
  | zero => exact Nat.pos_of_ne_zero h
  | succ k =>
    refine Nat.le_of_not_lt fun hlt => ?_
    have hle := (length_natChars_le (Nat.succ_pos k)).mpr hlt
    omega

theorem length_padZeros (width : Nat) (cs : List Char) :
    (padZeros width cs).length = max width cs.length := by
  rw [padZeros, List.length_append, List.length_replicate]
  omega

theorem padZeros_ne_nil {width : Nat} (h : 0 < width) (cs : List Char) :
    padZeros width cs ≠ [] := by
  rw [← List.length_pos_iff, length_padZeros]
  omega

/-- A number of `width` digits at most is written with exactly as many. -/
theorem length_padZeros_natChars {n width : Nat} (hwidth : 0 < width) (h : n < pow10 width) :
    (padZeros width (natChars n)).length = width := by
  rw [length_padZeros, Nat.max_eq_left ((length_natChars_le hwidth).mpr h)]

/-- There is a first character, and it is not a zero. -/
def Leads (cs : List Char) : Prop := ∃ c, cs.head? = some c ∧ c ≠ '0'

theorem leads_natChars {n : Nat} (h : n ≠ 0) : Leads (natChars n) := by
  induction n using Nat.strongRecOn with
  | ind n ih =>
    unfold natChars at ih ⊢
    rw [Nat.toDigits_eq_if (b := 10) (by decide)]
    split
    · exact ⟨n.digitChar, rfl, fun hzero => h (Nat.digitChar_eq_zero.mp hzero)⟩
    · obtain ⟨c, hc, hne⟩ := ih (n / 10) (by omega) (by omega)
      exact ⟨c, by rw [List.head?_append, hc]; rfl, hne⟩

/-- One more place takes one more digit at the end. -/
theorem padZeros_succ {width : Nat} (hwidth : 0 < width) (n : Nat) :
    padZeros (width + 1) (natChars n) =
      padZeros width (natChars (n / 10)) ++ [(n % 10).digitChar] := by
  unfold natChars
  rw [Nat.toDigits_eq_if (b := 10) (by decide)]
  split
  · next hlt =>
    obtain ⟨width, rfl⟩ := Nat.exists_eq_succ_of_ne_zero (Nat.ne_of_gt hwidth)
    rw [Nat.div_eq_of_lt hlt, Nat.mod_eq_of_lt hlt, Nat.toDigits_zero]
    simp [padZeros, List.replicate_succ']
  · simp [padZeros]

theorem padZeros_one {n : Nat} (h : n < 10) : padZeros 1 (natChars n) = [n.digitChar] := by
  rw [natChars, Nat.toDigits_of_lt_base h]
  rfl

/-! ## Whole numbers -/

theorem readUp_digits {hi : Int} {ds : List Char} (hds : AllDigits ds) (acc : Nat)
    (h : (Nat.ofDigitChars 10 ds acc : Int) ≤ hi) :
    readUp hi acc ds = .ok (Nat.ofDigitChars 10 ds acc) := by
  induction ds generalizing acc with
  | nil => rw [readUp, Nat.ofDigitChars_nil]
  | cons c ds ih =>
    obtain ⟨hc, hds⟩ := hds.of_cons
    rw [Nat.ofDigitChars_cons] at h ⊢
    have hle := Int.le_trans (Int.ofNat_le.mpr (le_ofDigitChars ds _)) h
    have hnext : (acc : Int) * 10 + ((c.toNat - '0'.toNat : Nat) : Int)
        = ((10 * acc + (c.toNat - '0'.toNat) : Nat) : Int) := by
      omega
    rw [readUp, digitValue?_of_isDigit hc]
    dsimp only
    rw [hnext, if_pos hle, ih hds _ h]

theorem readDown_digits {lo : Int} {ds : List Char} (hds : AllDigits ds) (acc : Nat)
    (h : lo ≤ -(Nat.ofDigitChars 10 ds acc : Int)) :
    readDown lo (-(acc : Int)) ds = .ok (-(Nat.ofDigitChars 10 ds acc : Int)) := by
  induction ds generalizing acc with
  | nil => rw [readDown, Nat.ofDigitChars_nil]
  | cons c ds ih =>
    obtain ⟨hc, hds⟩ := hds.of_cons
    rw [Nat.ofDigitChars_cons] at h ⊢
    have hle := Int.le_trans h (Int.neg_le_neg (Int.ofNat_le.mpr (le_ofDigitChars ds _)))
    have hnext : -(acc : Int) * 10 - ((c.toNat - '0'.toNat : Nat) : Int)
        = -((10 * acc + (c.toNat - '0'.toNat) : Nat) : Int) := by
      omega
    rw [readDown, digitValue?_of_isDigit hc]
    dsimp only
    rw [hnext, if_pos hle, ih hds _ h]

/-- Digits without a sign in front are read upwards. -/
theorem readInt_digits {lo hi : Int} {ds : List Char} (hds : AllDigits ds) (hne : ds ≠ []) :
    readInt lo hi ds = readUp hi 0 ds := by
  obtain ⟨c, tail, rfl⟩ := List.exists_cons_of_ne_nil hne
  have hc := hds.of_cons.1
  have hplus : c ≠ '+' := ne_of_isDigit hc rfl
  have hminus : c ≠ '-' := ne_of_isDigit hc rfl
  simp [readInt, hplus, hminus]

theorem readInt_neg_digits {lo hi : Int} {ds : List Char} (hne : ds ≠ []) (hlo : lo < 0) :
    readInt lo hi ('-' :: ds) = readDown lo 0 ds := by
  obtain ⟨c, tail, rfl⟩ := List.exists_cons_of_ne_nil hne
  simp [readInt, hlo]

/-- **A whole number is read from its own text.** -/
theorem readInt_intChars {lo hi i : Int} (hlo : lo ≤ i) (hhi : i ≤ hi) :
    readInt lo hi (intChars i) = .ok i := by
  unfold intChars
  split
  · next hneg =>
    have habs : -(i.natAbs : Int) = i := by omega
    rw [readInt_neg_digits (natChars_ne_nil _) (by omega)]
    have hbound : lo ≤ -(Nat.ofDigitChars 10 (natChars i.natAbs) 0 : Int) := by
      rw [value_natChars]
      omega
    have hread := readDown_digits (allDigits_natChars i.natAbs) 0 hbound
    rwa [value_natChars, habs] at hread
  · next hpos =>
    have habs : (i.natAbs : Int) = i := by omega
    rw [readInt_digits (allDigits_natChars _) (natChars_ne_nil _)]
    have hbound : (Nat.ofDigitChars 10 (natChars i.natAbs) 0 : Int) ≤ hi := by
      rw [value_natChars]
      omega
    have hread := readUp_digits (allDigits_natChars i.natAbs) 0 hbound
    rwa [value_natChars, habs] at hread

theorem readInt64_intChars (i : Int64) : readInt64 (intChars i.toInt) = .ok i.toInt :=
  readInt_intChars i.le_toInt (Int.le_sub_one_of_lt i.toInt_lt)

/-- Reading upwards gives the number that the digits denote, within the bound. -/
theorem eq_of_readUp {hi i : Int} {ds : List Char} (hds : AllDigits ds) (acc : Nat)
    (hacc : (acc : Int) ≤ hi) (h : readUp hi acc ds = .ok i) :
    i = Nat.ofDigitChars 10 ds acc ∧ i ≤ hi := by
  induction ds generalizing acc with
  | nil =>
    cases h
    exact ⟨rfl, hacc⟩
  | cons c ds ih =>
    obtain ⟨hc, hds⟩ := hds.of_cons
    have hnext : (acc : Int) * 10 + ((c.toNat - '0'.toNat : Nat) : Int)
        = ((10 * acc + (c.toNat - '0'.toNat) : Nat) : Int) := by
      omega
    rw [readUp, digitValue?_of_isDigit hc] at h
    dsimp only at h
    rw [hnext] at h
    split at h
    · next hle => exact ih hds _ hle h
    · cases h

theorem eq_of_readDown {lo i : Int} {ds : List Char} (hds : AllDigits ds) (acc : Nat)
    (hacc : lo ≤ -(acc : Int)) (h : readDown lo (-(acc : Int)) ds = .ok i) :
    i = -(Nat.ofDigitChars 10 ds acc : Int) ∧ lo ≤ i := by
  induction ds generalizing acc with
  | nil =>
    cases h
    exact ⟨rfl, hacc⟩
  | cons c ds ih =>
    obtain ⟨hc, hds⟩ := hds.of_cons
    have hnext : -(acc : Int) * 10 - ((c.toNat - '0'.toNat : Nat) : Int)
        = -((10 * acc + (c.toNat - '0'.toNat) : Nat) : Int) := by
      omega
    rw [readDown, digitValue?_of_isDigit hc] at h
    dsimp only at h
    rw [hnext] at h
    split at h
    · next hle => exact ih hds _ hle h
    · cases h

/-- A text behind a minus sign, or as it is. -/
def withSign (negative : Bool) (cs : List Char) : List Char := if negative then '-' :: cs else cs

/-- The number that digits denote, negated behind a minus sign. -/
def signedValue (negative : Bool) (digits : List Char) : Int :=
  if negative then -(Nat.ofDigitChars 10 digits 0 : Int) else Nat.ofDigitChars 10 digits 0

/-- **Digits, with a minus sign or without, are read as the number they denote if it is within the
bounds**, and not at all if it is not. -/
theorem readInt_withSign_iff {lo hi : Int} (hlo : lo < 0) (hhi : 0 ≤ hi) {negative : Bool}
    {ds : List Char} (hds : AllDigits ds) {i : Int} :
    readInt lo hi (withSign negative ds) = .ok i ↔
      ds ≠ [] ∧ i = signedValue negative ds ∧ lo ≤ i ∧ i ≤ hi := by
  by_cases hne : ds = []
  · subst hne
    cases negative <;> exact iff_of_false nofun fun h => h.1 rfl
  rw [and_iff_right hne]
  cases negative with
  | true =>
    show readInt lo hi ('-' :: ds) = .ok i ↔ i = -(Nat.ofDigitChars 10 ds 0 : Int) ∧ lo ≤ i ∧ i ≤ hi
    rw [readInt_neg_digits hne hlo]
    constructor
    · intro h
      obtain ⟨hi', hle⟩ := eq_of_readDown hds 0 (by omega) h
      exact ⟨hi', hle, by omega⟩
    · rintro ⟨rfl, hle, -⟩
      exact readDown_digits hds 0 hle
  | false =>
    show readInt lo hi ds = .ok i ↔ i = (Nat.ofDigitChars 10 ds 0 : Int) ∧ lo ≤ i ∧ i ≤ hi
    rw [readInt_digits hds hne]
    constructor
    · intro h
      obtain ⟨hi', hle⟩ := eq_of_readUp hds 0 hhi h
      exact ⟨hi', by omega, hle⟩
    · rintro ⟨rfl, -, hle⟩
      exact readUp_digits hds 0 hle

/-- The same for words of 64 bits. -/
theorem readInt64_withSign_iff {negative : Bool} {ds : List Char} (hds : AllDigits ds) {i : Int64} :
    readInt64 (withSign negative ds) = .ok i.toInt ↔
      ds ≠ [] ∧ i.toInt = signedValue negative ds := by
  have hlo := i.le_toInt
  have hhi := i.toInt_lt
  rw [readInt64, readInt_withSign_iff (by decide) (by decide) hds, pow2_63]
  exact and_congr_right fun _ => and_iff_left ⟨hlo, Int.le_sub_one_of_lt hhi⟩

/-- What is read as a whole number of 64 bits is one. -/
theorem exists_int64_of_readInt64 {negative : Bool} {ds : List Char} (hds : AllDigits ds) {i : Int}
    (h : readInt64 (withSign negative ds) = .ok i) : (Int64.ofInt i).toInt = i := by
  obtain ⟨-, -, hlo, hhi⟩ := (readInt_withSign_iff (by decide) (by decide) hds).mp h
  rw [pow2_63] at hlo hhi
  exact Int64.toInt_ofInt_of_le hlo (Int.lt_of_le_sub_one hhi)

/-! ## Blanks -/

/-- The printable ASCII characters other than the space are not blank. -/
theorem isBlank_of_ascii {c : Char} (hlo : 0x20 < c.toNat) (hhi : c.toNat < 0x7F) :
    isBlank c = false := by
  simp only [isBlank, Bool.or_eq_false_iff, Bool.and_eq_false_iff, decide_eq_false_iff_not,
    beq_eq_false_iff_ne]
  omega

theorem isBlank_of_isDigit {c : Char} (h : c.isDigit = true) : isBlank c = false := by
  obtain ⟨hlo, hhi⟩ := toNat_of_isDigit h
  exact isBlank_of_ascii (by omega) (by omega)

/-- Characters of names are not blank. -/
theorem isBlank_of_continuesName {c : Char} (h : continuesName c = true) : isBlank c = false := by
  have hrange : 0x30 ≤ c.toNat ∧ c.toNat ≤ 0x7A := by
    unfold continuesName Char.isAlphanum Char.isAlpha Char.isUpper Char.isLower Char.isDigit at h
    simp only [Bool.or_eq_true, Bool.and_eq_true, decide_eq_true_eq, beq_iff_eq, ge_iff_le,
      UInt32.le_iff_toNat_le] at h
    rcases h with ((⟨hlo, hhi⟩ | ⟨hlo, hhi⟩) | ⟨hlo, hhi⟩) | rfl
    · exact ⟨Nat.le_trans (by decide) hlo, Nat.le_trans hhi (by decide)⟩
    · exact ⟨Nat.le_trans (by decide) hlo, Nat.le_trans hhi (by decide)⟩
    · exact ⟨Nat.le_trans (by decide) hlo, Nat.le_trans hhi (by decide)⟩
    · decide
  exact isBlank_of_ascii (by omega) (by omega)

theorem trimStart_cons {c : Char} (h : isBlank c = false) (cs : List Char) :
    trimStart (c :: cs) = c :: cs := List.dropWhile_cons_of_neg (by rw [h]; decide)

/-- Digits have no blanks in front. -/
theorem AllDigits.trimStart {ds : List Char} (h : AllDigits ds) (hne : ds ≠ [])
    (rest : List Char) : trimStart (ds ++ rest) = ds ++ rest := by
  obtain ⟨c, tail, heq, hc⟩ := h.exists_head hne rest
  rw [heq, trimStart_cons (isBlank_of_isDigit hc)]

theorem continuesName_of_isIdentifier {cs : List Char} (h : isIdentifier cs = true) :
    ∀ c ∈ cs, continuesName c = true := by
  cases cs with
  | nil => exact nofun
  | cons c cs =>
    obtain ⟨hfirst, hrest⟩ := Bool.and_eq_true_iff.mp h
    refine List.forall_mem_cons.mpr ⟨?_, List.all_eq_true.mp hrest⟩
    rcases Bool.or_eq_true_iff.mp hfirst with hletter | hunderscore
    · simp [continuesName, Char.isAlphanum, hletter]
    · simp [continuesName, hunderscore]

/-- A text without blanks stays as it is. -/
theorem trimChars_of_forall {cs : List Char} (h : ∀ c ∈ cs, isBlank c = false) :
    trimChars cs = cs := by
  have hdrop : ∀ {ds : List Char}, (∀ c ∈ ds, isBlank c = false) → ds.dropWhile isBlank = ds := by
    intro ds hds
    cases ds with
    | nil => rfl
    | cons c ds => exact List.dropWhile_cons_of_neg (by rw [hds c List.mem_cons_self]; decide)
  have hrev : ∀ c ∈ cs.reverse, isBlank c = false := fun c hc => h c (List.mem_reverse.mp hc)
  rw [trimChars, trimStart, hdrop h, trimEnd, hdrop hrev, List.reverse_reverse]

/-- A text whose first and last characters are not blank stays as it is. -/
theorem trimChars_eq_self {first last : Char} {cs : List Char} (hhead : cs.head? = some first)
    (hlast : cs.getLast? = some last) (hfirst : isBlank first = false)
    (hend : isBlank last = false) : trimChars cs = cs := by
  obtain ⟨tail, rfl⟩ : ∃ tail, cs = first :: tail := by
    cases cs with
    | nil => cases hhead
    | cons c tail => cases hhead; exact ⟨tail, rfl⟩
  rw [trimChars, trimStart_cons hfirst, trimEnd]
  have hrev : (first :: tail).reverse.head? = some last := by rw [List.head?_reverse, hlast]
  generalize hcs : (first :: tail).reverse = back at hrev
  cases back with
  | nil => cases hrev
  | cons c back =>
    cases hrev
    rw [List.dropWhile_cons_of_neg (by rw [hend]; decide), ← hcs, List.reverse_reverse]

end DoubleEntry.Text
