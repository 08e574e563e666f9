import DoubleEntry.Json.Basic
import DoubleEntry.Json.Reader
import DoubleEntry.Proofs.Results
import DoubleEntry.Proofs.Text.Digits

/-!
# JSON numbers are read from their own text

A whole number is read as it was written. The text of a double is a number with a point or an
exponent, so the reader goes over all of it and makes a double of what it has seen (`reads_real`).
Which double that is, is a matter of rounding; what matters here is that it depends on nothing but
the text of the number (`Binary64.reread`).
-/

namespace DoubleEntry.Json

open Text

/-! ## Reading a text in front of another -/

/-- No number goes on with this text. -/
def EndsNumber (rest : List Char) : Prop :=
  ∀ c ∈ rest.head?, c.isDigit = false ∧ c ≠ '.' ∧ c ≠ 'e' ∧ c ≠ 'E'

theorem endsNumber_nil : EndsNumber [] := fun _ hc => nomatch hc

theorem endsNumber_cons {c : Char} {cs : List Char}
    (h : c.isDigit = false ∧ c ≠ '.' ∧ c ≠ 'e' ∧ c ≠ 'E') : EndsNumber (c :: cs) := by
  intro x hx
  cases hx
  exact h

theorem EndsNumber.endsDigits {rest : List Char} (h : EndsNumber rest) : EndsDigits rest :=
  fun c hc => (h c hc).1

/-- In front of any text that ends a number, the reader takes all of this text and has this
result, or none. -/
def Reads {α : Type} (read : Cursor → Read α) (text : List Char) (result : Option α) : Prop :=
  ∀ rest passed, EndsNumber rest →
    ∃ passed', (read ⟨text ++ rest, passed⟩).toOption = result.map (·, ⟨rest, passed'⟩)

/-- A reader that goes on with another one after the first part of a text. -/
theorem Reads.append {α : Type} {read next : Cursor → Read α} {front back : List Char}
    {result : Option α} (hnext : Reads next back result)
    (hread : ∀ rest passed, EndsNumber rest → ∃ passed',
      read ⟨front ++ (back ++ rest), passed⟩ = next ⟨back ++ rest, passed'⟩) :
    Reads read (front ++ back) result := by
  intro rest passed hrest
  obtain ⟨middle, heq⟩ := hread rest passed hrest
  rw [List.append_assoc, heq]
  exact hnext rest middle hrest

/-! ## Digits -/

theorem skipDigits_digits {ds rest : List Char} (hds : AllDigits ds) (hrest : EndsDigits rest)
    (passed : Nat) :
    skipDigits ⟨ds ++ rest, passed⟩ = (ds.length, ⟨rest, passed + ds.length⟩) := by
  rw [skipDigits]
  dsimp only
  rw [takeWhile_isDigit hds hrest, List.drop_left]

/-- Digits that fit 64 bits are all taken. -/
theorem takeDigits_digits {ds rest : List Char} (hds : AllDigits ds) (hrest : EndsDigits rest)
    (acc : Nat) (hvalue : Nat.ofDigitChars 10 ds acc < pow2 64) (count passed : Nat) :
    takeDigits acc count (ds ++ rest) passed =
      (Nat.ofDigitChars 10 ds acc, count + ds.length, ⟨rest, passed + ds.length⟩) := by
  induction ds generalizing acc count passed with
  | nil =>
    cases rest with
    | nil => rfl
    | cons c rest => rw [List.nil_append, takeDigits, digitValue?_eq_none (hrest c rfl)]; rfl
  | cons c ds ih =>
    obtain ⟨hc, hds⟩ := hds.of_cons
    rw [Nat.ofDigitChars_cons, Nat.mul_comm] at hvalue ⊢
    have hnext := Nat.lt_of_le_of_lt (le_ofDigitChars ds _) hvalue
    rw [List.cons_append, takeDigits, digitValue?_of_isDigit hc]
    dsimp only
    rw [if_pos hnext, ih hds _ hvalue, List.length_cons, Nat.add_assoc, Nat.add_assoc,
      Nat.add_comm 1]

/-- Of any digits some are taken, and which they are does not depend on what follows. -/
theorem exists_takeDigits {ds : List Char} (hds : AllDigits ds) (acc count : Nat) :
    ∃ m k left, AllDigits left ∧ ∀ rest passed, EndsDigits rest → ∃ passed',
      takeDigits acc count (ds ++ rest) passed = (m, k, ⟨left ++ rest, passed'⟩) := by
  induction ds generalizing acc count with
  | nil =>
    refine ⟨acc, count, [], nofun, fun rest passed hrest => ⟨passed, ?_⟩⟩
    cases rest with
    | nil => rfl
    | cons c rest => rw [List.nil_append, takeDigits, digitValue?_eq_none (hrest c rfl)]
  | cons c ds ih =>
    obtain ⟨hc, hds'⟩ := hds.of_cons
    by_cases hfits : acc * 10 + (c.toNat - '0'.toNat) < pow2 64
    · obtain ⟨m, k, left, hleft, htake⟩ := ih hds' (acc * 10 + (c.toNat - '0'.toNat)) (count + 1)
      refine ⟨m, k, left, hleft, fun rest passed hrest => ?_⟩
      obtain ⟨passed', heq⟩ := htake rest (passed + 1) hrest
      refine ⟨passed', ?_⟩
      rw [List.cons_append, takeDigits, digitValue?_of_isDigit hc]
      dsimp only
      rw [if_pos hfits, heq]
    · refine ⟨acc, count, c :: ds, hds, fun rest passed _ => ⟨passed, ?_⟩⟩
      rw [List.cons_append, takeDigits, digitValue?_of_isDigit hc]
      dsimp only
      rw [if_neg hfits]

/-! ## Whole numbers -/

section Whole

variable {negative : Bool} {n : Nat} {rest : List Char}

/-- The digits of a number of 64 bits are its significand. -/
theorem readNumber_natChars (negative : Bool) (hn : n < pow2 64) (hrest : EndsDigits rest)
    (passed : Nat) :
    ∃ passed', readNumber negative ⟨natChars n ++ rest, passed⟩ =
      afterWhole negative n ⟨rest, passed'⟩ := by
  by_cases hzero : n = 0
  · subst hzero
    refine ⟨passed + 1, ?_⟩
    rw [natChars, Nat.toDigits_zero]
    cases rest with
    | nil => rfl
    | cons c rest =>
      have hc : ¬ c.isDigit = true := by rw [hrest c rfl]; decide
      rw [readNumber]
      exact if_neg hc
  · obtain ⟨c, hhead, hc⟩ := leads_natChars hzero
    obtain ⟨tail, hcs⟩ := List.head?_eq_some_iff.mp hhead
    have hds := allDigits_natChars n
    have htake := takeDigits_digits hds hrest 0 (by rwa [value_natChars]) 0 passed
    have hskip : skipDigits ⟨rest, passed + (natChars n).length⟩ =
        (0, ⟨rest, passed + (natChars n).length⟩) := skipDigits_digits allDigits_nil hrest _
    rw [value_natChars] at htake
    rw [hcs] at hds htake hskip ⊢
    refine ⟨passed + (c :: tail).length, ?_⟩
    rw [List.cons_append] at htake ⊢
    rw [readNumber]
    dsimp only
    rw [if_neg hc, if_pos hds.of_cons.1, htake]
    dsimp only
    rw [hskip]
    rfl

/-- A significand that nothing follows is a whole number. -/
theorem afterWhole_end (hrest : EndsNumber rest) (passed : Nat) :
    afterWhole negative n ⟨rest, passed⟩ =
      if !negative then .ok (.whole n, ⟨rest, passed⟩)
      else if 0 < n ∧ n ≤ pow2 63 then .ok (.whole (-(n : Int)), ⟨rest, passed⟩)
      else finishDouble true n 0 ⟨rest, passed⟩ := by
  unfold afterWhole
  split
  · next hc => exact absurd rfl (hrest _ (congrArg List.head? hc)).2.1
  · next hc => exact absurd rfl (hrest _ (congrArg List.head? hc)).2.2.1
  · next hc => exact absurd rfl (hrest _ (congrArg List.head? hc)).2.2.2
  · rfl

theorem reads_natChars (hn : n < pow2 64) :
    Reads (readNumber false) (natChars n) (some (.whole n)) := by
  intro rest passed hrest
  obtain ⟨passed', heq⟩ := readNumber_natChars false hn hrest.endsDigits passed
  exact ⟨passed', by rw [heq, afterWhole_end hrest]; rfl⟩

theorem reads_neg_natChars (hpos : 0 < n) (hn : n ≤ pow2 63) :
    Reads (readNumber true) (natChars n) (some (.whole (-(n : Int)))) := by
  intro rest passed hrest
  have hlt : n < pow2 64 := Nat.lt_of_le_of_lt hn (by decide)
  obtain ⟨passed', heq⟩ := readNumber_natChars true hlt hrest.endsDigits passed
  refine ⟨passed', ?_⟩
  rw [heq, afterWhole_end hrest, if_neg (by decide), if_pos ⟨hpos, hn⟩]
  rfl

end Whole

/-! ## Doubles -/

/-- An exponent with its sign. -/
def IsExponent (text : List Char) : Prop :=
  ∃ sign ds, text = sign :: ds ∧ (sign = '+' ∨ sign = '-') ∧ AllDigits ds ∧ ds ≠ []

/-- The digits in front of a point: no zero leads others. -/
def IsWhole (text : List Char) : Prop :=
  text = ['0'] ∨ AllDigits text ∧ Leads text

/-- The end of a number with a point: nothing, or an exponent. -/
def IsBack (text : List Char) : Prop :=
  text = [] ∨ ∃ exponent, text = 'e' :: exponent ∧ IsExponent exponent

/-- The text of a double, apart from its sign. -/
inductive IsReal : List Char → Prop where
  | point {whole fraction back : List Char} (hwhole : IsWhole whole)
      (hfraction : AllDigits fraction) (hne : fraction ≠ []) (hback : IsBack back) :
      IsReal (whole ++ '.' :: (fraction ++ back))
  | power {whole exponent : List Char} (hwhole : IsWhole whole) (hexponent : IsExponent exponent) :
      IsReal (whole ++ 'e' :: exponent)

/-- A number with a point and no exponent. -/
theorem IsReal.plain {whole fraction : List Char} (hwhole : IsWhole whole)
    (hfraction : AllDigits fraction) (hne : fraction ≠ []) :
    IsReal (whole ++ '.' :: fraction) := by
  have hpoint := IsReal.point hwhole hfraction hne (Or.inl rfl)
  rwa [List.append_nil] at hpoint

section Doubles

variable (negative : Bool) (m : Nat) (e : Int)

theorem reads_finishDouble : ∃ y, Reads (finishDouble negative m e) [] y := by
  refine ⟨(((Binary64.ofNat m).bind fun x => scaleDouble x e 8).map fun y =>
    .real (if negative then y.neg else y)), fun rest passed _ => ⟨passed, ?_⟩⟩
  rw [finishDouble, List.nil_append]
  cases (Binary64.ofNat m).bind fun x => scaleDouble x e 8 <;> rfl

theorem reads_exponent {text : List Char} (h : IsExponent text) :
    ∃ y, Reads (readExponent negative m e) text y := by
  obtain ⟨sign, ds, rfl, hsign, hds, hne⟩ := h
  have hsees : ∀ rest, EndsNumber rest → ∃ c tail, ds ++ rest = c :: tail ∧ c.isDigit = true ∧
      (c :: tail).takeWhile Char.isDigit = ds ∧ ∀ passed,
        skipDigits ⟨c :: tail, passed⟩ = (ds.length, ⟨rest, passed + ds.length⟩) := by
    intro rest hrest
    obtain ⟨c, tail, heq, hc⟩ := hds.exists_head hne rest
    exact ⟨c, tail, heq, hc, heq ▸ takeWhile_isDigit hds hrest.endsDigits,
      fun passed => heq ▸ skipDigits_digits hds hrest.endsDigits passed⟩
  by_cases hlimit : Nat.ofDigitChars 10 ds 0 < exponentLimit
  · rcases hsign with rfl | rfl
    · obtain ⟨y, hy⟩ := reads_finishDouble negative m (e + (Nat.ofDigitChars 10 ds 0 : Int))
      refine ⟨y, fun rest passed hrest => ?_⟩
      obtain ⟨c, tail, heq, hc, htake, hskip⟩ := hsees rest hrest
      simp only [List.cons_append, heq, readExponent, Cursor.advance, hc, hskip, htake, hlimit]
      exact hy rest _ hrest
    · obtain ⟨y, hy⟩ := reads_finishDouble negative m (e - (Nat.ofDigitChars 10 ds 0 : Int))
      refine ⟨y, fun rest passed hrest => ?_⟩
      obtain ⟨c, tail, heq, hc, htake, hskip⟩ := hsees rest hrest
      simp only [List.cons_append, heq, readExponent, Cursor.advance, hc, hskip, htake, hlimit]
      exact hy rest _ hrest
  · by_cases hgreat : m ≠ 0 ∧ sign = '+'
    · obtain ⟨hm, rfl⟩ := hgreat
      refine ⟨none, fun rest passed hrest => ⟨passed, ?_⟩⟩
      obtain ⟨c, tail, heq, hc, htake, hskip⟩ := hsees rest hrest
      simp [heq, readExponent, Cursor.advance, hc, htake, hlimit, hm, Except.toOption]
    · refine ⟨some (.real { Binary64.zero with negative := negative }),
        fun rest passed hrest => ⟨passed + 1 + ds.length, ?_⟩⟩
      obtain ⟨c, tail, heq, hc, htake, hskip⟩ := hsees rest hrest
      have hzero : sign = '+' → m = 0 := fun hplus =>
        Decidable.byContradiction fun hm => hgreat ⟨hm, hplus⟩
      rcases hsign with rfl | rfl
      · simp [heq, readExponent, Cursor.advance, hc, hskip, htake, hlimit, hzero rfl,
          Except.toOption, Char.utf8Size]
      · simp [heq, readExponent, Cursor.advance, hc, hskip, htake, hlimit, Except.toOption,
          Char.utf8Size]

theorem reads_afterDigits {text : List Char} (h : IsBack text) :
    ∃ y, Reads (afterDigits negative m e) text y := by
  rcases h with rfl | ⟨exponent, rfl, hexponent⟩
  · obtain ⟨y, hy⟩ := reads_finishDouble negative m e
    refine ⟨y, fun rest passed hrest => ?_⟩
    obtain ⟨passed', heq⟩ := hy rest passed hrest
    refine ⟨passed', ?_⟩
    rw [← heq, List.nil_append, afterDigits]
    split
    · next hc => exact absurd rfl (hrest _ (congrArg List.head? hc)).2.2.1
    · next hc => exact absurd rfl (hrest _ (congrArg List.head? hc)).2.2.2
    · rfl
  · obtain ⟨y, hy⟩ := reads_exponent negative m e hexponent
    rw [← List.singleton_append]
    exact ⟨y, hy.append fun rest passed _ => ⟨passed + 1, rfl⟩⟩

theorem reads_fraction {fraction back : List Char} (hfraction : AllDigits fraction)
    (hne : fraction ≠ []) (hback : IsBack back) :
    ∃ y, Reads (readFraction negative m e) (fraction ++ back) y := by
  obtain ⟨m', count, left, hleft, htake⟩ := exists_takeDigits hfraction m 0
  obtain ⟨y, hy⟩ := reads_afterDigits negative m' (if count = 0 then e else e - count) hback
  refine ⟨y, hy.append fun rest passed hrest => ?_⟩
  have hends : EndsDigits (back ++ rest) := by
    rcases hback with rfl | ⟨exponent, rfl, -⟩
    · exact hrest.endsDigits
    · exact endsDigits_cons (by decide)
  obtain ⟨middle, heq⟩ := htake (back ++ rest) passed hends
  obtain ⟨c, tail, hhead, hc⟩ := hfraction.exists_head hne (back ++ rest)
  refine ⟨middle + left.length, ?_⟩
  rw [readFraction, heq]
  dsimp only
  rw [skipDigits_digits hleft hends, hhead]
  dsimp only
  rw [if_pos hc]
  split <;> rfl

theorem readNumber_digits {ds : List Char} (hds : AllDigits ds) (hhead : Leads ds) :
    ∃ m extra, ∀ rest passed, EndsDigits rest → ∃ passed',
      readNumber negative ⟨ds ++ rest, passed⟩ =
        if extra = 0 then afterWhole negative m ⟨rest, passed'⟩
        else afterLongWhole negative m extra ⟨rest, passed'⟩ := by
  obtain ⟨c, hhead, hc⟩ := hhead
  obtain ⟨m, count, left, hleft, htake⟩ := exists_takeDigits hds 0 0
  refine ⟨m, left.length, fun rest passed hrest => ?_⟩
  obtain ⟨middle, heq⟩ := htake rest passed hrest
  obtain ⟨tail, rfl⟩ : ∃ tail, ds = c :: tail := List.head?_eq_some_iff.mp hhead
  have hskip := skipDigits_digits hleft hrest middle
  rw [List.cons_append] at heq ⊢
  rw [readNumber]
  dsimp only
  rw [if_neg hc, if_pos hds.of_cons.1, heq]
  dsimp only
  rw [hskip]
  cases left with
  | nil => exact ⟨middle, rfl⟩
  | cons x left => exact ⟨_, rfl⟩

/-- What comes behind the digits in front is a fraction or an exponent of these digits. -/
theorem readNumber_whole {whole : List Char} (h : IsWhole whole) : ∃ m e, ∀ rest passed,
    (∃ passed', readNumber negative ⟨whole ++ '.' :: rest, passed⟩ =
      readFraction negative m e ⟨rest, passed'⟩) ∧
    (∃ passed', readNumber negative ⟨whole ++ 'e' :: rest, passed⟩ =
      readExponent negative m e ⟨rest, passed'⟩) := by
  rcases h with rfl | ⟨hds, hhead⟩
  · exact ⟨0, 0, fun rest passed => ⟨⟨passed + 1 + 1, rfl⟩, ⟨passed + 1 + 1, rfl⟩⟩⟩
  · obtain ⟨m, extra, hread⟩ := readNumber_digits negative hds hhead
    refine ⟨m, extra, fun rest passed => ⟨?_, ?_⟩⟩
    · obtain ⟨middle, heq⟩ := hread ('.' :: rest) passed (endsDigits_cons (by decide))
      refine ⟨middle + 1, heq.trans ?_⟩
      cases extra <;> rfl
    · obtain ⟨middle, heq⟩ := hread ('e' :: rest) passed (endsDigits_cons (by decide))
      refine ⟨middle + 1, heq.trans ?_⟩
      cases extra <;> rfl

theorem reads_real {text : List Char} (h : IsReal text) :
    ∃ y, Reads (readNumber negative) text y := by
  cases h with
  | @point whole fraction back hwhole hfraction hne hback =>
    obtain ⟨m, e, hread⟩ := readNumber_whole negative hwhole
    obtain ⟨y, hy⟩ := reads_fraction negative m e hfraction hne hback
    refine ⟨y, ?_⟩
    rw [← List.singleton_append, ← List.append_assoc]
    refine hy.append fun rest passed _ => ?_
    rw [List.append_assoc]
    exact (hread _ passed).1
  | power hwhole hexponent =>
    obtain ⟨m, e, hread⟩ := readNumber_whole negative hwhole
    obtain ⟨y, hy⟩ := reads_exponent negative m e hexponent
    refine ⟨y, ?_⟩
    rw [← List.singleton_append, ← List.append_assoc]
    refine hy.append fun rest passed _ => ?_
    rw [List.append_assoc]
    exact (hread _ passed).2

end Doubles

end DoubleEntry.Json

/-! ## The text of a double -/

namespace DoubleEntry.Binary64

open Text Json

theorem stripZeros_ne_zero {c : Nat} (h : c ≠ 0) (k : Int) (fuel : Nat) :
    (stripZeros c k fuel).1 ≠ 0 := by
  induction fuel generalizing c k with
  | zero => exact h
  | succ fuel ih =>
    unfold stripZeros
    split
    · exact ih (by omega) _
    · exact h

/-- A power of ten that is at most `num / den`. -/
def IsBelow (num den : Nat) (k : Int) : Prop := den * pow10 k.toNat ≤ num * pow10 (-k).toNat

theorem IsBelow.of_le {num den : Nat} {k k' : Int} (h : IsBelow num den k) (hle : k' ≤ k) :
    IsBelow num den k' :=
  calc den * pow10 k'.toNat ≤ den * pow10 k.toNat := Nat.mul_le_mul_left _ (pow10_le (by omega))
    _ ≤ num * pow10 (-k).toNat := h
    _ ≤ num * pow10 (-k').toNat := Nat.mul_le_mul_left _ (pow10_le (by omega))

/-- The decimal exponent of a number is not too great for it. -/
theorem isBelow_decimalExponent {num den : Nat} (hnum : 0 < num) (hden : 0 < den) :
    IsBelow num den (decimalExponent num den) := by
  unfold IsBelow decimalExponent
  split
  · next hle =>
    have hquotient := pow10_le_of_length_natChars (Nat.ne_of_gt (Nat.div_pos hle hden))
    have hpos : 0 < (natChars (num / den)).length := Nat.length_toDigits_pos
    generalize (natChars (num / den)).length = length at hquotient hpos
    rw [show ((length : Int) - 1).toNat = length - 1 by omega,
      show (-((length : Int) - 1)).toNat = 0 by omega, pow10_zero, Nat.mul_one, Nat.mul_comm]
    exact Nat.le_trans (Nat.mul_le_mul_right _ hquotient) (Nat.div_mul_le_self num den)
  · have hpos : 0 < (natChars ((den - 1) / num)).length := Nat.length_toDigits_pos
    have hquotient := (length_natChars_le hpos).mp (Nat.le_refl _)
    generalize (natChars ((den - 1) / num)).length = length at hquotient
    have hlt := (Nat.div_lt_iff_lt_mul hnum).mp hquotient
    rw [show (-(length : Int)).toNat = 0 by omega, show (- -(length : Int)).toNat = length by omega,
      pow10_zero, Nat.mul_one, Nat.mul_comm]
    exact Nat.le_of_pred_lt hlt

theorem searchDigits_ne_zero (tie : Tie) {i : Interval} {top : Int}
    (htop : IsBelow i.value i.den top) (hden : 0 < i.den) {digits : Nat} (hdigits : 0 < digits)
    (fuel : Nat) : (searchDigits tie i top digits fuel).1 ≠ 0 := by
  induction fuel generalizing digits with
  | zero =>
    have hbelow : IsBelow i.value i.den (top - digits + 1) := htop.of_le (by omega)
    have hpos : 0 < i.den * pow10 (top - digits + 1).toNat := Nat.mul_pos hden (pow10_pos _)
    exact Nat.ne_of_gt (Nat.div_pos hbelow hpos)
  | succ fuel ih =>
    unfold searchDigits
    dsimp only
    split
    · split
      · exact ih (Nat.succ_pos _)
      · assumption
    · exact ih (Nat.succ_pos _)

theorem shortest_ne_zero (tie : Tie) {x : Binary64} (h : x.isZero = false) :
    (x.shortest tie).1 ≠ 0 := by
  have hmantissa : 0 < x.mantissa := Nat.pos_of_ne_zero (beq_eq_false_iff_ne.mp h)
  have hvalue : 0 < x.interval.value :=
    Nat.mul_pos (Nat.mul_pos (by decide) hmantissa) (pow2_pos _)
  have hden : 0 < x.interval.den := Nat.mul_pos (by decide) (pow2_pos _)
  unfold shortest
  dsimp only
  exact stripZeros_ne_zero (searchDigits_ne_zero tie (isBelow_decimalExponent hvalue hden) hden
    Nat.zero_lt_one _) _ _

theorem isReal_positional {ds : List Char} (hds : AllDigits ds) (hhead : Leads ds) (k : Int) :
    IsReal (positional ds k ['.', '0']) := by
  obtain ⟨c, hc, hne⟩ := hhead
  have hzero : AllDigits ['0'] := allDigits_zeros 1
  unfold positional
  split
  · exact .plain (Or.inr ⟨hds.append (allDigits_zeros _), c,
      by rw [List.head?_append, hc]; rfl, hne⟩) hzero (List.cons_ne_nil _ _)
  · next hneg =>
    dsimp only
    split
    · next hlt =>
      have hlead : (ds.take (ds.length - (-k).toNat)).head? = some c := by
        rw [List.head?_take, if_neg (by omega), hc]
      exact .plain (Or.inr ⟨hds.take _, c, hlead, hne⟩) (hds.drop _)
        (List.ne_nil_of_length_pos (by rw [List.length_drop]; omega))
    · have hne' : ds ≠ [] := by
        rintro rfl
        cases hc
      exact .plain (Or.inl rfl) ((allDigits_zeros ((-k).toNat - ds.length)).append hds)
        (by simp [hne'])

theorem isReal_scientific {ds : List Char} (hds : AllDigits ds) (hhead : Leads ds) (e : Int) :
    IsReal (scientific ds e) := by
  have hexponent : IsExponent ((if e < 0 then '-' else '+') :: natChars e.natAbs) :=
    ⟨_, _, rfl, by split <;> simp, allDigits_natChars _, natChars_ne_nil _⟩
  obtain ⟨c, hc, hne⟩ := hhead
  obtain ⟨ds, rfl⟩ : ∃ tail, ds = c :: tail := List.head?_eq_some_iff.mp hc
  have hwhole : IsWhole [c] := Or.inr ⟨fun x hx => hds x (by simp_all), c, rfl, hne⟩
  cases ds with
  | nil => exact .power hwhole hexponent
  | cons d ds =>
    exact .point hwhole hds.of_cons.2 (List.cons_ne_nil _ _) (Or.inr ⟨_, rfl, hexponent⟩)

/-- **The text of a double is a sign and a number with a point or an exponent.** -/
theorem exists_jsonChars (x : Binary64) : ∃ body, IsReal body ∧
    x.jsonChars = if x.negative then '-' :: body else body := by
  refine ⟨_, ?_, rfl⟩
  split
  · exact .plain (Or.inl rfl) (allDigits_zeros 1) (List.cons_ne_nil _ _)
  · next hzero =>
    have hdigits := leads_natChars (shortest_ne_zero .toEven (Bool.eq_false_iff.mpr hzero))
    dsimp only
    split
    · exact isReal_positional (allDigits_natChars _) hdigits _
    · exact isReal_scientific (allDigits_natChars _) hdigits _

end DoubleEntry.Binary64
