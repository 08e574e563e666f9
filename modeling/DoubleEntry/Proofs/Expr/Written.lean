import DoubleEntry.Proofs.Calendar
import DoubleEntry.Proofs.Decimal.Written
import DoubleEntry.Proofs.Expr.Quoted
import DoubleEntry.Proofs.Json.Accepted
import DoubleEntry.Proofs.Uuid

/-!
# Expressions are read from their canonical text

The reader takes what the printer writes: a text in quotes, a number, a word, or a constructor with
a quoted argument. Every constructor hands its argument to the reader of its type, so a literal
comes back as far as its own text does. There are two ways in which it may not:

* an instant outside the years 0 to 9999 is written with a sign in front of its year, and the reader
  of timestamps takes four digits only;
* a double in a JSON literal is read as what its shortest text denotes, which is not always the
  double the text was made from.

`ParamValue.Durable` excludes the two. An expression that was read once (`Expr.WellFormed`) is read
again from its text as it is exactly if it is durable (`Expr.ofString_toString_iff`). Of all
expressions, however they were made, `Expr.Expressible` says which are read back as the same one,
with the scale of a decimal (`Expr.reads_own_text`).
-/

namespace DoubleEntry

open Text

/-! ## Literals that their text denotes -/

/-- What holds of every literal that is read: no signed zero, an extra second only at the end of a
minute, and JSON that is not too deep. -/
def ParamValue.WellFormed : ParamValue → Prop
  | .decimal d => d.signedZero = false
  | .timestamp t => t.Regular
  | .json j => Json.Readable Json.maxDepth j
  | _ => True

/-- The text of a literal denotes this literal. -/
def ParamValue.Durable : ParamValue → Prop
  | .timestamp t => 0 ≤ t.date.year ∧ t.date.year ≤ 9999
  | .json j => ∀ x ∈ j.reals, x.ReadsBack
  | _ => True

namespace Expr

/-- What holds of every expression that is read. -/
def WellFormed : Expr → Prop
  | .literal v => v.WellFormed
  | .param name => isIdentifier name.toList = true

def Durable (e : Expr) : Prop := ∀ v, e.literal? = some v → v.Durable

/-! ## Literals by their first character -/

theorem referenceName?_eq_none {c : Char} (h : c ≠ 'p') (cs : List Char) :
    referenceName? (c :: cs) = none := by
  refine if_neg fun heq => h ?_
  have hhead := congrArg List.head? heq
  rw [List.head?_take] at hhead
  exact Option.some.inj hhead

/-- A text that does not begin like a reference is one literal. -/
theorem read_literal {c : Char} (h : c ≠ 'p') {cs : List Char}
    {value : Except ReadError ParamValue}
    (hread : readLiteral (c :: cs) = value.map (·, [])) :
    read (c :: cs) = value.map .literal := by
  rw [read, referenceName?_eq_none h, hread]
  cases value <;> rfl

theorem read_quoted {quote : Char} (hquote : IsQuote quote) {cs text : List Char}
    (h : Quoted quote cs text) : read cs = .ok (.literal (.string (String.ofList text))) := by
  have hread : readQuoted cs = .ok (text, []) :=
    readQuoted_iff.mpr ⟨quote, cs, (List.append_nil cs).symm, h⟩
  obtain ⟨content, rfl, -⟩ := h
  have hp : quote ≠ 'p' := by rcases hquote with rfl | rfl <;> decide
  have hliteral : readLiteral (quote :: (content ++ [quote])) =
      (Except.ok (.string (String.ofList text))).map (·, []) := by
    rw [readLiteral, if_pos (show quote = '\'' ∨ quote = '"' from hquote), hread]
    rfl
  exact read_literal hp hliteral

theorem read_quoteChars (cs : List Char) :
    read (quoteChars cs) = .ok (.literal (.string (String.ofList cs))) :=
  read_quoted (Or.inl rfl) (quoted_quoteChars cs)

/-! ### Numbers -/

/-- The reader of numbers goes over all of this text. -/
def IsNumber (point : Bool) (body : List Char) : Prop :=
  (∃ c cs, body = c :: cs ∧ c.isDigit = true) ∧ takeNumber false body = (body, point, [])

theorem takeNumber_digits {ds : List Char} (hds : AllDigits ds) (point : Bool) (rest : List Char) :
    takeNumber point (ds ++ rest) =
      (ds ++ (takeNumber point rest).1, (takeNumber point rest).2) := by
  induction ds with
  | nil => rfl
  | cons c ds ih =>
    obtain ⟨hc, hds⟩ := hds.of_cons
    rw [List.cons_append, takeNumber, if_pos hc, ih hds]
    rfl

theorem takeNumber_point (rest : List Char) :
    takeNumber false ('.' :: rest) =
      ('.' :: (takeNumber true rest).1, (takeNumber true rest).2) := by
  rw [takeNumber]
  rfl

theorem isNumber_digits {ds : List Char} (hds : AllDigits ds) (hne : ds ≠ []) :
    IsNumber false ds := by
  have htake := takeNumber_digits hds false []
  rw [List.append_nil, takeNumber, List.append_nil] at htake
  exact ⟨by simpa using hds.exists_head hne [], htake⟩

theorem isNumber_placePoint {ds : List Char} (hds : AllDigits ds) {scale : Nat} (hscale : scale ≠ 0)
    (hlength : scale < ds.length) : IsNumber true (Decimal.placePoint ds scale) := by
  refine ⟨Decimal.placePoint_head hds hlength, ?_⟩
  have htail := takeNumber_digits (hds.drop (ds.length - scale)) true []
  rw [List.append_nil, takeNumber, List.append_nil] at htail
  rw [Decimal.placePoint, if_neg hscale, takeNumber_digits (hds.take _), takeNumber_point, htail]

/-- A number behind a minus sign, or one that begins with a digit. -/
theorem read_number (negative : Bool) {point : Bool} {body : List Char}
    (hhead : negative = true ∨ ∃ c cs, body = c :: cs ∧ c.isDigit = true)
    (htake : takeNumber false body = (body, point, [])) :
    read (withSign negative body) = (numberValue point (withSign negative body)).map .literal := by
  cases negative with
  | true =>
    refine read_literal (by decide) ?_
    rw [readLiteral, if_neg (by decide), if_pos (Or.inl rfl), readNumber]
    dsimp only
    rw [htake]
    rfl
  | false =>
    obtain ⟨c, cs, rfl, hc⟩ := hhead.resolve_left Bool.false_ne_true
    have hne : ∀ {x : Char}, x.isDigit = false → c ≠ x := fun hx => ne_of_isDigit hc hx
    refine read_literal (hne rfl) ?_
    have hquote : ¬ (c = '\'' ∨ c = '"') := fun h => h.elim (hne rfl) (hne rfl)
    rw [readLiteral, if_neg hquote, if_pos (Or.inr hc)]
    have hminus : c ≠ '-' := hne rfl
    simp [readNumber, withSign, hminus, htake]

/-! ### Words and constructors -/

theorem takeWhile_word {word : List Char} (hword : word.all continuesName = true) {c : Char}
    (hc : continuesName c = false) (rest : List Char) :
    (word ++ c :: rest).takeWhile continuesName = word ∧
      (word ++ c :: rest).dropWhile continuesName = c :: rest := by
  rw [List.all_eq_true] at hword
  have hstop : ¬ continuesName c = true := by rw [hc]; decide
  rw [List.takeWhile_append_of_pos hword, List.dropWhile_append_of_pos hword,
    List.takeWhile_cons_of_neg hstop, List.dropWhile_cons_of_neg hstop, List.append_nil]
  exact ⟨rfl, rfl⟩

/-- The words that take a quoted text. -/
def constructors : List String := ["uuid", "date", "timestamp", "decimal", "json"]

/-- A constructor begins with a letter, and not as a parameter does. -/
theorem exists_letter_of_mem_constructors {word : String} (hword : word ∈ constructors) :
    ∃ c cs, word.toList = c :: cs ∧ c.isAlpha = true ∧ c.isDigit = false ∧ c ≠ 'p' := by
  have hwords : ∀ word ∈ constructors, (word.toList.head?.any fun c =>
      c.isAlpha && !c.isDigit && c != 'p') = true := by decide
  obtain ⟨c, hhead, hc⟩ := (Option.any_eq_true _ _).mp (hwords word hword)
  obtain ⟨cs, hcs⟩ := List.head?_eq_some_iff.mp hhead
  simp only [Bool.and_eq_true, Bool.not_eq_true', bne_iff_ne] at hc
  exact ⟨c, cs, hcs, hc.1.1, hc.1.2, hc.2⟩

theorem readWord_apply {word : String} (hword : word ∈ constructors)
    {quoted argument rest : List Char} (hquoted : readQuoted quoted = .ok (argument, ')' :: rest)) :
    readWord (word.toList ++ '(' :: quoted) = (construct word argument).map (·, rest) := by
  have hwords : ∀ word ∈ constructors, word.toList.all continuesName = true ∧ word ≠ "true" ∧
      word ≠ "false" := by decide
  obtain ⟨hall, htrue, hfalse⟩ := hwords word hword
  obtain ⟨htake, hdrop⟩ := takeWhile_word hall (c := '(') (by decide) quoted
  rw [readWord, htake, hdrop, String.ofList_toList, if_neg htrue, if_neg hfalse]
  split
  · next heq =>
    obtain rfl := (List.cons.inj heq).2
    rw [hquoted]
    rfl
  · next hopen => exact absurd rfl (hopen _)

/-- A constructor makes its value of the argument without its quotes. -/
theorem read_apply {word : String} (hword : word ∈ constructors) {quoted argument : List Char}
    (hquoted : readQuoted quoted = .ok (argument, [')'])) :
    read (word.toList ++ '(' :: quoted) = (construct word argument).map .literal := by
  have hread := readWord_apply hword hquoted
  obtain ⟨c, cs, hcs, halpha, hdigit, hp⟩ := exists_letter_of_mem_constructors hword
  have hne : ∀ {d : Char}, d.isAlpha = false → c ≠ d := by
    rintro d hd rfl
    cases halpha.symm.trans hd
  have hquote : c ≠ '\'' := hne (by decide)
  have hquote' : c ≠ '"' := hne (by decide)
  have hminus : c ≠ '-' := hne (by decide)
  rw [hcs, List.cons_append] at hread ⊢
  refine read_literal hp ?_
  rw [readLiteral, if_neg (by simp [hquote, hquote']), if_neg (by simp [hminus, hdigit]),
    if_pos halpha, hread]

theorem read_applyChars {word : String} (hword : word ∈ constructors) (argument : List Char) :
    read (applyChars word argument) = (construct word argument).map .literal :=
  read_apply hword (readQuoted_iff.mpr ⟨_, _, rfl, quoted_quoteChars argument⟩)

/-! ## The text of an expression -/

theorem read_integer (i : Int64) :
    read (literalChars (.integer i)) = .ok (.literal (.integer i)) := by
  have hds := isNumber_digits (allDigits_natChars i.toInt.natAbs) (natChars_ne_nil _)
  have hread := read_number (decide (i.toInt < 0)) (Or.inr hds.1) hds.2
  have htext : withSign (decide (i.toInt < 0)) (natChars i.toInt.natAbs) = intChars i.toInt := by
    simp only [withSign, intChars, decide_eq_true_eq]
  rw [htext, numberValue, if_neg Bool.false_ne_true, readInt64_intChars] at hread
  rw [literalChars, hread]
  dsimp only
  rw [Int64.ofInt_toInt]
  rfl

theorem read_decimal (d : Decimal) : read (literalChars (.decimal d)) =
    .ok (.literal (.decimal (.ofCoeff d.coeff d.scale d.coeff_lt d.scale_le))) := by
  have hexact := d.readExact_chars
  rw [literalChars]
  split
  · rw [read_applyChars (by decide), construct, hexact]
    rfl
  · next hscale =>
    have hnumber := isNumber_placePoint
      ((allDigits_natChars d.coeff.natAbs).padZeros (d.scale + 1)) hscale
      (by rw [length_padZeros]; omega)
    have hread := read_number (d.isNegative || d.signedZero) (Or.inr hnumber.1) hnumber.2
    rw [Decimal.chars, Decimal.charsOf] at hexact ⊢
    unfold withSign at hread
    rw [hread, numberValue, if_pos rfl, hexact]
    rfl

theorem read_param {name : String} (h : isIdentifier name.toList = true) :
    read (paramLead.toList ++ name.toList) = .ok (.param name) := by
  have hname : referenceName? (paramLead.toList ++ name.toList) = some name.toList := by
    rw [referenceName?, List.take_left, if_pos rfl, List.drop_left]
  have hne : (paramLead.toList ++ name.toList).isEmpty = false := rfl
  rw [read, hne, if_neg Bool.false_ne_true, hname]
  dsimp only
  rw [if_pos h, String.ofList_toList]

theorem durable_literal {v : ParamValue} : (Expr.literal v).Durable ↔ v.Durable :=
  ⟨fun hall => hall v rfl, fun hv _ heq => Option.some.inj heq ▸ hv⟩

/-- What a literal is read as from its own text. A zero loses its sign; instants and JSON are up to
their readers. -/
def reread : ParamValue → Except ReadError ParamValue
  | .decimal d => .ok (.decimal (.ofCoeff d.coeff d.scale d.coeff_lt d.scale_le))
  | .timestamp t => construct "timestamp" t.chars
  | .json j => construct "json" j.chars
  | v => .ok v

theorem read_literalChars (v : ParamValue) :
    read (literalChars v) = (reread v).map .literal := by
  cases v with
  | string s => rw [literalChars, read_quoteChars, String.ofList_toList]; rfl
  | integer i => exact read_integer i
  | decimal d => exact read_decimal d
  | boolean b => cases b <;> rfl
  | uuid u => rw [literalChars, read_applyChars (by decide), construct, Uuid.read_chars]; rfl
  | date d => rw [literalChars, read_applyChars (by decide), construct, Date.read_chars]; rfl
  | timestamp t => exact read_applyChars (by decide) t.chars
  | json j => exact read_applyChars (by decide) j.chars

/-- A literal that was read comes back from its text exactly if it is durable. -/
theorem reread_eq_self_iff {v : ParamValue} (h : v.WellFormed) : reread v = .ok v ↔ v.Durable := by
  cases v with
  | decimal d => exact iff_of_true (by rw [reread, Decimal.ofCoeff_self h]) trivial
  | timestamp t =>
    rw [reread, construct]
    by_cases hyear : 0 ≤ t.date.year ∧ t.date.year ≤ 9999
    · rw [Timestamp.readStrict_chars h hyear.1 hyear.2]
      exact iff_of_true rfl hyear
    · obtain ⟨e, herror⟩ := Timestamp.readStrict_chars_eq_error (t := t) (by omega)
      rw [herror]
      exact iff_of_false nofun hyear
  | json j =>
    rw [reread, construct]
    show _ ↔ ∀ x ∈ j.reals, x.ReadsBack
    rw [← Json.read_chars_iff h]
    cases hread : Json.read j.chars with
    | error e => exact iff_of_false nofun nofun
    | ok j' => simp
  | _ => exact iff_of_true rfl trivial

/-- An expression that was read comes back from its text exactly if it is durable. -/
theorem read_chars_iff {e : Expr} (h : e.WellFormed) : read e.chars = .ok e ↔ e.Durable := by
  cases e with
  | param name => exact iff_of_true (read_param h) fun _ heq => nomatch heq
  | literal v =>
    rw [chars, read_literalChars, durable_literal, ← reread_eq_self_iff h, map_eq_ok]
    simp

/-! ## Trimming -/

theorem trimChars_enclosed {first last : Char} (hfirst : isBlank first = false)
    (hlast : isBlank last = false) (middle : List Char) :
    trimChars (first :: (middle ++ [last])) = first :: (middle ++ [last]) :=
  trimChars_eq_self rfl (by rw [← List.cons_append, List.getLast?_concat]) hfirst hlast

theorem trimChars_quoteChars (cs : List Char) : trimChars (quoteChars cs) = quoteChars cs :=
  trimChars_enclosed (by decide) (by decide) _

theorem trimChars_applyChars {word : String} (hword : word ∈ constructors)
    (argument : List Char) : trimChars (applyChars word argument) = applyChars word argument := by
  obtain ⟨c, cs, hcs, halpha, -⟩ := exists_letter_of_mem_constructors hword
  have hc : isBlank c = false :=
    isBlank_of_continuesName (by simp [continuesName, Char.isAlphanum, halpha])
  have htext : applyChars word argument = c :: ((cs ++ '(' :: quoteChars argument) ++ [')']) := by
    simp [applyChars, hcs]
  rw [htext, trimChars_enclosed hc (by decide)]

/-- Numbers have no blanks. -/
theorem trimChars_number (negative : Bool) {body : List Char}
    (h : ∀ c ∈ body, c.isDigit = true ∨ c = '.') :
    trimChars (if negative then '-' :: body else body) =
      if negative then '-' :: body else body := by
  have hbody : ∀ c ∈ body, isBlank c = false := by
    intro c hc
    rcases h c hc with hdigit | rfl
    · exact isBlank_of_isDigit hdigit
    · decide
  refine trimChars_of_forall fun c hc => ?_
  split at hc
  · rcases List.mem_cons.mp hc with rfl | hc
    · decide
    · exact hbody c hc
  · exact hbody c hc

theorem mem_placePoint {ds : List Char} (hds : AllDigits ds) (scale : Nat) :
    ∀ c ∈ Decimal.placePoint ds scale, c.isDigit = true ∨ c = '.' := by
  intro c hc
  unfold Decimal.placePoint at hc
  split at hc
  · exact Or.inl (hds c hc)
  · rcases List.mem_append.mp hc with hc | hc
    · exact Or.inl (hds.take _ c hc)
    · rcases List.mem_cons.mp hc with rfl | hc
      · exact Or.inr rfl
      · exact Or.inl (hds.drop _ c hc)

theorem trimChars_intChars (i : Int) : trimChars (intChars i) = intChars i := by
  have htrim := trimChars_number (decide (i < 0))
    fun c hc => Or.inl (allDigits_natChars i.natAbs c hc)
  simpa only [intChars, decide_eq_true_eq] using htrim

theorem trimChars_decimal (d : Decimal) : trimChars d.chars = d.chars :=
  trimChars_number _ (mem_placePoint ((allDigits_natChars _).padZeros _) _)

/-- The text of a literal has no blanks at its ends. -/
theorem trimChars_literalChars (v : ParamValue) :
    trimChars (literalChars v) = literalChars v := by
  cases v with
  | string s => exact trimChars_quoteChars _
  | integer i => exact trimChars_intChars _
  | decimal d =>
    rw [literalChars]
    split
    · exact trimChars_applyChars (by decide) _
    · exact trimChars_decimal d
  | boolean b =>
    cases b
    · rw [literalChars]; decide
    · rw [literalChars]; decide
  | uuid u => exact trimChars_applyChars (by decide) _
  | date d => exact trimChars_applyChars (by decide) _
  | timestamp t => exact trimChars_applyChars (by decide) _
  | json j => exact trimChars_applyChars (by decide) _

theorem trimChars_param {name : String} (h : isIdentifier name.toList = true) :
    trimChars (paramLead.toList ++ name.toList) = paramLead.toList ++ name.toList := by
  have hlead : ∀ c ∈ paramLead.toList, isBlank c = false := by simp [paramLead, isBlank]
  exact trimChars_of_forall fun c hc => (List.mem_append.mp hc).elim (hlead c) fun hname =>
    isBlank_of_continuesName (continuesName_of_isIdentifier h c hname)

theorem trimChars_chars {e : Expr} (h : e.WellFormed) : trimChars e.chars = e.chars := by
  cases e with
  | param name => exact trimChars_param h
  | literal v => exact trimChars_literalChars v

/-! ## What is read is well formed -/

theorem wellFormed_of_numberValue {point : Bool} {cs : List Char} {v : ParamValue}
    (h : numberValue point cs = .ok v) : v.WellFormed := by
  unfold numberValue at h
  split at h
  · split at h
    · next hread =>
      cases h
      exact Decimal.signedZero_of_readExact hread
    · cases h
  · split at h
    · cases h
      trivial
    · cases h

theorem wellFormed_of_construct {word : String} {argument : List Char} {v : ParamValue}
    (h : construct word argument = .ok v) : v.WellFormed := by
  unfold construct at h
  split at h
  · split at h
    · cases h
      trivial
    · cases h
  · split at h
    · cases h
      trivial
    · cases h
  · split at h
    · next hread =>
      cases h
      exact Timestamp.regular_of_readStrict hread
    · cases h
  · split at h
    · next hread =>
      cases h
      exact Decimal.signedZero_of_readExact hread
    · cases h
  · split at h
    · next hread =>
      cases h
      exact Json.readable_of_read hread
    · cases h
  · cases h

theorem wellFormed_of_readWord {cs rest : List Char} {v : ParamValue}
    (h : readWord cs = .ok (v, rest)) : v.WellFormed := by
  unfold readWord at h
  dsimp only at h
  split at h
  · cases h
    trivial
  split at h
  · cases h
    trivial
  split at h
  · split at h
    · cases h
    split at h
    · obtain ⟨v, hv, heq⟩ := map_eq_ok.mp h
      cases heq
      exact wellFormed_of_construct hv
    · cases h
  · cases h

theorem wellFormed_of_readLiteral {cs rest : List Char} {v : ParamValue}
    (h : readLiteral cs = .ok (v, rest)) : v.WellFormed := by
  unfold readLiteral at h
  split at h
  · cases h
  split at h
  · obtain ⟨s, -, heq⟩ := map_eq_ok.mp h
    cases heq
    trivial
  split at h
  · obtain ⟨v, hv, heq⟩ := map_eq_ok.mp h
    cases heq
    exact wellFormed_of_numberValue hv
  split at h
  · exact wellFormed_of_readWord h
  · cases h

theorem wellFormed_of_read {cs : List Char} {e : Expr} (h : read cs = .ok e) : e.WellFormed := by
  unfold read at h
  split at h
  · cases h
  split at h
  · split at h
    · next hname =>
      cases h
      show isIdentifier (String.ofList _).toList = true
      rwa [String.toList_ofList]
    · cases h
  · split at h
    · cases h
    split at h
    · next hread _ =>
      cases h
      exact wellFormed_of_readLiteral hread
    · cases h

theorem ofString_eq_ok {text : String} {e : Expr} :
    ofString text = .ok e ↔ read (trimChars text.toList) = .ok e := by
  unfold ofString
  dsimp only
  split
  · next hread => simp [hread]
  · next hread => simp [hread]

/-- **What is read is well formed.** -/
theorem wellFormed_of_ofString {text : String} {e : Expr} (h : ofString text = .ok e) :
    e.WellFormed := wellFormed_of_read (ofString_eq_ok.mp h)

/-! ## Reading again -/

/-- **An expression is read from its own text exactly if it is durable.** -/
theorem ofString_toString_iff {e : Expr} (h : e.WellFormed) :
    ofString (toString e) = .ok e ↔ e.Durable := by
  have htext : (toString e).toList = e.chars := String.toList_ofList
  rw [ofString_eq_ok, htext, trimChars_chars h, read_chars_iff h]

/-- An instant outside the years 0 to 9999 is not read from its own text. -/
theorem ofString_timestamp_eq_error {t : Timestamp} (h : t.date.year < 0 ∨ 9999 < t.date.year) :
    ∃ e, ofString (toString (Expr.literal (.timestamp t))) = .error e := by
  have htext : (toString (Expr.literal (.timestamp t))).toList = applyChars "timestamp" t.chars :=
    String.toList_ofList
  obtain ⟨e, herror⟩ := Timestamp.readStrict_chars_eq_error h
  have hread : read (applyChars "timestamp" t.chars) = .error (.badTimestamp e) := by
    rw [read_applyChars (by decide), construct, herror]
    rfl
  cases hresult : ofString (toString (Expr.literal (.timestamp t))) with
  | error e => exact ⟨e, rfl⟩
  | ok e' =>
    have hok := ofString_eq_ok.mp hresult
    rw [htext, trimChars_applyChars (by decide), hread] at hok
    cases hok

/-! ## The same value from its text -/

/-- The number of fraction digits of a decimal literal. -/
def scale? : Expr → Option Nat
  | .literal (.decimal d) => some d.scale
  | _ => none

/-- What the form of expressions has a text for: names that are identifiers, instants that the
reader of timestamps comes to in a year of four digits, JSON that is read again from its own text,
and every value of the other types. -/
def Expressible : Expr → Prop
  | .param name => isIdentifier name.toList = true
  | .literal (.timestamp t) => (∃ cs, Timestamp.readStrict cs = .ok t) ∧
      0 ≤ t.date.year ∧ t.date.year ≤ 9999
  | .literal (.json j) => ∃ j', Json.read j.chars = .ok j' ∧ j'.same j = true
  | .literal _ => True

theorem same_ofCoeff (d : Decimal) :
    (Decimal.ofCoeff d.coeff d.scale d.coeff_lt d.scale_le).same d = true := by
  have hequal : ∀ n : Int, (compare n n == .eq) = true := fun n =>
    beq_iff_eq.mpr Std.ReflCmp.compare_self
  exact hequal (d.scaled (Nat.max d.scale d.scale))

/-- A literal that can be expressed comes back from its text as the same one. -/
theorem exists_reread {v : ParamValue} (h : (literal v).Expressible) :
    ∃ v', reread v = .ok v' ∧ v'.same v = true ∧ (literal v').scale? = (literal v).scale? := by
  cases v with
  | decimal d => exact ⟨_, rfl, same_ofCoeff d, rfl⟩
  | timestamp t =>
    obtain ⟨⟨cs, hread⟩, hlo, hhi⟩ := h
    have hwell : (ParamValue.timestamp t).WellFormed := Timestamp.regular_of_readStrict hread
    exact ⟨.timestamp t, (reread_eq_self_iff hwell).mpr ⟨hlo, hhi⟩, beq_self_eq_true t, rfl⟩
  | json j =>
    obtain ⟨j', hread, hsame⟩ := h
    refine ⟨.json j', ?_, hsame, rfl⟩
    rw [reread, construct, hread]
  | string s => exact ⟨_, rfl, beq_self_eq_true s, rfl⟩
  | integer i => exact ⟨_, rfl, beq_self_eq_true i, rfl⟩
  | boolean b => exact ⟨_, rfl, beq_self_eq_true b, rfl⟩
  | uuid u => exact ⟨_, rfl, beq_self_eq_true u, rfl⟩
  | date d => exact ⟨_, rfl, beq_self_eq_true d, rfl⟩

/-- **Writing an expression and reading its text gives the same expression**, and a decimal with as
many fraction digits. -/
theorem reads_own_text (e : Expr) (h : e.Expressible) :
    ∃ e', ofString (toString e) = .ok e' ∧ e'.same e = true ∧ e'.scale? = e.scale? := by
  have htext : (toString e).toList = e.chars := String.toList_ofList
  cases e with
  | param name =>
    refine ⟨.param name, ofString_eq_ok.mpr ?_, beq_self_eq_true name, rfl⟩
    rw [htext, chars, trimChars_param h, read_param h]
  | literal v =>
    obtain ⟨v', hreread, hsame, hscale⟩ := exists_reread h
    refine ⟨.literal v', ofString_eq_ok.mpr ?_, hsame, hscale⟩
    rw [htext, chars, trimChars_literalChars, read_literalChars, hreread]
    rfl

end Expr

namespace Sample

/-- The double `-0.5`. -/
def minusHalf : Binary64 :=
  ⟨true, pow2 52, -53, by decide, by decide, by decide, Or.inl (Nat.le_refl _)⟩

/-- Terms whose text has both kinds of quotes, escapes of two kinds, and a double. -/
def terms : Json := .object [("it's", .array [.number (.real minusHalf), .string "a\t'\"\\"])]

/-- The extra second at the end of the year 2016. -/
def leapSecond : Timestamp :=
  ⟨⟨2016, 12, 31, by decide⟩, 86399, 1500000000, by decide, by decide⟩

end Sample

theorem reads_own_text_sample :
    (Expr.literal (.json Sample.terms)).Expressible ∧
      (Expr.literal (.timestamp Sample.leapSecond)).Expressible ∧
      (∃ e, Expr.ofString (toString (Expr.literal (.json Sample.terms))) = .ok e ∧
        e.same (.literal (.json Sample.terms)) = true) ∧
      ∃ e, Expr.ofString (toString (Expr.literal (.timestamp Sample.leapSecond))) = .ok e ∧
        e.same (.literal (.timestamp Sample.leapSecond)) = true := by
  have hterms : (Expr.literal (.json Sample.terms)).Expressible := by
    have hread : ((Json.read Sample.terms.chars).toOption.map fun j => j.same Sample.terms) =
        some true := by decide +kernel
    obtain ⟨j, hj, hsame⟩ := Option.map_eq_some_iff.mp hread
    exact ⟨j, toOption_eq_some.mp hj, hsame⟩
  have hleap : (Expr.literal (.timestamp Sample.leapSecond)).Expressible :=
    ⟨⟨"2017-01-01T00:59:60.5+01:00".toList, by rfl⟩, by decide, by decide⟩
  obtain ⟨e, hread, hsame, -⟩ := Expr.reads_own_text _ hterms
  obtain ⟨e', hread', hsame', -⟩ := Expr.reads_own_text _ hleap
  exact ⟨hterms, hleap, ⟨e, hread, hsame⟩, e', hread', hsame'⟩

end DoubleEntry
