import DoubleEntry.Proofs.Expr.Written

/-!
# The grammar of expressions

`Denotes` says which texts are expressions and what each of them stands for, form by form and
without a word about reading. The reader goes from left to right and takes as much as it can, so
each of its parts is compared with the rule for what it has taken: `readQuoted_iff` for quoted
texts, `takeNumber_eq` for digits, `applies_or_of_readWord` for words.

Main statement: `reads_grammar`. Whatever the grammar has is read as what it stands for, and nothing
else is read, with one exception. A constructor takes the first character of its argument for the
quote, so it accepts any character in that place if the same one closes the argument
(`OddlyQuoted`); such a text is never in the grammar (`OddlyQuoted.not_denotes`). The text
`decimal(1231)` is one, and it is read as 23 (`reads_beyond_grammar`).
-/

namespace DoubleEntry.Expr

open Text

/-! ## The grammar -/

/-- `[A-Za-z_][A-Za-z0-9_]*`. -/
inductive IsName : List Char → Prop
  | mk {c : Char} {cs : List Char} (hfirst : c.isAlpha = true ∨ c = '_')
      (hrest : ∀ x ∈ cs, x.isAlphanum = true ∨ x = '_') : IsName (c :: cs)

/-- The value of a constructor applied to a text. -/
inductive Constructs : String → List Char → ParamValue → Prop
  | uuid {text : List Char} {u : Uuid} (h : Uuid.read text = .ok u) :
      Constructs "uuid" text (.uuid u)
  | date {text : List Char} {d : Date} (h : Date.read text = .ok d) :
      Constructs "date" text (.date d)
  | timestamp {text : List Char} {t : Timestamp} (h : Timestamp.readStrict text = .ok t) :
      Constructs "timestamp" text (.timestamp t)
  | decimal {text : List Char} {d : Decimal} (h : Decimal.readExact text = .ok d) :
      Constructs "decimal" text (.decimal d)
  | json {text : List Char} {j : Json} (h : Json.read text = .ok j) :
      Constructs "json" text (.json j)

/-- The text of a constructor applied to an argument in quotes of a kind, and its value. -/
def Applies (quote : Char) (cs : List Char) (v : ParamValue) : Prop :=
  ∃ word argument text, cs = word.toList ++ '(' :: (argument ++ [')']) ∧
    Quoted quote argument text ∧ Constructs word text v

/-- The text of a literal, and its value. -/
inductive DenotesLiteral : List Char → ParamValue → Prop
  | string {quote : Char} {cs text : List Char} (hquote : IsQuote quote)
      (hcs : Quoted quote cs text) : DenotesLiteral cs (.string (String.ofList text))
  | integer {negative : Bool} {digits : List Char} {i : Int64} (hdigits : AllDigits digits)
      (hne : digits ≠ []) (hi : i.toInt = signedValue negative digits) :
      DenotesLiteral (withSign negative digits) (.integer i)
  | decimal {negative : Bool} {whole fraction : List Char} {d : Decimal}
      (hwhole : AllDigits whole) (hfraction : AllDigits fraction)
      (hhead : negative = true ∨ whole ≠ [])
      (hd : Decimal.readExact (withSign negative (whole ++ '.' :: fraction)) = .ok d) :
      DenotesLiteral (withSign negative (whole ++ '.' :: fraction)) (.decimal d)
  | true : DenotesLiteral "true".toList (.boolean Bool.true)
  | false : DenotesLiteral "false".toList (.boolean Bool.false)
  | constructed {quote : Char} {cs : List Char} {v : ParamValue} (hquote : IsQuote quote)
      (h : Applies quote cs v) : DenotesLiteral cs v

/-- The text of an expression, and the expression. -/
inductive Denotes : List Char → Expr → Prop
  | param {name : List Char} (hname : IsName name) :
      Denotes ("params.".toList ++ name) (.param (String.ofList name))
  | literal {cs : List Char} {v : ParamValue} (h : DenotesLiteral cs v) : Denotes cs (.literal v)

/-- A constructor whose argument stands between two equal characters that are not quotes. -/
inductive OddlyQuoted : List Char → Expr → Prop
  | mk {quote : Char} {cs : List Char} {v : ParamValue} (hquote : ¬ IsQuote quote)
      (h : Applies quote cs v) : OddlyQuoted cs (.literal v)

/-! ## Numbers -/

/-- What is taken for a number: digits, or digits on both sides of one point. -/
theorem takeNumber_eq {point seen : Bool} {cs taken rest : List Char}
    (h : takeNumber point cs = (taken, seen, rest)) :
    cs = taken ++ rest ∧ (seen = point ∧ AllDigits taken ∨
      point = false ∧ seen = true ∧ ∃ whole fraction, AllDigits whole ∧ AllDigits fraction ∧
        taken = whole ++ '.' :: fraction) := by
  fun_induction takeNumber point cs generalizing taken seen rest with
  | case1 point =>
    cases h
    exact ⟨rfl, Or.inl ⟨rfl, allDigits_nil⟩⟩
  | case2 point c cs hc taken' seen' rest' htake ih =>
    cases h
    obtain ⟨rfl, ⟨rfl, hds⟩ | ⟨rfl, rfl, whole, fraction, hwhole, hfraction, rfl⟩⟩ := ih htake
    · exact ⟨rfl, Or.inl ⟨rfl, List.forall_mem_cons.mpr ⟨hc, hds⟩⟩⟩
    · exact ⟨rfl, Or.inr ⟨rfl, rfl, c :: whole, fraction,
        List.forall_mem_cons.mpr ⟨hc, hwhole⟩, hfraction, rfl⟩⟩
  | case3 point c cs hc hpoint taken' seen' rest' htake ih =>
    obtain ⟨rfl, rfl⟩ := hpoint
    cases h
    obtain ⟨rfl, ⟨rfl, hds⟩ | ⟨hnone, -⟩⟩ := ih htake
    · exact ⟨rfl, Or.inr ⟨rfl, rfl, [], taken', allDigits_nil, hds, rfl⟩⟩
    · cases hnone
  | case4 point c cs hc hpoint =>
    cases h
    exact ⟨rfl, Or.inl ⟨rfl, allDigits_nil⟩⟩

theorem takeNumber_whole {ds : List Char} (hds : AllDigits ds) :
    takeNumber false ds = (ds, false, []) := by
  have htake := takeNumber_digits hds false []
  rwa [List.append_nil, takeNumber, List.append_nil] at htake

theorem takeNumber_decimal {whole fraction : List Char} (hwhole : AllDigits whole)
    (hfraction : AllDigits fraction) :
    takeNumber false (whole ++ '.' :: fraction) = (whole ++ '.' :: fraction, true, []) := by
  have htake := takeNumber_digits hfraction true []
  rw [List.append_nil, takeNumber, List.append_nil] at htake
  rw [takeNumber_digits hwhole, takeNumber_point, htake]

/-- A number of which nothing is left is in the grammar. -/
theorem denotes_of_numberValue (negative : Bool) {point : Bool} {taken digits : List Char}
    {v : ParamValue}
    (htake : takeNumber false digits = (taken, point, []))
    (hhead : negative = true ∨ ∃ c cs, digits = c :: cs ∧ c.isDigit = true)
    (h : numberValue point (withSign negative taken) = .ok v) :
    DenotesLiteral (withSign negative digits) v := by
  obtain ⟨hdigits, hform⟩ := takeNumber_eq htake
  rw [List.append_nil] at hdigits
  subst hdigits
  rcases hform with ⟨rfl, hds⟩ | ⟨-, rfl, whole, fraction, hwhole, hfraction, rfl⟩
  · rw [numberValue, if_neg Bool.false_ne_true] at h
    split at h
    · next i hread =>
      cases h
      have hi := exists_int64_of_readInt64 hds hread
      rw [← hi] at hread
      obtain ⟨hne, hvalue⟩ := (readInt64_withSign_iff hds).mp hread
      exact .integer hds hne hvalue
    · cases h
  · rw [numberValue, if_pos rfl] at h
    split at h
    · next d hread =>
      cases h
      refine .decimal hwhole hfraction (hhead.imp_right ?_) hread
      rintro ⟨c, cs, hdigits, hc⟩ rfl
      cases hdigits
      cases hc
    · cases h

theorem denotes_of_readNumber {c : Char} {cs : List Char} {v : ParamValue}
    (hc : c = '-' ∨ c.isDigit = true) (h : readNumber (c :: cs) = .ok (v, [])) :
    DenotesLiteral (c :: cs) v := by
  by_cases hminus : c = '-'
  · subst hminus
    rcases htake : takeNumber false cs with ⟨taken, point, rest⟩
    rw [readNumber] at h
    dsimp only at h
    rw [htake] at h
    obtain ⟨v, hv, heq⟩ := map_eq_ok.mp h
    cases heq
    exact denotes_of_numberValue true htake (Or.inl rfl) hv
  · rcases htake : takeNumber false (c :: cs) with ⟨taken, point, rest⟩
    unfold readNumber at h
    split at h
    next sign digits hsign =>
    split at hsign
    · next hhead =>
      cases hhead
      exact absurd rfl hminus
    cases hsign
    rw [htake] at h
    obtain ⟨v, hv, heq⟩ := map_eq_ok.mp h
    cases heq
    exact denotes_of_numberValue false htake
      (Or.inr ⟨c, cs, rfl, hc.resolve_left hminus⟩) hv

/-! ## Words -/

theorem construct_iff {word : String} {text : List Char} {v : ParamValue} :
    construct word text = .ok v ↔ Constructs word text v := by
  constructor
  · intro h
    unfold construct at h
    split at h
    · split at h
      · next hread => cases h; exact .uuid hread
      · cases h
    · split at h
      · next hread => cases h; exact .date hread
      · cases h
    · split at h
      · next hread => cases h; exact .timestamp hread
      · cases h
    · split at h
      · next hread => cases h; exact .decimal hread
      · cases h
    · split at h
      · next hread => cases h; exact .json hread
      · cases h
    · cases h
  · rintro (h | h | h | h | h) <;> rw [construct, h]

theorem mem_constructors {word : String} {text : List Char} {v : ParamValue}
    (h : Constructs word text v) : word ∈ constructors := by
  cases h <;> decide

/-- A word of which nothing is left is a truth value or an applied constructor. -/
theorem applies_or_of_readWord {cs : List Char} {v : ParamValue}
    (h : readWord cs = .ok (v, [])) :
    (cs = "true".toList ∧ v = .boolean true) ∨ (cs = "false".toList ∧ v = .boolean false) ∨
      ∃ quote, Applies quote cs v := by
  have hsplit := List.takeWhile_append_dropWhile (p := continuesName) (l := cs)
  unfold readWord at h
  dsimp only at h
  generalize cs.takeWhile continuesName = word at h hsplit
  generalize cs.dropWhile continuesName = rest at h hsplit
  subst hsplit
  split at h
  · next hword =>
    cases h
    refine Or.inl ⟨?_, rfl⟩
    rw [← hword, String.toList_ofList, List.append_nil]
  split at h
  · next hword =>
    cases h
    refine Or.inr (Or.inl ⟨?_, rfl⟩)
    rw [← hword, String.toList_ofList, List.append_nil]
  split at h
  · split at h
    · cases h
    · next hquoted =>
      split at h
      · obtain ⟨v, hv, heq⟩ := map_eq_ok.mp h
        cases heq
        obtain ⟨quote, argument, rfl, hargument⟩ := readQuoted_iff.mp hquoted
        refine Or.inr (Or.inr ⟨quote, String.ofList word, argument, _, ?_, hargument,
          construct_iff.mp hv⟩)
        rw [String.toList_ofList]
      · cases h
  · cases h

theorem read_applies {quote : Char} {cs : List Char} {v : ParamValue} (h : Applies quote cs v) :
    read cs = .ok (.literal v) := by
  obtain ⟨word, argument, text, rfl, hargument, hv⟩ := h
  have hquoted : readQuoted (argument ++ [')']) = .ok (text, [')']) :=
    readQuoted_iff.mpr ⟨quote, argument, rfl, hargument⟩
  rw [read_apply (mem_constructors hv) hquoted, construct_iff.mpr hv]
  rfl

/-! ## Expressions -/

theorem isName_iff {cs : List Char} : isIdentifier cs = true ↔ IsName cs := by
  constructor
  · intro h
    cases cs with
    | nil => cases h
    | cons c cs =>
      simp only [isIdentifier, startsName, continuesName, Bool.and_eq_true, Bool.or_eq_true,
        beq_iff_eq, List.all_eq_true] at h
      exact .mk h.1 h.2
  · rintro ⟨hfirst, hrest⟩
    simp only [isIdentifier, startsName, continuesName, Bool.and_eq_true, Bool.or_eq_true,
      beq_iff_eq, List.all_eq_true]
    exact ⟨hfirst, hrest⟩

theorem referenceName?_eq_some {cs name : List Char} (h : referenceName? cs = some name) :
    cs = paramLead.toList ++ name := by
  unfold referenceName? at h
  dsimp only at h
  split at h
  · next htake =>
    cases h
    have hsplit := List.take_append_drop paramLead.toList.length cs
    rw [htake] at hsplit
    exact hsplit.symm
  · cases h

theorem denotes_of_readLiteral {cs : List Char} {v : ParamValue}
    (h : readLiteral cs = .ok (v, [])) :
    DenotesLiteral cs v ∨ ∃ quote, ¬ IsQuote quote ∧ Applies quote cs v := by
  unfold readLiteral at h
  split at h
  · cases h
  split at h
  · next hquote =>
    obtain ⟨⟨text, rest⟩, hread, heq⟩ := map_eq_ok.mp h
    cases heq
    obtain ⟨quote, argument, hcs, hargument⟩ := readQuoted_iff.mp hread
    rw [List.append_nil] at hcs
    subst hcs
    obtain ⟨content, hcontent, -⟩ := id hargument
    cases hcontent
    exact Or.inl (.string hquote hargument)
  split at h
  · next hnumber => exact Or.inl (denotes_of_readNumber hnumber h)
  split at h
  · rcases applies_or_of_readWord h with ⟨hcs, rfl⟩ | ⟨hcs, rfl⟩ | ⟨quote, happlies⟩
    · exact Or.inl (hcs ▸ .true)
    · exact Or.inl (hcs ▸ .false)
    · by_cases hquote : IsQuote quote
      · exact Or.inl (.constructed hquote happlies)
      · exact Or.inr ⟨quote, hquote, happlies⟩
  · cases h

theorem read_denotesLiteral {cs : List Char} {v : ParamValue} (h : DenotesLiteral cs v) :
    read cs = .ok (.literal v) := by
  cases h with
  | string hquote hcs => exact read_quoted hquote hcs
  | @integer negative digits i hdigits hne hi =>
    have hread := read_number negative
      (Or.inr (by simpa using hdigits.exists_head hne [])) (takeNumber_whole hdigits)
    have hvalue := (readInt64_withSign_iff hdigits).mpr ⟨hne, hi⟩
    rw [hread, numberValue, if_neg Bool.false_ne_true, hvalue]
    dsimp only
    rw [Int64.ofInt_toInt]
    rfl
  | @decimal negative whole fraction d hwhole hfraction hhead hd =>
    have hread := read_number negative
      (hhead.imp_right fun hne => hwhole.exists_head hne ('.' :: fraction))
      (takeNumber_decimal hwhole hfraction)
    rw [hread, numberValue, if_pos rfl, hd]
    rfl
  | true => rfl
  | false => rfl
  | constructed hquote happlies => exact read_applies happlies

/-- The reader takes the grammar, and arguments in odd quotes. -/
theorem read_iff {cs : List Char} {e : Expr} :
    read cs = .ok e ↔ Denotes cs e ∨ OddlyQuoted cs e := by
  constructor
  · intro h
    unfold read at h
    split at h
    · cases h
    split at h
    · next hname =>
      split at h
      · next hidentifier =>
        cases h
        rw [referenceName?_eq_some hname]
        exact Or.inl (.param (isName_iff.mp hidentifier))
      · cases h
    · split at h
      · cases h
      split at h
      · next hread hrest =>
        cases h
        rw [List.isEmpty_iff.mp hrest] at hread
        rcases denotes_of_readLiteral hread with hv | ⟨quote, hquote, happlies⟩
        · exact Or.inl (.literal hv)
        · exact Or.inr (.mk hquote happlies)
      · cases h
  · rintro ((@⟨name, hname⟩ | ⟨hv⟩) | ⟨-, happlies⟩)
    · have hidentifier : isIdentifier (String.ofList name).toList = true := by
        rw [String.toList_ofList]
        exact isName_iff.mpr hname
      have hread := read_param hidentifier
      rwa [String.toList_ofList] at hread
    · exact read_denotesLiteral hv
    · exact read_applies happlies

/-! ## The exception -/

/-- A constructor is followed by its parenthesis and the quote. -/
theorem Applies.dropWhile {quote : Char} {cs : List Char} {v : ParamValue}
    (h : Applies quote cs v) : ∃ rest, cs.dropWhile continuesName = '(' :: quote :: rest := by
  obtain ⟨word, _, text, rfl, ⟨content, rfl, -⟩, hv⟩ := h
  have hwords : ∀ word ∈ constructors, word.toList.all continuesName = true := by decide
  exact ⟨content ++ [quote] ++ [')'],
    (takeWhile_word (hwords word (mem_constructors hv)) (by decide) _).2⟩

theorem Applies.exists_letter {quote : Char} {cs : List Char} {v : ParamValue}
    (h : Applies quote cs v) : ∃ c rest, cs = c :: rest ∧ c.isAlpha = true ∧ c ≠ 'p' := by
  obtain ⟨word, argument, text, rfl, -, hv⟩ := h
  obtain ⟨c, rest, hword, halpha, -, hp⟩ :=
    exists_letter_of_mem_constructors (mem_constructors hv)
  exact ⟨c, rest ++ '(' :: (argument ++ [')']), by rw [hword, List.cons_append], halpha, hp⟩

theorem isAlpha_of_isDigit {c : Char} (h : c.isDigit = true) : c.isAlpha = false := by
  have hdigit : c.toNat ≤ 0x39 := (toNat_of_isDigit h).2
  have hupper : ¬('A' : Char).val.toNat ≤ c.toNat :=
    Nat.not_le.mpr (Nat.lt_of_le_of_lt hdigit (by decide))
  have hlower : ¬('a' : Char).val.toNat ≤ c.toNat :=
    Nat.not_le.mpr (Nat.lt_of_le_of_lt hdigit (by decide))
  unfold Char.isAlpha Char.isUpper Char.isLower
  simp only [ge_iff_le, Bool.or_eq_false_iff, Bool.and_eq_false_iff, decide_eq_false_iff_not,
    UInt32.le_iff_toNat_le]
  exact ⟨fun hrange => hupper hrange.1, Or.inl hlower⟩

/-- The text of a number does not start with a letter. -/
theorem isAlpha_of_number {c : Char} {cs ds rest : List Char} {negative : Bool}
    (hds : AllDigits ds) (hhead : negative = true ∨ ds ≠ [])
    (htext : c :: cs = withSign negative (ds ++ rest)) : c.isAlpha = false := by
  cases negative with
  | true =>
    cases htext
    rfl
  | false =>
    obtain ⟨d, tail, htail, hd⟩ := hds.exists_head (hhead.resolve_left Bool.false_ne_true) rest
    rw [withSign, if_neg Bool.false_ne_true, htail] at htext
    cases htext
    exact isAlpha_of_isDigit hd

/-- A literal that starts with a letter is a truth value or an applied constructor. -/
theorem applies_of_isAlpha {c : Char} {cs : List Char} {v : ParamValue}
    (h : DenotesLiteral (c :: cs) v) (hc : c.isAlpha = true) :
    c :: cs = "true".toList ∨ c :: cs = "false".toList ∨
      ∃ quote, IsQuote quote ∧ Applies quote (c :: cs) v := by
  generalize htext : c :: cs = text at h
  cases h with
  | string hquote hcs =>
    obtain ⟨content, rfl, -⟩ := hcs
    cases htext
    rcases hquote with rfl | rfl <;> cases hc
  | @integer negative digits i hdigits hne =>
    rw [← List.append_nil digits] at htext
    cases hc.symm.trans (isAlpha_of_number hdigits (Or.inr hne) htext)
  | decimal hwhole hfraction hhead =>
    cases hc.symm.trans (isAlpha_of_number hwhole hhead htext)
  | true => exact Or.inl rfl
  | false => exact Or.inr (Or.inl rfl)
  | constructed hquote happlies => exact Or.inr (Or.inr ⟨_, hquote, happlies⟩)

/-- An argument in odd quotes is outside the grammar. -/
theorem OddlyQuoted.not_denotes {cs : List Char} {e : Expr} (h : OddlyQuoted cs e) (e' : Expr) :
    ¬ Denotes cs e' := by
  obtain ⟨hquote, happlies⟩ := h
  obtain ⟨rest, hrest⟩ := happlies.dropWhile
  obtain ⟨c, cs, rfl, hc, hp⟩ := happlies.exists_letter
  intro hdenotes
  generalize htext : c :: cs = text at hdenotes
  cases hdenotes with
  | param => exact hp (List.cons.inj htext).1
  | literal hv =>
    subst htext
    rcases applies_of_isAlpha hv hc with htrue | hfalse | ⟨quote', hquote', happlies'⟩
    · rw [htrue] at hrest
      cases hrest
    · rw [hfalse] at hrest
      cases hrest
    · obtain ⟨rest', hrest'⟩ := happlies'.dropWhile
      cases hrest.symm.trans hrest'
      exact hquote hquote'

/-- **A text is read exactly if it is in the grammar once the blanks at its ends are gone, and as
what it stands for there**, but for constructors with an argument in odd quotes, which are read as
if the quotes were right. Every other text is an invalid template. -/
theorem reads_grammar (text : String) :
    (∀ e, ofString text = .ok e ↔
      Denotes (trimChars text.toList) e ∨ OddlyQuoted (trimChars text.toList) e) ∧
    ((∀ e, ¬ Denotes (trimChars text.toList) e ∧ ¬ OddlyQuoted (trimChars text.toList) e) →
      ∃ why : ReadError, ofString text = .error (.invalidTemplate
        s!"invalid expression '{String.ofList (trimChars text.toList)}': {why.message}")) := by
  refine ⟨fun e => ofString_eq_ok.trans read_iff, fun hnone => ?_⟩
  cases hread : read (trimChars text.toList) with
  | ok e => exact absurd (read_iff.mp hread) (not_or.mpr (hnone e))
  | error why => exact ⟨why, by rw [ofString, hread]⟩

/-- A word that is neither a truth value nor a constructor is refused. -/
theorem reads_grammar_bare_word :
    ∃ why : ReadError, ofString "amount" = .error (.invalidTemplate
      s!"invalid expression 'amount': {why.message}") :=
  (reads_grammar "amount").2 fun e => not_or.mp fun h => by
    cases ((reads_grammar "amount").1 e).mpr h

/-- Ones stand where the quotes should, and the text is read as the number between them. -/
theorem reads_beyond_grammar :
    ofString "decimal(1231)" =
        .ok (.literal (.decimal (Decimal.ofCoeff 23 0 (by decide) (by decide)))) ∧
      ∀ e, ¬ Denotes (trimChars "decimal(1231)".toList) e := by
  have hquote : ¬ IsQuote '1' := by decide
  have hcontent : Content '1' ['2', '3'] ['2', '3'] :=
    .plain (by decide) (by decide) (.plain (by decide) (by decide) .nil)
  have hnumber := (Decimal.ofCoeff 23 0 (by decide) (by decide)).readExact_chars
  have hodd : OddlyQuoted (trimChars "decimal(1231)".toList)
      (.literal (.decimal (Decimal.ofCoeff 23 0 (by decide) (by decide)))) :=
    .mk hquote ⟨"decimal", "1231".toList, ['2', '3'], by decide,
      ⟨['2', '3'], rfl, hcontent⟩, .decimal hnumber⟩
  exact ⟨ofString_eq_ok.mpr (read_iff.mpr (Or.inr hodd)), hodd.not_denotes⟩

end DoubleEntry.Expr
