import DoubleEntry.Proofs.Json.Numbers
import DoubleEntry.Proofs.Tables

/-!
# JSON values are read from their own text

A value that is `Readable` within some depth (its objects are in order, its whole numbers fit 64
bits) is read from its text as it is, except for its doubles: those are what their own texts denote
(`Json.reread`). So it comes back unchanged exactly if every double in it does (`read_chars_iff`).
Everything the reader accepts is readable (`readable_of_read`).
-/

namespace DoubleEntry

open Text

namespace Json

/-! ## Blanks -/

theorem skipSpaces_cons {x : Char} (h : Cursor.isSpace x = false) (cs : List Char)
    (passed : Nat) : Cursor.skipSpaces ⟨x :: cs, passed⟩ = ⟨x :: cs, passed⟩ := by
  have hx : ¬ Cursor.isSpace x = true := by rw [h]; decide
  rw [Cursor.skipSpaces]
  dsimp only
  rw [List.dropWhile_cons_of_neg hx, List.takeWhile_cons_of_neg hx]
  rfl

/-! ## Strings -/

theorem hexValue?_digitChar {n : Nat} (h : n < 16) : hexValue? n.digitChar = some n := by
  revert n
  decide

/-- The four digits that stand for a control character. -/
theorem readUnicode_control {x : Char} (h : x.toNat < 32) (rest : List Char) (passed : Nat) :
    readUnicode ⟨'0' :: '0' :: (hexPair x.toNat ++ rest), passed⟩ =
      .ok (x, ⟨rest, passed + 4⟩) := by
  have hvalue : ((0 * 16 + 0) * 16 + x.toNat / 16 % 16) * 16 + x.toNat % 16 = x.toNat := by omega
  have hhex : readHex ⟨'0' :: '0' :: (hexPair x.toNat ++ rest), passed⟩ =
      .ok (x.toNat, ⟨rest, passed + 4⟩) := by
    have hzero : hexValue? '0' = some 0 := by decide
    simp only [hexPair, List.cons_append, List.nil_append, readHex, hzero,
      hexValue?_digitChar (Nat.mod_lt _ (show 0 < 16 by decide)), hvalue]
  rw [readUnicode, hhex]
  dsimp only
  rw [if_neg (by omega), if_neg (by omega), Char.ofNat_toNat]

theorem readStringFrom_of_readEscape {x : Char} {taken cs : List Char} {fuel passed : Nat}
    {c : Cursor} (h : readEscape ⟨cs, passed + 1⟩ = .ok (x, c)) :
    readStringFrom taken (fuel + 1) ⟨'\\' :: cs, passed⟩ = readStringFrom (x :: taken) fuel c := by
  rw [readStringFrom]
  dsimp only [Cursor.advance]
  split
  · next heq => cases heq
  · next heq => exact absurd (List.cons.inj heq).1 (by decide)
  · rw [show passed + '\\'.utf8Size = passed + 1 from rfl, h]
  · next hslash heq => exact (hslash (List.cons.inj heq).1.symm).elim

/-- Reading a string over the escape of one character. -/
theorem readStringFrom_escapeChar (x : Char) (taken rest : List Char) (fuel passed : Nat) :
    ∃ passed', readStringFrom taken (fuel + 1) ⟨escapeChar x ++ rest, passed⟩ =
      readStringFrom (x :: taken) fuel ⟨rest, passed'⟩ := by
  unfold escapeChar
  split
  · next h => subst h; exact ⟨_, rfl⟩
  split
  · next h => subst h; exact ⟨_, rfl⟩
  split
  · next h => subst h; exact ⟨_, rfl⟩
  split
  · next h => subst h; exact ⟨_, rfl⟩
  split
  · next h => subst h; exact ⟨_, rfl⟩
  split
  · next h =>
    obtain rfl : x = Char.ofNat 8 := by rw [← h, Char.ofNat_toNat]
    exact ⟨_, rfl⟩
  split
  · next h =>
    obtain rfl : x = Char.ofNat 12 := by rw [← h, Char.ofNat_toNat]
    exact ⟨_, rfl⟩
  split
  · next hcontrol =>
    have hread : readEscape ⟨'u' :: '0' :: '0' :: (hexPair x.toNat ++ rest), passed + 1⟩ =
      .ok (x, ⟨rest, passed + 1 + 1 + 4⟩) := readUnicode_control hcontrol rest _
    exact ⟨_, by rw [List.cons_append]; exact readStringFrom_of_readEscape hread⟩
  · next hquote hbackslash _ _ _ _ _ hcontrol =>
    refine ⟨passed + x.utf8Size, ?_⟩
    rw [List.singleton_append, readStringFrom]
    dsimp only
    split
    · next heq => cases heq
    · next heq => exact absurd (List.cons.inj heq).1 hquote
    · next heq => exact absurd (List.cons.inj heq).1 hbackslash
    · next heq =>
      obtain ⟨rfl, -⟩ := List.cons.inj heq
      rw [if_neg hcontrol]
      rfl

theorem readStringFrom_chars {cs : List Char} (taken rest : List Char) {fuel : Nat}
    (hfuel : cs.length < fuel) (passed : Nat) :
    ∃ passed', readStringFrom taken fuel ⟨cs.flatMap escapeChar ++ '"' :: rest, passed⟩ =
      .ok (String.ofList (taken.reverse ++ cs), ⟨rest, passed'⟩) := by
  induction cs generalizing taken fuel passed with
  | nil =>
    obtain ⟨fuel, rfl⟩ := Nat.exists_eq_succ_of_ne_zero (Nat.ne_of_gt hfuel)
    exact ⟨_, by rw [List.append_nil]; rfl⟩
  | cons x cs ih =>
    obtain ⟨fuel, rfl⟩ := Nat.exists_eq_succ_of_ne_zero (Nat.ne_of_gt (Nat.zero_lt_of_lt hfuel))
    obtain ⟨middle, hfirst⟩ := readStringFrom_escapeChar x taken
      (cs.flatMap escapeChar ++ '"' :: rest) fuel passed
    obtain ⟨passed', hrest⟩ := ih (x :: taken) (Nat.lt_of_succ_lt_succ hfuel) middle
    refine ⟨passed', ?_⟩
    rw [List.flatMap_cons, List.append_assoc, hfirst, hrest, List.reverse_cons, List.append_assoc,
      List.singleton_append]

theorem length_le_flatMap (cs : List Char) : cs.length ≤ (cs.flatMap escapeChar).length := by
  induction cs with
  | nil => exact Nat.le_refl 0
  | cons x cs ih =>
    have hone : 1 ≤ (escapeChar x).length := by
      unfold escapeChar
      repeat' split
      all_goals exact Nat.succ_le_succ (Nat.zero_le _)
    rw [List.flatMap_cons, List.length_append, List.length_cons]
    omega

/-- **A string is read from its own text.** -/
theorem readString_chars (s : String) (rest : List Char) (passed : Nat) :
    ∃ passed', readString ⟨s.toList.flatMap escapeChar ++ '"' :: rest, passed⟩ =
      .ok (s, ⟨rest, passed'⟩) := by
  have hfuel : s.toList.length < (s.toList.flatMap escapeChar ++ '"' :: rest).length + 1 := by
    have := length_le_flatMap s.toList
    rw [List.length_append]
    omega
  obtain ⟨passed', heq⟩ := readStringFrom_chars [] rest hfuel passed
  exact ⟨passed', by rw [readString, heq, List.reverse_nil, List.nil_append, String.ofList_toList]⟩

/-! ## Values and their doubles -/

end Json

/-- The number that the text of a double denotes; none if it is out of range. -/
def Binary64.reread (x : Binary64) : Option JsonNumber :=
  match Json.read x.jsonChars with
  | .ok (.number n) => some n
  | _ => none

/-- The text of a double denotes this double. -/
def Binary64.ReadsBack (x : Binary64) : Prop := Json.read x.jsonChars = .ok (.number (.real x))

namespace Json

/-- A number after its text is read. -/
def rereadNumber : JsonNumber → Option JsonNumber
  | .whole i => some (.whole i)
  | .real x => x.reread

mutual

/-- A value with every double in it read from its text. -/
def reread : Json → Option Json
  | .null => some .null
  | .bool b => some (.bool b)
  | .number n => (rereadNumber n).map .number
  | .string s => some (.string s)
  | .array xs => (rereadItems xs).map .array
  | .object ms => (rereadMembers ms).map .object

def rereadItems : List Json → Option (List Json)
  | [] => some []
  | x :: xs => (reread x).bind fun y => (rereadItems xs).map (y :: ·)

def rereadMembers : List (String × Json) → Option (List (String × Json))
  | [] => some []
  | (k, x) :: ms => (reread x).bind fun y => (rereadMembers ms).map ((k, y) :: ·)

end

mutual

/-- The doubles of a value. -/
def reals : Json → List Binary64
  | .number (.real x) => [x]
  | .array xs => realsOfItems xs
  | .object ms => realsOfMembers ms
  | _ => []

def realsOfItems : List Json → List Binary64
  | [] => []
  | x :: xs => reals x ++ realsOfItems xs

def realsOfMembers : List (String × Json) → List Binary64
  | [] => []
  | (_, x) :: ms => reals x ++ realsOfMembers ms

end

/-- A value that can be read within `depth` further arrays and objects. -/
inductive Readable : Nat → Json → Prop where
  | null {depth : Nat} : Readable depth .null
  | bool {depth : Nat} (b : Bool) : Readable depth (.bool b)
  | whole {depth : Nat} {i : Int} (hwhole : JsonNumber.isWhole i = true) :
      Readable depth (.number (.whole i))
  | real {depth : Nat} (x : Binary64) : Readable depth (.number (.real x))
  | string {depth : Nat} (s : String) : Readable depth (.string s)
  | array {depth : Nat} {xs : List Json} (hxs : ∀ x ∈ xs, Readable depth x) :
      Readable (depth + 1) (.array xs)
  | object {depth : Nat} {ms : List (String × Json)} (hascending : OrdMap.Ascending ms)
      (hms : ∀ m ∈ ms, Readable depth m.2) : Readable (depth + 1) (.object ms)

/-! ## Numbers -/

section Numbers

variable (depth : Nat)

theorem readValue_digit {x : Char} (hx : x.isDigit = true) (cs : List Char) (passed : Nat) :
    readValue depth ⟨x :: cs, passed⟩ =
      (readNumber false ⟨x :: cs, passed⟩).map fun (n, c) => (.number n, c) := by
  have hspace : Cursor.isSpace x = false := by
    simp [Cursor.isSpace, ne_of_isDigit hx]
  have hne : ∀ y : Char, y.isDigit = false → y ≠ x := fun y hy => (ne_of_isDigit hx hy).symm
  unfold readValue
  rw [skipSpaces_cons hspace]
  dsimp only
  split
  · next heq => cases heq
  iterate 7
    next heq => exact absurd (List.cons.inj heq).1.symm (hne _ (by decide))
  · next heq =>
    obtain ⟨rfl, -⟩ := List.cons.inj heq
    rw [if_pos hx]

theorem readValue_minus (cs : List Char) (passed : Nat) :
    readValue depth ⟨'-' :: cs, passed⟩ =
      (readNumber true ⟨cs, passed + 1⟩).map fun (n, c) => (.number n, c) := by
  unfold readValue
  rw [skipSpaces_cons (by decide)]
  rfl

/-- A number that is read by its own reader is a value. -/
theorem reads_value_of_number {negative : Bool} {body : List Char} {y : Option JsonNumber}
    (hbody : ∃ c cs, body = c :: cs ∧ c.isDigit = true) (h : Reads (readNumber negative) body y) :
    Reads (readValue depth) (if negative then '-' :: body else body) (y.map .number) := by
  obtain ⟨c, cs, rfl, hc⟩ := hbody
  intro rest passed hrest
  cases negative with
  | false =>
    obtain ⟨passed', heq⟩ := h rest passed hrest
    refine ⟨passed', ?_⟩
    rw [if_neg Bool.false_ne_true, List.cons_append, readValue_digit depth hc, ← List.cons_append,
      toOption_map, heq]
    cases y <;> rfl
  | true =>
    obtain ⟨passed', heq⟩ := h rest (passed + 1) hrest
    refine ⟨passed', ?_⟩
    rw [if_pos rfl, List.cons_append, readValue_minus, toOption_map, heq]
    cases y <;> rfl

theorem head_natChars (n : Nat) : ∃ c cs, natChars n = c :: cs ∧ c.isDigit = true := by
  simpa using (allDigits_natChars n).exists_head (natChars_ne_nil n) []

theorem reads_whole {i : Int} (h : JsonNumber.isWhole i = true) :
    Reads (readValue depth) (intChars i) (some (.number (.whole i))) := by
  obtain ⟨hlo, hhi⟩ := of_decide_eq_true h
  unfold intChars
  split
  · next hneg =>
    have hread := reads_value_of_number depth (head_natChars i.natAbs)
      (reads_neg_natChars (n := i.natAbs) (by omega) (by omega))
    rwa [if_pos rfl, show -(i.natAbs : Int) = i by omega] at hread
  · next hpos =>
    have hread := reads_value_of_number depth (head_natChars i.natAbs)
      (reads_natChars (n := i.natAbs) (by omega))
    rwa [if_neg Bool.false_ne_true, show (i.natAbs : Int) = i by omega] at hread

theorem head_real {body : List Char} (h : IsReal body) :
    ∃ c cs, body = c :: cs ∧ c.isDigit = true := by
  have hwhole : ∀ {whole : List Char} (rest : List Char), IsWhole whole →
      ∃ c cs, whole ++ rest = c :: cs ∧ c.isDigit = true := by
    rintro whole rest (rfl | ⟨hds, c, hc, -⟩)
    · exact ⟨'0', rest, rfl, rfl⟩
    · exact hds.exists_head (by rintro rfl; cases hc) rest
  cases h with
  | point h => exact hwhole _ h
  | power h => exact hwhole _ h

/-- A text that is read in front of others is read by itself. -/
theorem toOption_read {text : List Char} {result : Option Json}
    (h : Reads (readValue maxDepth) text result) : (read text).toOption = result := by
  obtain ⟨passed, heq⟩ := h [] 0 endsNumber_nil
  rw [List.append_nil] at heq
  unfold read Cursor.start
  cases hread : readValue maxDepth ⟨text, 0⟩ with
  | error e =>
    rw [hread] at heq
    cases result with
    | none => rfl
    | some v => cases heq
  | ok r =>
    rw [hread] at heq
    cases result with
    | none => cases heq
    | some v =>
      cases heq
      rfl

/-- **A double is read as what its own text denotes**, wherever it stands. -/
theorem reads_real_value (x : Binary64) :
    Reads (readValue depth) x.jsonChars (x.reread.map .number) := by
  obtain ⟨body, hbody, htext⟩ := x.exists_jsonChars
  obtain ⟨y, hy⟩ := reads_real x.negative hbody
  have hread := fun depth => reads_value_of_number depth (head_real hbody) hy
  simp only [← htext] at hread
  have hreread : x.reread = y := by
    have hself := toOption_read (hread maxDepth)
    unfold Binary64.reread
    cases y with
    | none =>
      cases hresult : read x.jsonChars with
      | error e => rfl
      | ok v =>
        rw [hresult] at hself
        cases hself
    | some n => rw [toOption_eq_some.mp hself]
  rw [hreread]
  exact hread depth

end Numbers

/-! ## Arrays and objects -/

section Nested

variable {item : Cursor → Read Json}

/-- Values do not begin with a blank or a closing bracket. -/
theorem exists_chars_cons (j : Json) :
    ∃ c cs, j.chars = c :: cs ∧ Cursor.isSpace c = false ∧ c ≠ ']' := by
  have hnumber : ∀ {text : List Char}, (∃ body, (∃ c cs, body = c :: cs ∧ c.isDigit = true) ∧
      (text = '-' :: body ∨ text = body)) →
      ∃ c cs, text = c :: cs ∧ Cursor.isSpace c = false ∧ c ≠ ']' := by
    rintro text ⟨body, ⟨c, cs, rfl, hc⟩, rfl | rfl⟩
    · exact ⟨'-', _, rfl, by decide, by decide⟩
    · exact ⟨c, cs, rfl, by simp [Cursor.isSpace, ne_of_isDigit hc], ne_of_isDigit hc rfl⟩
  cases j with
  | null => exact ⟨'n', _, rfl, by decide, by decide⟩
  | bool b => cases b <;> exact ⟨_, _, rfl, by decide, by decide⟩
  | number n =>
    refine hnumber ?_
    cases n with
    | whole i =>
      refine ⟨_, head_natChars i.natAbs, ?_⟩
      rw [chars, numberChars, intChars]
      split
      · exact Or.inl rfl
      · exact Or.inr rfl
    | real x =>
      obtain ⟨body, hbody, htext⟩ := x.exists_jsonChars
      refine ⟨body, head_real hbody, ?_⟩
      rw [chars, numberChars, htext]
      cases x.negative
      · exact Or.inr rfl
      · exact Or.inl rfl
  | string s => exact ⟨'"', _, by rw [chars]; rfl, by decide, by decide⟩
  | array xs => cases xs <;> exact ⟨'[', _, by rw [chars], by decide, by decide⟩
  | object ms =>
    cases ms with
    | nil => exact ⟨'\x7b', _, by rw [chars], by decide, by decide⟩
    | cons m ms => exact ⟨'\x7b', _, by rw [chars], by decide, by decide⟩

theorem endsNumber_itemsChars (xs : List Json) (rest : List Char) :
    EndsNumber (itemsChars xs ++ rest) := by
  cases xs <;> rw [itemsChars] <;> exact endsNumber_cons (by decide)

theorem endsNumber_membersChars (ms : List (String × Json)) (rest : List Char) :
    EndsNumber (membersChars ms ++ rest) := by
  rcases ms with _ | ⟨⟨k, v⟩, ms⟩ <;> rw [membersChars] <;> exact endsNumber_cons (by decide)

/-- One part and what is read behind it, put together. -/
def Read.both {α β γ : Type} (first : Read α) (next : Cursor → Read β) (f : α → β → γ) : Read γ :=
  match first with
  | .error e => .error e
  | .ok (x, c) => (next c).map fun (y, c) => (f x y, c)

theorem Reads.both {α β γ : Type} {first : Cursor → Read α} {f : α → β → γ}
    {text tail rest : List Char} {a : Option α} {b : Option β} (hfirst : Reads first text a)
    (next : Cursor → Read β) (htail : EndsNumber tail)
    (hnext : ∀ passed, ∃ passed',
      (next ⟨tail, passed⟩).toOption = b.map (·, ⟨rest, passed'⟩)) (passed : Nat) :
    ∃ passed', Except.toOption ((first ⟨text ++ tail, passed⟩).both next f) =
      (a.bind fun x => b.map (f x)).map (·, ⟨rest, passed'⟩) := by
  obtain ⟨middle, hread⟩ := hfirst tail passed htail
  cases hresult : first ⟨text ++ tail, passed⟩ with
  | error e =>
    rw [hresult] at hread
    cases a with
    | none => exact ⟨passed, rfl⟩
    | some x => cases hread
  | ok r =>
    rw [hresult] at hread
    cases a with
    | none => cases hread
    | some x =>
      cases hread
      obtain ⟨passed', heq⟩ := hnext middle
      refine ⟨passed', ?_⟩
      rw [Read.both, toOption_map, heq, Option.bind_some]
      cases b <;> rfl

/-- Another item of an array, behind its comma. -/
theorem readItems_comma {c : Char} (hspace : Cursor.isSpace c = false) (hne : c ≠ ']')
    (cs : List Char) (fuel passed : Nat) :
    readItems item (fuel + 1) ⟨',' :: c :: cs, passed⟩ =
      (item ⟨c :: cs, passed + 1⟩).both (readItems item fuel) List.cons := by
  rw [readItems, skipSpaces_cons (by decide)]
  dsimp only
  split
  · next heq => cases heq
  · next heq => exact absurd (List.cons.inj heq).1 (by decide)
  · dsimp only [Cursor.advance]
    rw [skipSpaces_cons hspace]
    dsimp only
    split
    · next heq => cases heq
    · next heq => exact absurd (List.cons.inj heq).1 hne
    · rw [show passed + ','.utf8Size = passed + 1 from rfl]
      cases item ⟨c :: cs, passed + 1⟩ <;> rfl
  · next hcomma heq => exact (hcomma (List.cons.inj heq).1.symm).elim

theorem reads_items {xs : List Json} (hxs : ∀ x ∈ xs, Reads item x.chars x.reread) {fuel : Nat}
    (hfuel : xs.length < fuel) : Reads (readItems item fuel) (itemsChars xs) (rereadItems xs) := by
  intro rest passed _
  induction xs generalizing fuel passed with
  | nil =>
    obtain ⟨fuel, rfl⟩ := Nat.exists_eq_succ_of_ne_zero (Nat.ne_of_gt hfuel)
    exact ⟨passed + 1, rfl⟩
  | cons x xs ih =>
    obtain ⟨fuel, rfl⟩ := Nat.exists_eq_succ_of_ne_zero (Nat.ne_of_gt (Nat.zero_lt_of_lt hfuel))
    obtain ⟨hx, hxs⟩ := List.forall_mem_cons.mp hxs
    obtain ⟨c, cs, hchars, hspace, hbracket⟩ := exists_chars_cons x
    rw [itemsChars, List.cons_append, List.append_assoc, hchars, List.cons_append,
      readItems_comma hspace hbracket, ← List.cons_append, ← hchars, rereadItems]
    exact hx.both _ (endsNumber_itemsChars xs rest) (ih hxs (Nat.lt_of_succ_lt_succ hfuel)) _

theorem length_le_itemsChars (xs : List Json) : xs.length < (itemsChars xs).length := by
  induction xs with
  | nil => exact Nat.zero_lt_one
  | cons x xs ih =>
    rw [itemsChars]
    simp only [List.length_cons, List.length_append]
    omega

/-- The first item of an array. -/
theorem readArray_item {c : Char} (hspace : Cursor.isSpace c = false) (hne : c ≠ ']')
    (cs : List Char) (passed : Nat) :
    readArray item ⟨c :: cs, passed⟩ =
      (item ⟨c :: cs, passed⟩).both (fun c => readItems item (c.rest.length + 1) c)
        fun x xs => .array (x :: xs) := by
  rw [readArray, skipSpaces_cons hspace]
  dsimp only
  split
  · next heq => cases heq
  · next heq => exact absurd (List.cons.inj heq).1 hne
  · cases item ⟨c :: cs, passed⟩ <;> rfl

theorem readValue_array (depth : Nat) (cs : List Char) (passed : Nat) :
    readValue (depth + 1) ⟨'[' :: cs, passed⟩ = readArray (readValue depth) ⟨cs, passed + 1⟩ := by
  rw [readValue, skipSpaces_cons (by decide)]
  rfl

theorem reads_array {depth : Nat} {xs : List Json}
    (hxs : ∀ x ∈ xs, Reads (readValue depth) x.chars x.reread) :
    Reads (readValue (depth + 1)) (Json.array xs).chars (Json.array xs).reread := by
  intro rest passed hrest
  cases xs with
  | nil =>
    rw [chars, List.cons_append, readValue_array]
    exact ⟨passed + 1 + 1, rfl⟩
  | cons x xs =>
    obtain ⟨hx, hxs⟩ := List.forall_mem_cons.mp hxs
    obtain ⟨c, cs, hchars, hspace, hbracket⟩ := exists_chars_cons x
    have hfuel : xs.length < (itemsChars xs ++ rest).length + 1 := by
      have := length_le_itemsChars xs
      rw [List.length_append]
      omega
    rw [chars, List.cons_append, List.append_assoc, readValue_array, hchars, List.cons_append,
      readArray_item hspace hbracket, ← List.cons_append, ← hchars, reread, rereadItems,
      Option.map_bind]
    simp only [Function.comp_def, Option.map_map]
    exact hx.both (fun c => readItems (readValue depth) (c.rest.length + 1) c)
      (endsNumber_itemsChars xs rest) (fun middle => reads_items hxs hfuel rest middle hrest) _

/-! ### Members -/

theorem rereadMembers_cons (name : String) (x : Json) (ms : List (String × Json)) :
    rereadMembers ((name, x) :: ms) =
      (x.reread.map (name, ·)).bind fun m => (rereadMembers ms).map (List.cons m) := by
  rw [rereadMembers, Option.bind_map]
  rfl

/-- A member: its name, a colon and its value. -/
theorem readMember_chars (item : Cursor → Read Json) (name : String) (cs : List Char)
    (passed : Nat) : ∃ passed',
    readMember item ⟨name.toList.flatMap escapeChar ++ '"' :: ':' :: cs, passed⟩ =
      (item ⟨cs, passed'⟩).map fun (v, c) => ((name, v), c) := by
  obtain ⟨middle, hname⟩ := readString_chars name (':' :: cs) passed
  refine ⟨middle + 1, ?_⟩
  rw [readMember, hname]
  dsimp only
  rw [readMemberValue, skipSpaces_cons (by decide)]
  rfl

theorem reads_member {name : String} {x : Json} (hx : Reads item x.chars x.reread) :
    Reads (readMember item) (name.toList.flatMap escapeChar ++ '"' :: ':' :: x.chars)
      (x.reread.map (name, ·)) := by
  intro rest passed hrest
  obtain ⟨front, hmember⟩ := readMember_chars item name (x.chars ++ rest) passed
  obtain ⟨passed', heq⟩ := hx rest front hrest
  refine ⟨passed', ?_⟩
  rw [List.append_assoc, List.cons_append, List.cons_append, hmember, toOption_map, heq]
  cases x.reread <;> rfl

theorem readMembers_comma (name : List Char) (fuel passed : Nat) :
    readMembers item (fuel + 1) ⟨',' :: '"' :: name, passed⟩ =
      (readMember item ⟨name, passed + 1 + 1⟩).both (readMembers item fuel) List.cons := by
  rw [readMembers, skipSpaces_cons (by decide)]
  dsimp only
  split
  · next heq => cases heq
  · next heq => exact absurd (List.cons.inj heq).1 (by decide)
  · dsimp only [Cursor.advance]
    rw [skipSpaces_cons (by decide)]
    dsimp only
    rw [show passed + ','.utf8Size + '"'.utf8Size = passed + 1 + 1 from rfl]
    cases readMember item ⟨name, passed + 1 + 1⟩ <;> rfl
  · next hcomma heq => exact (hcomma (List.cons.inj heq).1.symm).elim

theorem reads_members {ms : List (String × Json)}
    (hms : ∀ m ∈ ms, Reads item m.2.chars m.2.reread) {fuel : Nat} (hfuel : ms.length < fuel) :
    Reads (readMembers item fuel) (membersChars ms) (rereadMembers ms) := by
  intro rest passed _
  induction ms generalizing fuel passed with
  | nil =>
    obtain ⟨fuel, rfl⟩ := Nat.exists_eq_succ_of_ne_zero (Nat.ne_of_gt hfuel)
    exact ⟨passed + 1, rfl⟩
  | cons m ms ih =>
    obtain ⟨fuel, rfl⟩ := Nat.exists_eq_succ_of_ne_zero (Nat.ne_of_gt (Nat.zero_lt_of_lt hfuel))
    obtain ⟨name, x⟩ := m
    obtain ⟨hx, hms⟩ := List.forall_mem_cons.mp hms
    have htext : membersChars ((name, x) :: ms) ++ rest = ',' :: '"' ::
        (name.toList.flatMap escapeChar ++ '"' :: ':' :: x.chars ++
          (membersChars ms ++ rest)) := by
      simp [membersChars, stringChars]
    rw [htext, readMembers_comma, rereadMembers_cons]
    exact (reads_member hx).both _ (endsNumber_membersChars ms rest)
      (ih hms (Nat.lt_of_succ_lt_succ hfuel)) _

theorem length_le_membersChars (ms : List (String × Json)) :
    ms.length < (membersChars ms).length := by
  induction ms with
  | nil => exact Nat.zero_lt_one
  | cons m ms ih =>
    obtain ⟨name, x⟩ := m
    rw [membersChars]
    simp only [List.length_cons, List.length_append]
    omega

theorem readObject_member (name : List Char) (passed : Nat) :
    readObject item ⟨'"' :: name, passed⟩ =
      (readMember item ⟨name, passed + 1⟩).both
        (fun c => readMembers item (c.rest.length + 1) c) fun m ms => ofMembers (m :: ms) := by
  rw [readObject, skipSpaces_cons (by decide)]
  dsimp only [Cursor.advance]
  rw [show passed + '"'.utf8Size = passed + 1 from rfl]
  cases readMember item ⟨name, passed + 1⟩ <;> rfl

theorem readValue_object (depth : Nat) (cs : List Char) (passed : Nat) :
    readValue (depth + 1) ⟨'\x7b' :: cs, passed⟩ =
      readObject (readValue depth) ⟨cs, passed + 1⟩ := by
  rw [readValue, skipSpaces_cons (by decide)]
  rfl

/-- Names stay what they are. -/
theorem map_fst_rereadMembers {ms ms' : List (String × Json)} (h : rereadMembers ms = some ms') :
    ms'.map Prod.fst = ms.map Prod.fst := by
  induction ms generalizing ms' with
  | nil =>
    cases h
    rfl
  | cons m ms ih =>
    obtain ⟨y, -, h⟩ := Option.bind_eq_some_iff.mp h
    obtain ⟨rest, hrest, rfl⟩ := Option.map_eq_some_iff.mp h
    exact congrArg (m.1 :: ·) (ih hrest)

theorem ascending_rereadMembers {ms ms' : List (String × Json)} (h : rereadMembers ms = some ms')
    (hms : OrdMap.Ascending ms) : OrdMap.Ascending ms' := by
  have hkeys : (ms.map Prod.fst).Pairwise fun a b => compare a b = .lt := List.pairwise_map.mpr hms
  rw [← map_fst_rereadMembers h] at hkeys
  exact List.pairwise_map.mp hkeys

/-- The object that is read has its members in the order of the text. -/
theorem map_ofMembers_rereadMembers {ms : List (String × Json)} (hms : OrdMap.Ascending ms) :
    (rereadMembers ms).map ofMembers = (Json.object ms).reread := by
  rw [reread]
  cases h : rereadMembers ms with
  | none => rfl
  | some ms' =>
    rw [Option.map_some, ofMembers, (ascending_rereadMembers h hms).rows_ofList]
    rfl

theorem reads_object {depth : Nat} {ms : List (String × Json)}
    (hascending : OrdMap.Ascending ms)
    (hms : ∀ m ∈ ms, Reads (readValue depth) m.2.chars m.2.reread) :
    Reads (readValue (depth + 1)) (Json.object ms).chars (Json.object ms).reread := by
  intro rest passed hrest
  cases ms with
  | nil =>
    rw [chars, List.cons_append, readValue_object]
    exact ⟨passed + 1 + 1, rfl⟩
  | cons m ms =>
    obtain ⟨name, x⟩ := m
    obtain ⟨hx, hms⟩ := List.forall_mem_cons.mp hms
    have htext : (Json.object ((name, x) :: ms)).chars ++ rest = '\x7b' :: '"' ::
        (name.toList.flatMap escapeChar ++ '"' :: ':' :: x.chars ++
          (membersChars ms ++ rest)) := by
      simp [chars, stringChars]
    have hfuel : ms.length < (membersChars ms ++ rest).length + 1 := by
      have := length_le_membersChars ms
      rw [List.length_append]
      omega
    rw [htext, readValue_object, readObject_member, ← map_ofMembers_rereadMembers hascending,
      rereadMembers_cons, Option.map_bind]
    simp only [Function.comp_def, Option.map_map]
    exact (reads_member hx).both (fun c => readMembers (readValue depth) (c.rest.length + 1) c)
      (endsNumber_membersChars ms rest) (fun middle => reads_members hms hfuel rest middle hrest) _

end Nested

/-! ## Values -/

/-- **A value is read from its own text**, its doubles as what their texts denote. -/
theorem reads_value {depth : Nat} {j : Json} (h : Readable depth j) :
    Reads (readValue depth) j.chars j.reread := by
  induction h with
  | null => exact fun rest passed _ => ⟨passed + 4, by rw [readValue.eq_def]; rfl⟩
  | bool b =>
    cases b
    · exact fun rest passed _ => ⟨passed + 5, by rw [readValue.eq_def]; rfl⟩
    · exact fun rest passed _ => ⟨passed + 4, by rw [readValue.eq_def]; rfl⟩
  | whole hwhole => exact reads_whole _ hwhole
  | real x => exact reads_real_value _ x
  | string s =>
    intro rest passed _
    obtain ⟨passed', hread⟩ := readString_chars s rest (passed + 1)
    refine ⟨passed', ?_⟩
    have htext : (Json.string s).chars ++ rest =
        '"' :: (s.toList.flatMap escapeChar ++ '"' :: rest) := by simp [chars, stringChars]
    unfold readValue
    rw [htext, skipSpaces_cons (by decide)]
    show Except.toOption ((readString ⟨_, passed + 1⟩).map _) = _
    rw [hread]
    rfl
  | array _ ih => exact reads_array ih
  | object hascending _ ih => exact reads_object hascending ih

theorem rereadItems_eq_self {xs : List Json} :
    rereadItems xs = some xs ↔ ∀ x ∈ xs, x.reread = some x := by
  induction xs with
  | nil => exact ⟨fun _ => nofun, fun _ => rfl⟩
  | cons x xs ih =>
    rw [rereadItems, List.forall_mem_cons, ← ih]
    constructor
    · intro h
      obtain ⟨y, hy, h⟩ := Option.bind_eq_some_iff.mp h
      obtain ⟨ys, hys, heq⟩ := Option.map_eq_some_iff.mp h
      obtain ⟨rfl, rfl⟩ := List.cons.inj heq
      exact ⟨hy, hys⟩
    · rintro ⟨hx, hxs⟩
      rw [hx, hxs]
      rfl

theorem rereadMembers_eq_self {ms : List (String × Json)} :
    rereadMembers ms = some ms ↔ ∀ m ∈ ms, m.2.reread = some m.2 := by
  induction ms with
  | nil => exact ⟨fun _ => nofun, fun _ => rfl⟩
  | cons m ms ih =>
    obtain ⟨name, x⟩ := m
    rw [rereadMembers, List.forall_mem_cons, ← ih]
    constructor
    · intro h
      obtain ⟨y, hy, h⟩ := Option.bind_eq_some_iff.mp h
      obtain ⟨ys, hys, heq⟩ := Option.map_eq_some_iff.mp h
      obtain ⟨hm, rfl⟩ := List.cons.inj heq
      cases hm
      exact ⟨hy, hys⟩
    · rintro ⟨hx, hms⟩
      rw [hx, hms]
      rfl

theorem mem_realsOfItems {r : Binary64} {xs : List Json} :
    r ∈ realsOfItems xs ↔ ∃ x ∈ xs, r ∈ x.reals := by
  induction xs with
  | nil => simp [realsOfItems]
  | cons x xs ih => simp [realsOfItems, ih]

theorem mem_realsOfMembers {r : Binary64} {ms : List (String × Json)} :
    r ∈ realsOfMembers ms ↔ ∃ m ∈ ms, r ∈ m.2.reals := by
  induction ms with
  | nil => simp [realsOfMembers]
  | cons m ms ih =>
    obtain ⟨name, x⟩ := m
    simp only [realsOfMembers, List.mem_append, ih, List.mem_cons, exists_eq_or_imp]

theorem reread_real_eq_self {x : Binary64} : x.reread = some (.real x) ↔ x.ReadsBack := by
  unfold Binary64.reread Binary64.ReadsBack
  split
  · next h => rw [h]; simp
  · next h => exact ⟨nofun, fun heq => absurd heq (h _)⟩

instance (x : Binary64) : Decidable x.ReadsBack := decidable_of_iff _ reread_real_eq_self

/-- A value comes back as it is exactly if its doubles do. -/
theorem reread_eq_self {depth : Nat} {j : Json} (h : Readable depth j) :
    j.reread = some j ↔ ∀ x ∈ j.reals, x.ReadsBack := by
  induction h with
  | null | bool b | whole hwhole | string s =>
    simp [reread, reals, rereadNumber]
  | real x => simp [reread, reals, rereadNumber, reread_real_eq_self]
  | array _ ih =>
    simp only [reread, reals, Option.map_eq_some_iff, Json.array.injEq, exists_eq_right,
      rereadItems_eq_self, mem_realsOfItems]
    constructor
    · rintro hxs r ⟨x, hx, hr⟩
      exact (ih x hx).mp (hxs x hx) r hr
    · exact fun hreals x hx => (ih x hx).mpr fun r hr => hreals r ⟨x, hx, hr⟩
  | object _ _ ih =>
    simp only [reread, reals, Option.map_eq_some_iff, Json.object.injEq, exists_eq_right,
      rereadMembers_eq_self, mem_realsOfMembers]
    constructor
    · rintro hms r ⟨m, hm, hr⟩
      exact (ih m hm).mp (hms m hm) r hr
    · exact fun hreals m hm => (ih m hm).mpr fun r hr => hreals r ⟨m, hm, hr⟩

/-- **A value is read from its own text as it is exactly if every double in it is.** -/
theorem read_chars_iff {j : Json} (h : Readable maxDepth j) :
    read j.chars = .ok j ↔ ∀ x ∈ j.reals, x.ReadsBack := by
  rw [← reread_eq_self h, ← toOption_read (reads_value h), toOption_eq_some]

/-- Reading rounds twice, so a text can denote a neighbour of the double with this shortest text. -/
example : ((read "37e-23".toList).toOption.map fun j => j.reals.map fun x =>
    (String.ofList x.jsonChars, decide x.ReadsBack)) =
      some [("3.7000000000000005e-22", false)] := by decide +kernel

end Json

end DoubleEntry
