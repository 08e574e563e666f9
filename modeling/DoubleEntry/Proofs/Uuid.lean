import DoubleEntry.Power
import DoubleEntry.Uuid

/-!
# Identifiers are read from their own text

Hexadecimal digits are read back one by one, and the hyphens stand where the reader of grouped
digits looks for them.
-/

namespace DoubleEntry.Uuid

/-! ## Hexadecimal digits -/

theorem hexValue?_hexChar {n : Nat} (h : n < 16) : hexValue? (hexChar n) = some n := by
  revert n
  decide

theorem length_hexChars (n count : Nat) : (hexChars n count).length = count := by
  induction count generalizing n with
  | zero => rfl
  | succ count ih => rw [hexChars, List.length_append, ih, List.length_singleton]

theorem isSome_of_mem_hexChars {c : Char} {n count : Nat} (h : c ∈ hexChars n count) :
    (hexValue? c).isSome = true := by
  induction count generalizing n with
  | zero => cases h
  | succ count ih =>
    rcases List.mem_append.mp h with h | h
    · exact ih h
    · rw [List.mem_singleton.mp h, hexValue?_hexChar (Nat.mod_lt n (by decide))]
      rfl

theorem hexNumber?_append (acc : Nat) (cs ds : List Char) :
    hexNumber? acc (cs ++ ds) = (hexNumber? acc cs).bind fun n => hexNumber? n ds := by
  induction cs generalizing acc with
  | nil => rfl
  | cons c cs ih =>
    rw [List.cons_append, hexNumber?, hexNumber?, Option.bind_assoc]
    exact congrArg _ (funext fun d => ih _)

/-- A hexadecimal digit has four bits. -/
theorem hexNumber?_hexChars (acc n count : Nat) :
    hexNumber? acc (hexChars n count) =
      some (acc * pow2 (4 * count) + n % pow2 (4 * count)) := by
  induction count generalizing n with
  | zero => rw [hexChars, hexNumber?, Nat.mul_zero, pow2_zero, Nat.mul_one, Nat.mod_one,
      Nat.add_zero]
  | succ count ih =>
    rw [hexChars, hexNumber?_append, ih, Option.bind_some, hexNumber?,
      hexValue?_hexChar (Nat.mod_lt n (by decide)), Option.bind_some, hexNumber?]
    have hpow : pow2 (4 * (count + 1)) = 16 * pow2 (4 * count) := by
      rw [Nat.mul_comm 16]
      exact Nat.pow_add 2 (4 * count) 4
    rw [hpow, Nat.mod_mul, Nat.mul_left_comm]
    congr 1
    omega

/-! ## Groups -/

/-- Hyphens between the groups are all that tells grouped digits from plain ones. -/
theorem readHyphenated_groups {a b c d e : List Char} (ha : a.length = 8) (hb : b.length = 4)
    (hc : c.length = 4) (hd : d.length = 4) (he : e.length = 12) :
    readHyphenated (a ++ '-' :: (b ++ '-' :: (c ++ '-' :: (d ++ '-' :: e)))) =
      readSimple (a ++ b ++ c ++ d ++ e) := by
  unfold readHyphenated
  rw [if_pos (by simp [ha, hb, hc, hd, he])]
  congr 1
  simp (disch := omega) [List.drop_append, List.drop_eq_nil_of_le, ha, hb, hc, hd]

/-- A text with a hyphen as its ninth character, where the prefix has a colon, stands in no wrapper,
unless it opens a brace. -/
theorem unwrap_eq_none {cs : List Char} (hbrace : cs.head? ≠ some '\x7b')
    (hhyphen : cs[8]? = some '-') : unwrap cs = none := by
  unfold unwrap
  split
  · exact absurd rfl hbrace
  · refine if_neg fun hlead => ?_
    have hninth := congrArg (fun l : List Char => l[8]?) hlead
    simp [hhyphen] at hninth

theorem chars_eq (u : Uuid) : ∃ a b c d e : List Char,
    u.chars = a ++ '-' :: (b ++ '-' :: (c ++ '-' :: (d ++ '-' :: e))) ∧
      a.length = 8 ∧ b.length = 4 ∧ c.length = 4 ∧ d.length = 4 ∧ e.length = 12 ∧
      a ++ b ++ c ++ d ++ e = hexChars u.bits.toNat 32 := by
  have hlength : (hexChars u.bits.toNat 32).length = 32 := length_hexChars _ _
  refine ⟨_, _, _, _, _, rfl, ?_, ?_, ?_, ?_, ?_, ?_⟩
  iterate 5 simp [hlength]
  rw [← List.take_add, ← List.take_add, ← List.take_add, List.take_append_drop]

/-- The written form begins with hexadecimal digits. -/
theorem isSome_of_getElem?_chars {u : Uuid} {i : Nat} (hi : i < 8) {c : Char}
    (hc : u.chars[i]? = some c) : (hexValue? c).isSome = true := by
  obtain ⟨a, _, _, _, _, hchars, ha, -, -, -, -, hdigits⟩ := chars_eq u
  rw [hchars, List.getElem?_append_left (ha ▸ hi)] at hc
  have hmem : c ∈ hexChars u.bits.toNat 32 := by
    rw [← hdigits]
    simp [List.mem_of_getElem? hc]
  exact isSome_of_mem_hexChars hmem

/-- **An identifier is read from its own text.** -/
theorem read_chars (u : Uuid) : read u.chars = .ok u := by
  obtain ⟨a, b, c, d, e, hchars, ha, hb, hc, hd, he, hdigits⟩ := chars_eq u
  have hsimple : readSimple (hexChars u.bits.toNat 32) = some u := by
    have hbits : u.bits.toNat % pow2 (4 * 32) = u.bits.toNat := Nat.mod_eq_of_lt u.bits.isLt
    rw [readSimple, if_pos (length_hexChars _ _), hexNumber?_hexChars, Nat.zero_mul, Nat.zero_add,
      hbits, Option.map_some, BitVec.ofNat_toNat, BitVec.setWidth_eq]
  have hunwrap : unwrap u.chars = none := by
    refine unwrap_eq_none (fun hbrace => ?_) (by simp [hchars, ha])
    have hmem : '\x7b' ∈ hexChars u.bits.toNat 32 := by
      obtain ⟨x, a, rfl⟩ := List.exists_cons_of_length_eq_add_one ha
      rw [hchars] at hbrace
      cases hbrace
      rw [← hdigits]
      simp
    exact absurd (isSome_of_mem_hexChars hmem) (by decide)
  rw [read, hunwrap, hchars, readHyphenated_groups ha hb hc hd he, hdigits, hsimple]
  rfl

end DoubleEntry.Uuid
