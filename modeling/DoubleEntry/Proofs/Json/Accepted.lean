import DoubleEntry.Proofs.Json.Values

/-!
# What the reader accepts is readable

Whole numbers that the reader keeps fit 64 bits, its objects are in order, and nothing is nested
deeper than the reader goes. So a value that was read once is read again from its own text
(`readable_of_read`).
-/

namespace DoubleEntry.Json

/-! ## Numbers -/

section Numbers

variable {negative : Bool} {significand : Nat} {exponent : Int} {c c' : Cursor} {n : JsonNumber}

theorem exists_real_of_finishDouble
    (h : finishDouble negative significand exponent c = .ok (n, c')) : ∃ x, n = .real x := by
  unfold finishDouble at h
  split at h
  · cases h
    exact ⟨_, rfl⟩
  · cases h

theorem exists_real_of_readExponent
    (h : readExponent negative significand exponent c = .ok (n, c')) : ∃ x, n = .real x := by
  unfold readExponent at h
  dsimp only at h
  split at h
  · cases h
  split at h
  · cases h
  split at h
  all_goals
    dsimp only at h
    split at h
    · exact exists_real_of_finishDouble h
    split at h
    · cases h
    · cases h
      exact ⟨_, rfl⟩

theorem exists_real_of_afterDigits
    (h : afterDigits negative significand exponent c = .ok (n, c')) : ∃ x, n = .real x := by
  unfold afterDigits at h
  split at h
  · exact exists_real_of_readExponent h
  · exact exists_real_of_readExponent h
  · exact exists_real_of_finishDouble h

theorem exists_real_of_readFraction
    (h : readFraction negative significand exponent c = .ok (n, c')) : ∃ x, n = .real x := by
  unfold readFraction at h
  dsimp only at h
  split at h
  · split at h
    · cases h
    split at h
    · exact exists_real_of_afterDigits h
    · cases h
  · exact exists_real_of_afterDigits h

variable {depth : Nat}

theorem readable_of_real (h : ∃ x, n = .real x) : Readable depth (.number n) := by
  obtain ⟨x, rfl⟩ := h
  exact .real x

/-- A significand of 64 bits makes a number of 64 bits, or a double. -/
theorem readable_of_afterWhole (hsignificand : significand < pow2 64)
    (h : afterWhole negative significand c = .ok (n, c')) : Readable depth (.number n) := by
  unfold afterWhole at h
  split at h
  · exact readable_of_real (exists_real_of_readFraction h)
  · exact readable_of_real (exists_real_of_readExponent h)
  · exact readable_of_real (exists_real_of_readExponent h)
  split at h
  · cases h
    exact .whole (decide_eq_true ⟨by omega, by omega⟩)
  split at h
  · next hrange =>
    cases h
    have := hrange.2
    exact .whole (decide_eq_true ⟨by omega, by omega⟩)
  · exact readable_of_real (exists_real_of_finishDouble h)

theorem exists_real_of_afterLongWhole {extra : Nat}
    (h : afterLongWhole negative significand extra c = .ok (n, c')) : ∃ x, n = .real x := by
  unfold afterLongWhole at h
  split at h
  · exact exists_real_of_readFraction h
  · exact exists_real_of_afterDigits h

theorem takeDigits_lt {acc : Nat} (hacc : acc < pow2 64) (count : Nat) (cs : List Char)
    (passed : Nat) : (takeDigits acc count cs passed).1 < pow2 64 := by
  induction cs generalizing acc count passed with
  | nil => exact hacc
  | cons x xs ih =>
    unfold takeDigits
    split
    · exact hacc
    split
    · next hfits => exact ih hfits _ _
    · exact hacc

theorem readable_of_readNumber (h : readNumber negative c = .ok (n, c')) :
    Readable depth (.number n) := by
  have hzero : 0 < pow2 64 := by decide
  unfold readNumber at h
  split at h
  · cases h
  split at h
  · dsimp only at h
    split at h
    · split at h
      · cases h
      · exact readable_of_afterWhole hzero h
    · exact readable_of_afterWhole hzero h
  split at h
  · dsimp only at h
    split at h
    · exact readable_of_afterWhole (takeDigits_lt hzero _ _ _) h
    · exact readable_of_real (exists_real_of_afterLongWhole h)
  · cases h

end Numbers

/-! ## Arrays and objects -/

section Nested

variable {item : Cursor → Read Json} {P : Json → Prop} {c c' : Cursor} {j : Json}

theorem forall_mem_of_readItems (hitem : ∀ {c x c'}, item c = .ok (x, c') → P x) {fuel : Nat}
    {xs : List Json} (h : readItems item fuel c = .ok (xs, c')) : ∀ x ∈ xs, P x := by
  induction fuel generalizing c xs with
  | zero => cases h
  | succ fuel ih =>
    unfold readItems at h
    dsimp only at h
    split at h
    · cases h
    · cases h
      exact nofun
    · split at h
      · cases h
      · cases h
      split at h
      · cases h
      · next hx =>
        obtain ⟨⟨xs, c''⟩, hxs, heq⟩ := map_eq_ok.mp h
        cases heq
        exact List.forall_mem_cons.mpr ⟨hitem hx, ih hxs⟩
    · cases h

theorem exists_of_readArray (hitem : ∀ {c x c'}, item c = .ok (x, c') → P x)
    (h : readArray item c = .ok (j, c')) : ∃ xs, j = .array xs ∧ ∀ x ∈ xs, P x := by
  unfold readArray at h
  dsimp only at h
  split at h
  · cases h
  · cases h
    exact ⟨[], rfl, nofun⟩
  split at h
  · cases h
  · next hx =>
    obtain ⟨⟨xs, c''⟩, hxs, heq⟩ := map_eq_ok.mp h
    cases heq
    exact ⟨_, rfl, List.forall_mem_cons.mpr ⟨hitem hx, forall_mem_of_readItems hitem hxs⟩⟩

theorem of_readMember (hitem : ∀ {c x c'}, item c = .ok (x, c') → P x) {m : String × Json}
    (h : readMember item c = .ok (m, c')) : P m.2 := by
  unfold readMember at h
  split at h
  · cases h
  obtain ⟨⟨v, c''⟩, hv, heq⟩ := map_eq_ok.mp h
  cases heq
  unfold readMemberValue at hv
  dsimp only at hv
  split at hv
  · cases hv
  · exact hitem hv
  · cases hv

theorem forall_mem_of_readMembers (hitem : ∀ {c x c'}, item c = .ok (x, c') → P x) {fuel : Nat}
    {ms : List (String × Json)} (h : readMembers item fuel c = .ok (ms, c')) :
    ∀ m ∈ ms, P m.2 := by
  induction fuel generalizing c ms with
  | zero => cases h
  | succ fuel ih =>
    unfold readMembers at h
    dsimp only at h
    split at h
    · cases h
    · cases h
      exact nofun
    · split at h
      · cases h
      · split at h
        · cases h
        · next hm =>
          obtain ⟨⟨ms, c''⟩, hms, heq⟩ := map_eq_ok.mp h
          cases heq
          exact List.forall_mem_cons.mpr ⟨of_readMember hitem hm, ih hms⟩
      · cases h
      · cases h
    · cases h

theorem exists_of_readObject (hitem : ∀ {c x c'}, item c = .ok (x, c') → P x)
    (h : readObject item c = .ok (j, c')) :
    ∃ ms : List (String × Json), j = .object ms ∧ OrdMap.Ascending ms ∧ ∀ m ∈ ms, P m.2 := by
  unfold readObject at h
  dsimp only at h
  split at h
  · cases h
  · cases h
    exact ⟨[], rfl, .nil, nofun⟩
  · split at h
    · cases h
    · next m _ hm =>
      obtain ⟨⟨ms, c''⟩, hms, heq⟩ := map_eq_ok.mp h
      cases heq
      have hall : ∀ m' ∈ m :: ms, P m'.2 := List.forall_mem_cons.mpr
        ⟨of_readMember hitem hm, forall_mem_of_readMembers hitem hms⟩
      exact ⟨_, rfl, (OrdMap.ofList _).ascending, fun m hmem =>
        hall m (OrdMap.mem_of_mem_ofList hmem)⟩
  · cases h

end Nested

/-! ## Values -/

theorem readable_of_number {depth : Nat} {negative : Bool} {c c' : Cursor} {j : Json}
    (h : ((readNumber negative c).map fun (n, c) => (.number n, c)) = .ok (j, c')) :
    Readable depth j := by
  obtain ⟨⟨n, c''⟩, hn, heq⟩ := map_eq_ok.mp h
  cases heq
  exact readable_of_readNumber hn

theorem readable_of_readValue {depth : Nat} {c c' : Cursor} {j : Json}
    (h : readValue depth c = .ok (j, c')) : Readable depth j := by
  have hword : ∀ {letters value c}, Readable depth value →
      readWord letters value c = .ok (j, c') → Readable depth j := by
    intro letters value c hvalue hread
    obtain ⟨c'', -, heq⟩ := map_eq_ok.mp hread
    cases heq
    exact hvalue
  unfold readValue at h
  dsimp only at h
  split at h
  · cases h
  · exact hword .null h
  · exact hword (.bool true) h
  · exact hword (.bool false) h
  · obtain ⟨⟨s, c''⟩, -, heq⟩ := map_eq_ok.mp h
    cases heq
    exact .string s
  · exact readable_of_number h
  · cases depth with
    | zero => cases h
    | succ depth =>
      obtain ⟨xs, rfl, hxs⟩ := exists_of_readArray readable_of_readValue h
      exact .array hxs
  · cases depth with
    | zero => cases h
    | succ depth =>
      obtain ⟨ms, rfl, hascending, hms⟩ := exists_of_readObject readable_of_readValue h
      exact .object hascending hms
  · split at h
    · exact readable_of_number h
    · cases h

/-- **Everything the reader accepts is readable.** -/
theorem readable_of_read {cs : List Char} {j : Json} (h : read cs = .ok j) :
    Readable maxDepth j := by
  unfold read at h
  split at h
  · cases h
  · next hvalue =>
    dsimp only at h
    split at h
    · cases h
      exact readable_of_readValue hvalue
    · cases h

end DoubleEntry.Json
