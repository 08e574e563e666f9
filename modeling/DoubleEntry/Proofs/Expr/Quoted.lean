import DoubleEntry.Expr.Reader
import DoubleEntry.Proofs.Results

/-!
# Quoted texts

`Quoted` says what stands between two quotes of a kind and for which text, without a word about
reading. The reader takes the first character for the quote, whatever it is, and then exactly such a
text (`readQuoted_iff`). The printer writes one with apostrophes (`quoted_quoteChars`).
-/

namespace DoubleEntry.Expr

/-- What a backslash and the character after it stand for. -/
inductive Escape : Char → Char → Prop
  | backslash : Escape '\\' '\\'
  | apostrophe : Escape '\'' '\''
  | quotation : Escape '"' '"'
  | newline : Escape 'n' '\n'
  | tab : Escape 't' '\t'

/-- What may stand between two quotes of a kind, and the text that it stands for. -/
inductive Content (quote : Char) : List Char → List Char → Prop
  | nil : Content quote [] []
  | plain {c : Char} {cs text : List Char} (hquote : c ≠ quote) (hbackslash : c ≠ '\\')
      (hcs : Content quote cs text) : Content quote (c :: cs) (c :: text)
  | escape {c x : Char} {cs text : List Char} (hquote : '\\' ≠ quote) (hc : Escape c x)
      (hcs : Content quote cs text) : Content quote ('\\' :: c :: cs) (x :: text)

/-- A text between two quotes of a kind. -/
def Quoted (quote : Char) (cs text : List Char) : Prop :=
  ∃ content, cs = quote :: (content ++ [quote]) ∧ Content quote content text

def IsQuote (c : Char) : Prop := c = '\'' ∨ c = '"'

instance : DecidablePred IsQuote := fun c => inferInstanceAs (Decidable (c = '\'' ∨ c = '"'))

/-! ## What is read -/

theorem unescape?_iff {c x : Char} : unescape? c = some x ↔ Escape c x := by
  constructor
  · intro h
    unfold unescape? at h
    split at h
    · next hc => subst hc; cases h; exact .backslash
    split at h
    · next hc => subst hc; cases h; exact .apostrophe
    split at h
    · next hc => subst hc; cases h; exact .quotation
    split at h
    · next hc => subst hc; cases h; exact .newline
    split at h
    · next hc => subst hc; cases h; exact .tab
    · cases h
  · rintro ⟨⟩ <;> rfl

theorem content_of_readQuotedBody {quote : Char} {cs text rest : List Char}
    (h : readQuotedBody quote cs = .ok (text, rest)) :
    ∃ content, cs = content ++ quote :: rest ∧ Content quote content text := by
  fun_induction readQuotedBody quote cs generalizing text with
  | case1 => cases h
  | case2 cs =>
    cases h
    exact ⟨[], rfl, .nil⟩
  | case3 => cases h
  | case4 => cases h
  | case5 c cs x hx hquote ih =>
    obtain ⟨⟨text, rest⟩, hread, heq⟩ := map_eq_ok.mp h
    cases heq
    obtain ⟨content, rfl, hcontent⟩ := ih hread
    exact ⟨'\\' :: c :: content, rfl, .escape hquote (unescape?_iff.mp hx) hcontent⟩
  | case6 c cs hquote hbackslash ih =>
    obtain ⟨⟨text, rest⟩, hread, heq⟩ := map_eq_ok.mp h
    cases heq
    obtain ⟨content, rfl, hcontent⟩ := ih hread
    exact ⟨c :: content, rfl, .plain hquote hbackslash hcontent⟩

theorem readQuotedBody_content {quote : Char} {content text : List Char}
    (h : Content quote content text) (rest : List Char) :
    readQuotedBody quote (content ++ quote :: rest) = .ok (text, rest) := by
  induction h with
  | nil =>
    rw [List.nil_append, readQuotedBody.eq_def]
    exact if_pos rfl
  | plain hquote hbackslash _ ih =>
    rw [List.cons_append, readQuotedBody.eq_def]
    dsimp only
    rw [if_neg hquote, if_neg hbackslash, ih]
    rfl
  | escape hquote hc _ ih =>
    rw [List.cons_append, List.cons_append, readQuotedBody.eq_def]
    dsimp only
    rw [if_neg hquote, if_pos rfl, unescape?_iff.mpr hc]
    dsimp only
    rw [ih]
    rfl

/-- The reader of quoted texts takes the first character for the quote. -/
theorem readQuoted_iff {cs text rest : List Char} :
    readQuoted cs = .ok (text, rest) ↔
      ∃ quote argument, cs = argument ++ rest ∧ Quoted quote argument text := by
  constructor
  · intro h
    cases cs with
    | nil => cases h
    | cons quote cs =>
      obtain ⟨content, rfl, hcontent⟩ := content_of_readQuotedBody h
      exact ⟨quote, quote :: (content ++ [quote]), by simp, content, rfl, hcontent⟩
  · rintro ⟨quote, argument, rfl, content, rfl, hcontent⟩
    have htext : quote :: (content ++ [quote]) ++ rest = quote :: (content ++ quote :: rest) := by
      simp
    rw [htext, readQuoted, readQuotedBody_content hcontent]

/-! ## What is printed -/

theorem content_escapeChar (c : Char) {cs text : List Char} (h : Content '\'' cs text) :
    Content '\'' (escapeChar c ++ cs) (c :: text) := by
  have happostrophe : '\\' ≠ '\'' := by decide
  unfold escapeChar
  split
  · next hc => subst hc; exact .escape happostrophe .backslash h
  split
  · next hc => subst hc; exact .escape happostrophe .apostrophe h
  split
  · next hc => subst hc; exact .escape happostrophe .newline h
  split
  · next hc => subst hc; exact .escape happostrophe .tab h
  · next hbackslash hquote _ _ => exact .plain hquote hbackslash h

theorem quoted_quoteChars (cs : List Char) : Quoted '\'' (quoteChars cs) cs := by
  refine ⟨cs.flatMap escapeChar, rfl, ?_⟩
  induction cs with
  | nil => exact .nil
  | cons c cs ih =>
    rw [List.flatMap_cons]
    exact content_escapeChar c ih

end DoubleEntry.Expr
