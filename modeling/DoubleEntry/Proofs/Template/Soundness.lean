import DoubleEntry.Proofs.Posting.Balanced
import DoubleEntry.Proofs.Template.Typing

/-!
# A template that was accepted posts

Creating a template checks everything that does not hang on the values of parameters. So once values
are bound, the header resolves, and the only ways in which the entries can still fail are about
values and not about types: a text that is no currency code, a negative amount, and legs whose sums
overflow or differ. `TxTemplate.Refusal` lists these four with the error that each one ends in.

Main statement: `posts_of_create`. The errors for unbound names, mismatched types, missing
parameters and unusable templates are out of reach.
-/

namespace DoubleEntry

/-! ## What creation has checked -/

/-- Declared names are distinct from each other and from those seen before. -/
theorem nodup_of_defineParams {seen : List String} {new : List NewParamDefinition}
    {params : List ParamDefinition} (h : defineParams seen new = .ok params) :
    (params.map ParamDefinition.name).Nodup ∧
      ∀ name ∈ params.map ParamDefinition.name, name ∉ seen := by
  induction new generalizing seen params with
  | nil =>
    cases h
    exact ⟨List.nodup_nil, fun _ hname => absurd hname List.not_mem_nil⟩
  | cons p rest ih =>
    unfold defineParams at h
    split at h
    · cases h
    · next hseen =>
      obtain ⟨d, hd, h⟩ := bind_eq_ok.mp h
      obtain ⟨ds, hds, h⟩ := bind_eq_ok.mp h
      cases h
      obtain ⟨hnodup, hfresh⟩ := ih hds
      obtain ⟨-, hname, -, -⟩ := p.define_eq_ok hd
      refine ⟨?_, fun name hmem => ?_⟩
      · rw [List.map_cons, List.nodup_cons]
        refine ⟨fun hmem => hfresh _ hmem ?_, hnodup⟩
        rw [hname]
        exact List.mem_cons_self
      · rw [List.map_cons, List.mem_cons] at hmem
        rcases hmem with rfl | hmem
        · rw [hname]
          simpa using hseen
        · exact fun hin => hfresh name hmem (List.mem_cons_of_mem _ hin)

/-- All that parsing a template does. -/
theorem NewTxTemplate.parse_eq_ok {new : NewTxTemplate} {now : Timestamp} {t : TxTemplate}
    (h : new.parse now = .ok t) :
    ∃ params transaction entries, defineParams [] new.params = .ok params ∧
      new.transaction.parse = .ok transaction ∧
      new.entries.mapM EntryFields.parse = .ok entries ∧ new.entries ≠ [] ∧
      t = ⟨new.id, Text.trim new.code, new.description, params, transaction, entries,
        new.metadata, now⟩ := by
  unfold parse at h
  dsimp only at h
  split at h
  · cases h
  · obtain ⟨params, hparams, h⟩ := bind_eq_ok.mp h
    obtain ⟨transaction, htransaction, h⟩ := bind_eq_ok.mp h
    split at h
    · cases h
    · next hsome =>
      obtain ⟨entries, hentries, h⟩ := bind_eq_ok.mp h
      cases h
      rw [List.isEmpty_iff] at hsome
      exact ⟨params, transaction, entries, hparams, htransaction, hentries, hsome, rfl⟩

theorem NewTxTemplate.nodup_of_parse {new : NewTxTemplate} {now : Timestamp} {t : TxTemplate}
    (h : new.parse now = .ok t) : (t.params.map ParamDefinition.name).Nodup := by
  obtain ⟨params, transaction, entries, hparams, -, -, -, rfl⟩ := parse_eq_ok h
  exact (nodup_of_defineParams hparams).1

theorem NewTxTemplate.create_eq_ok {new : NewTxTemplate} {now : Timestamp} {t : TxTemplate} :
    new.create now = .ok t ↔ new.parse now = .ok t ∧ t.validate = .ok () := by
  unfold create
  constructor
  · intro h
    obtain ⟨t', hparse, h⟩ := bind_eq_ok.mp h
    obtain ⟨hvalid, h⟩ := bind_unit_eq_ok.mp h
    cases h
    exact ⟨hparse, hvalid⟩
  · rintro ⟨hparse, hvalid⟩
    exact bind_eq_ok.mpr ⟨t, hparse, bind_unit_eq_ok.mpr ⟨hvalid, rfl⟩⟩

namespace TxTemplate

theorem validate_eq_ok {t : TxTemplate} :
    t.validate = .ok () ↔ checkHeader t.params t.transaction = .ok () ∧
      (∀ i e, t.entries[i]? = some e → checkEntry t.params e i = .ok ()) ∧
      checkLiterals t.entries = .ok () := by
  unfold validate
  simp only [bind_unit_eq_ok, forM_eq_ok]
  refine and_congr_right fun _ => and_congr_left fun _ => ?_
  constructor
  · intro h i e he
    exact h (e, i) (List.mem_zipIdx_iff_getElem?.mpr he)
  · rintro h ⟨e, i⟩ he
    exact h i e (List.mem_zipIdx_iff_getElem?.mp he)

/-! ## What can still go wrong -/

/-- The entries before their legs are compared. -/
def resolveEntries (t : TxTemplate) (bound : Params) : Except PostingError (List ResolvedEntry) :=
  t.entries.zipIdx.mapM fun (e, i) => resolveEntry e i bound

/-- Why a template whose slots are all read has no entries to post, and the error it ends in. -/
inductive Refusal (t : TxTemplate) (bound : Params) : PostingError → Prop
  | currency {i : Nat} {e : EntryTemplate} {text : String} {why : ValueError}
    (he : t.entries[i]? = some e) (htext : e.currency.valueIn (.entryCurrency i) bound = .ok text)
    (hwhy : Currency.ofString text = .error why) :
    Refusal t bound (.invalidValue s!"{(Slot.entryCurrency i).name}: {why.message}")
  | negative {i : Nat} {e : EntryTemplate} {amount : Decimal} (he : t.entries[i]? = some e)
    (hamount : e.units.valueIn (.entryUnits i) bound = .ok amount)
    (hnegative : amount.isNegative = true) :
    Refusal t bound (.negativeUnits i amount)
  /-- Some leg does not fit on top of the legs of its side and bucket before it. -/
  | overflow {entries : List ResolvedEntry} {before after : List Leg} {leg : Leg}
    {totals : OrdMap Bucket SideTotals} (hentries : t.resolveEntries bound = .ok entries)
    (hlegs : entries.map ResolvedEntry.leg = before ++ leg :: after)
    (htotals : sumLegs before = .ok totals)
    (hleg : ((totalsAt totals leg.bucket).on leg.side).add leg.units = none) :
    Refusal t bound (.invalidValue s!"{leg.currency}/{leg.layer} total overflows")
  | unbalanced {entries : List ResolvedEntry} {totals : OrdMap Bucket SideTotals} {b : Bucket}
    (hentries : t.resolveEntries bound = .ok entries)
    (htotals : sumLegs (entries.map ResolvedEntry.leg) = .ok totals)
    (hdiffer : ((totalsAt totals b).on .debit).value ≠ ((totalsAt totals b).on .credit).value) :
    Refusal t bound (unbalancedBucket b (totalsAt totals b))

end TxTemplate

section Failures

variable {bound : Params}

theorem ofDecimal_eq_error {d : Decimal} {e : ValueError} (h : Units.ofDecimal d = .error e) :
    d.isNegative = true := by
  unfold Units.ofDecimal at h
  split at h
  · cases h
  · next hneg => exact decide_eq_true (Int.not_le.mp hneg)

theorem resolveCurrency_eq_error {e : Expr} {i : Nat} {text : String} {err : PostingError}
    (htext : e.valueIn (.entryCurrency i) bound = .ok text)
    (h : resolveCurrency e i bound = .error err) :
    ∃ why, Currency.ofString text = .error why ∧
      err = .invalidValue s!"{(Slot.entryCurrency i).name}: {why.message}" := by
  unfold resolveCurrency at h
  rcases bind_eq_error.mp h with hfail | ⟨text', htext', h⟩
  · cases htext.symm.trans hfail
  · cases htext.symm.trans htext'
    split at h
    · cases h
    · next why hwhy =>
      cases h
      exact ⟨why, hwhy, rfl⟩

theorem resolveUnits_eq_error {e : Expr} {i : Nat} {amount : Decimal} {err : PostingError}
    (hamount : e.valueIn (.entryUnits i) bound = .ok amount)
    (h : resolveUnits e i bound = .error err) :
    amount.isNegative = true ∧ err = .negativeUnits i amount := by
  unfold resolveUnits at h
  rcases bind_eq_error.mp h with hfail | ⟨amount', hamount', h⟩
  · cases hamount.symm.trans hfail
  · cases hamount.symm.trans hamount'
    split at h
    · cases h
    · next _ hneg =>
      cases h
      exact ⟨ofDecimal_eq_error hneg, rfl⟩

/-- With all its slots read, an entry fails at its currency code or at the sign of its amount. -/
theorem resolveEntry_eq_error {e : EntryTemplate} {i : Nat} {err : PostingError}
    (hreads : EntryFields.Reads e i bound) (h : resolveEntry e i bound = .error err) :
    (∃ text why, e.currency.valueIn (.entryCurrency i) bound = .ok text ∧
        Currency.ofString text = .error why ∧
        err = .invalidValue s!"{(Slot.entryCurrency i).name}: {why.message}") ∨
      ∃ amount, e.units.valueIn (.entryUnits i) bound = .ok amount ∧ amount.isNegative = true ∧
        err = .negativeUnits i amount := by
  obtain ⟨⟨account, haccount⟩, ⟨text, htext⟩, ⟨amount, hamount⟩, ⟨description, hdescription⟩⟩ :=
    hreads
  unfold resolveEntry at h
  rcases bind_eq_error.mp h with hfail | ⟨_, -, h⟩
  · cases haccount.symm.trans hfail
  rcases bind_eq_error.mp h with hfail | ⟨_, -, h⟩
  · obtain ⟨why, hwhy, herr⟩ := resolveCurrency_eq_error htext hfail
    exact Or.inl ⟨text, why, htext, hwhy, herr⟩
  rcases bind_eq_error.mp h with hfail | ⟨_, -, h⟩
  · obtain ⟨hneg, herr⟩ := resolveUnits_eq_error hamount hfail
    exact Or.inr ⟨amount, hamount, hneg, herr⟩
  rcases bind_eq_error.mp h with hfail | ⟨_, -, h⟩
  · cases hdescription.symm.trans hfail
  · cases h

/-- A check that fails has overflowed or found a bucket whose totals differ. -/
theorem checkBalanced_eq_error {legs : List Leg} {err : PostingError}
    (h : checkBalanced legs = .error err) :
    (∃ before leg after totals, legs = before ++ leg :: after ∧ sumLegs before = .ok totals ∧
        ((totalsAt totals leg.bucket).on leg.side).add leg.units = none ∧
        err = .invalidValue s!"{leg.currency}/{leg.layer} total overflows") ∨
      ∃ totals b, sumLegs legs = .ok totals ∧
        ((totalsAt totals b).on .debit).value ≠ ((totalsAt totals b).on .credit).value ∧
        err = unbalancedBucket b (totalsAt totals b) := by
  cases hsum : sumLegs legs with
  | error e =>
    unfold checkBalanced at h
    rw [hsum] at h
    cases h
    exact Or.inl (sumLegs_error hsum)
  | ok totals =>
    by_cases hb : ∃ b, ((totalsAt totals b).on .debit).value ≠
        ((totalsAt totals b).on .credit).value
    · obtain ⟨b, hne, herror, -⟩ := checkBalanced_error hsum hb
      cases h.symm.trans herror
      exact Or.inr ⟨totals, b, rfl, hne, rfl⟩
    · have hok : checkBalanced legs = .ok () := by
        rw [checkBalanced_eq_ok hsum]
        intro b
        by_contra hne
        exact hb ⟨b, hne⟩
      cases h.symm.trans hok

theorem TxTemplate.refusal_of_materializeEntries {t : TxTemplate} {err : PostingError}
    (hreads : ∀ i e, t.entries[i]? = some e → EntryFields.Reads e i bound)
    (h : t.materializeEntries bound = .error err) : t.Refusal bound err := by
  rcases bind_eq_error.mp h with hfail | ⟨entries, hentries, h⟩
  · obtain ⟨⟨e, i⟩, hmem, hfail⟩ := exists_mem_of_mapM_eq_error hfail
    have he := List.mem_zipIdx_iff_getElem?.mp hmem
    rcases resolveEntry_eq_error (hreads i e he) hfail with
      ⟨text, why, htext, hwhy, rfl⟩ | ⟨amount, hamount, hneg, rfl⟩
    · exact .currency he htext hwhy
    · exact .negative he hamount hneg
  · rcases bind_eq_error.mp h with hfail | ⟨_, -, h⟩
    · rcases checkBalanced_eq_error hfail with
        ⟨before, leg, after, totals, hlegs, hsum, hnone, rfl⟩ | ⟨totals, b, hsum, hne, rfl⟩
      · exact .overflow hentries hlegs hsum hnone
      · exact .unbalanced hentries hsum hne
    · cases h

end Failures

/-! ## Soundness -/

/-- A template that was accepted, with any values bound to its parameters: the header resolves, and
if the entries fail, it is for one of the reasons listed, with the error of that reason. -/
theorem posts_of_create {new : NewTxTemplate} {now : Timestamp} {t : TxTemplate}
    (hnew : new.create now = .ok t) {supplied : Params} {bound : BoundParams}
    (hbound : t.bindParams supplied = .ok bound) :
    (∃ header, t.resolveHeader bound.params = .ok header) ∧
      ∀ err, t.materializeEntries bound.params = .error err → t.Refusal bound.params err ∧
        (err.kind = "InvalidValue" ∨ err.kind = "NegativeUnits" ∨
          err.kind = "UnbalancedTransaction") := by
  obtain ⟨hparse, hvalid⟩ := NewTxTemplate.create_eq_ok.mp hnew
  have hmatches := matches_of_bind (NewTxTemplate.nodup_of_parse hparse) hbound
  obtain ⟨hheader, hentries, -⟩ := TxTemplate.validate_eq_ok.mp hvalid
  refine ⟨(checkHeader_iff hmatches).mp hheader, fun err herr => ?_⟩
  have hrefusal := TxTemplate.refusal_of_materializeEntries
    (fun i e he => (checkEntry_iff hmatches e i).mp (hentries i e he)) herr
  refine ⟨hrefusal, ?_⟩
  cases hrefusal with
  | currency => exact Or.inl rfl
  | negative => exact Or.inr (Or.inl rfl)
  | overflow => exact Or.inl rfl
  | unbalanced => exact Or.inr (Or.inr rfl)

namespace Sample

/-- Fees in a currency of the caller's choice against seven dollars: a whole number beside a decimal
literal, a default, and identifiers that may be handed in as texts. -/
def feeTemplate : NewTxTemplate where
  id := ⟨⟨7⟩⟩
  code := " FEE "
  description := none
  params := [⟨"payer", .uuid, none, none⟩, ⟨"amount", .integer, some "7", none⟩,
    ⟨"currency", .string, none, none⟩, ⟨"day", .date, none, none⟩]
  transaction := ⟨"uuid('00000000-0000-0000-0000-000000000001')", "params.day", none,
    some "params.currency", none, none⟩
  entries := [⟨"PAID", "params.payer", "params.currency", .debit, .settled, "params.amount", none⟩,
    ⟨"FEE", "uuid('00000000-0000-0000-0000-000000000002')", "'USD'", .credit, .settled, "7.0",
      some "params.currency"⟩]
  metadata := none

/-- Texts that convert, and a name that is not declared. The euros leave the dollars alone. -/
def feeParams : Params :=
  .ofList [("currency", .string "eur"), ("day", .string " 2024-02-29 "), ("note", .boolean true),
    ("payer", .string "00000000000000000000000000000003")]

end Sample

/-- The fee template is accepted and its header resolves, but fees in euros do not balance. -/
theorem posts_of_create_sample : ∃ t bound err,
    Sample.feeTemplate.create ⟨⟨2024, 1, 1, by decide⟩, 0, 0, by decide, by decide⟩ = .ok t ∧
      t.bindParams Sample.feeParams = .ok bound ∧
      (∃ header, t.resolveHeader bound.params = .ok header) ∧
      t.materializeEntries bound.params = .error err ∧ t.Refusal bound.params err := by
  have hfails : (((Sample.feeTemplate.create ⟨⟨2024, 1, 1, by decide⟩, 0, 0, by decide,
      by decide⟩).toOption.bind fun t => (t.bindParams Sample.feeParams).toOption.bind
        fun bound => some (t.materializeEntries bound.params).isOk)) = some false := by
    decide +kernel
  obtain ⟨t, ht, hbound⟩ := Option.bind_eq_some_iff.mp hfails
  obtain ⟨bound, hbound, hisOk⟩ := Option.bind_eq_some_iff.mp hbound
  rw [toOption_eq_some] at ht hbound
  obtain ⟨err, herr⟩ := exists_eq_error (Option.some.inj hisOk)
  have hposts := posts_of_create ht hbound
  exact ⟨t, bound, err, ht, hbound, hposts.1, herr, (hposts.2 err herr).1⟩

end DoubleEntry
