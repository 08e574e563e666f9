import DoubleEntry.Proofs.Engine.Operations
import DoubleEntry.Proofs.Template.Soundness

/-!
# Creation and posting check the same

The checks of a template without parameter values and those of a posting with them are two
implementations of the same rules: types of slots, currency codes, signs, and debits against
credits. They agree both ways.

* A template that posts under some values passes validation (`validate_of_posts`); so creation
  rejects no template that could post.
* Where currency and amount of every entry are literals, validation has compared the very legs that
  a posting compares, so a template that passes it posts under whatever values bind.

Both rest on `literalLegs_of_resolve`: the leg that validation takes from an entry, if it takes one,
is the leg that the entry posts.

Main statement: `validate_agrees`.
-/

namespace DoubleEntry

/-! ## Literals and what they resolve to -/

/-- Currency and amount are literals, whatever the other fields are. -/
def EntryFields.isLiteral (e : EntryTemplate) : Bool :=
  e.currency.literal?.isSome && e.units.literal?.isSome

section Literals

variable {bound : Params} {e : Expr} {i : Nat}

theorem literal?_of_valueIn_currency {text : String}
    (h : e.valueIn (.entryCurrency i) bound = .ok text) (hliteral : e.literal?.isSome = true) :
    e.literal? = some (.string text) := by
  cases e with
  | param name => cases hliteral
  | literal v =>
    cases v with
    | string s =>
      cases h
      rfl
    | _ => cases h

/-- A whole number is read as the amount that it is compared as. -/
theorem literalAmount?_of_valueIn_units {amount : Decimal}
    (h : e.valueIn (.entryUnits i) bound = .ok amount) (hliteral : e.literal?.isSome = true) :
    literalAmount? e = some amount := by
  cases e with
  | param name => cases hliteral
  | literal v =>
    cases v with
    | decimal d =>
      cases h
      rfl
    | integer n =>
      cases h
      rfl
    | _ => cases h

theorem literalCurrency?_of_resolve {c : Currency} (h : resolveCurrency e i bound = .ok c) :
    literalCurrency? e i = .ok (if e.literal?.isSome then some c else none) := by
  unfold resolveCurrency at h
  obtain ⟨text, htext, h⟩ := bind_eq_ok.mp h
  have hcode : Currency.ofString text = .ok c := by
    split at h
    · next hcode =>
      cases h
      exact hcode
    · cases h
  by_cases hliteral : e.literal?.isSome = true
  · rw [if_pos hliteral]
    unfold literalCurrency?
    rw [literal?_of_valueIn_currency htext hliteral]
    dsimp only
    rw [hcode]
  · rw [if_neg hliteral]
    unfold literalCurrency?
    rw [Option.not_isSome_iff_eq_none.mp hliteral]

theorem eq_of_ofDecimal {amount : Decimal} {u : Units} (h : Units.ofDecimal amount = .ok u) :
    u.amount = amount ∧ amount.isNegative = false := by
  unfold Units.ofDecimal at h
  split at h
  · next hnonneg =>
    cases h
    exact ⟨rfl, decide_eq_false (Int.not_lt.mpr hnonneg)⟩
  · cases h

theorem literalUnits?_of_resolve {u : Units} (h : resolveUnits e i bound = .ok u) :
    literalUnits? e i = .ok (if e.literal?.isSome then some u.amount else none) := by
  unfold resolveUnits at h
  obtain ⟨amount, hamount, h⟩ := bind_eq_ok.mp h
  have hunits : Units.ofDecimal amount = .ok u := by
    split at h
    · next hunits =>
      cases h
      exact hunits
    · cases h
  obtain ⟨rfl, hsign⟩ := eq_of_ofDecimal hunits
  unfold literalUnits?
  by_cases hliteral : e.literal?.isSome = true
  · rw [if_pos hliteral, literalAmount?_of_valueIn_units hamount hliteral]
    dsimp only
    rw [hsign]
    rfl
  · rw [if_neg hliteral]
    unfold literalAmount?
    rw [Option.not_isSome_iff_eq_none.mp hliteral]

theorem literalLeg?_of_resolve {e : EntryTemplate} {r : ResolvedEntry}
    (h : resolveEntry e i bound = .ok r) :
    literalLeg? e i = .ok (if EntryFields.isLiteral e then some r.leg else none) := by
  unfold resolveEntry at h
  obtain ⟨account, -, h⟩ := bind_eq_ok.mp h
  obtain ⟨c, hc, h⟩ := bind_eq_ok.mp h
  obtain ⟨u, hu, h⟩ := bind_eq_ok.mp h
  obtain ⟨description, -, h⟩ := bind_eq_ok.mp h
  cases h
  unfold literalLeg? EntryFields.isLiteral
  rw [literalCurrency?_of_resolve hc, literalUnits?_of_resolve hu]
  cases e.currency.literal? <;> cases e.units.literal? <;> rfl

/-- All entries are literals exactly if there are legs to compare, and these are the legs posted. -/
theorem literalLegs_of_resolve {es : List (EntryTemplate × Nat)} {rs : List ResolvedEntry}
    (h : (es.mapM fun (e, i) => resolveEntry e i bound) = .ok rs) :
    ∃ legs, (es.mapM fun (e, i) => literalLeg? e i) = .ok legs ∧
      legs.mapM id =
        if ∀ p ∈ es, p.1.isLiteral then some (rs.map ResolvedEntry.leg) else none := by
  induction es generalizing rs with
  | nil =>
    cases h
    exact ⟨[], rfl, by simp⟩
  | cons p es ih =>
    obtain ⟨e, i⟩ := p
    rw [List.mapM_cons] at h
    obtain ⟨r, hr, h⟩ := bind_eq_ok.mp h
    obtain ⟨rs, hrs, h⟩ := bind_eq_ok.mp h
    cases h
    obtain ⟨legs, hlegs, hcollected⟩ := ih hrs
    refine ⟨(if EntryFields.isLiteral e then some r.leg else none) :: legs, ?_, ?_⟩
    · rw [List.mapM_cons]
      exact bind_eq_ok.mpr ⟨_, literalLeg?_of_resolve hr, bind_eq_ok.mpr ⟨legs, hlegs, rfl⟩⟩
    · rw [List.mapM_cons, hcollected]
      simp only [List.forall_mem_cons]
      by_cases he : EntryFields.isLiteral e = true
      · by_cases hes : ∀ p ∈ es, p.1.isLiteral = true
        · rw [if_pos he, if_pos hes, if_pos ⟨he, hes⟩]
          rfl
        · rw [if_pos he, if_neg hes, if_neg fun hall => hes hall.2]
          rfl
      · rw [if_neg he, if_neg fun hall : _ ∧ _ => he hall.1]
        rfl

end Literals

/-! ## Agreement -/

theorem EntryFields.Reads.of_resolve {e : EntryTemplate} {i : Nat} {bound : Params}
    {r : ResolvedEntry} (h : resolveEntry e i bound = .ok r) : EntryFields.Reads e i bound := by
  unfold resolveEntry at h
  obtain ⟨account, haccount, h⟩ := bind_eq_ok.mp h
  obtain ⟨c, hc, h⟩ := bind_eq_ok.mp h
  obtain ⟨u, hu, h⟩ := bind_eq_ok.mp h
  obtain ⟨description, hdescription, -⟩ := bind_eq_ok.mp h
  obtain ⟨text, htext, -⟩ := bind_eq_ok.mp hc
  obtain ⟨amount, hamount, -⟩ := bind_eq_ok.mp hu
  exact ⟨⟨account, haccount⟩, ⟨text, htext⟩, ⟨amount, hamount⟩, ⟨description, hdescription⟩⟩

section Agreement

variable {t : TxTemplate} {bound : Params}

/-- On entries that resolve, the check of literals compares the legs to be posted, or nothing. -/
theorem checkLiterals_eq_ok {entries : List ResolvedEntry}
    (hentries : t.resolveEntries bound = .ok entries) :
    checkLiterals t.entries = .ok () ↔ ((∀ p ∈ t.entries.zipIdx, p.1.isLiteral) →
      checkBalanced (entries.map ResolvedEntry.leg) = .ok ()) := by
  obtain ⟨legs, hlegs, hcollected⟩ := literalLegs_of_resolve hentries
  unfold checkLiterals
  rw [hlegs, ok_bind, hcollected]
  by_cases hall : ∀ p ∈ t.entries.zipIdx, p.1.isLiteral = true
  · rw [if_pos hall]
    dsimp only
    cases hbalanced : checkBalanced (entries.map ResolvedEntry.leg) with
    | ok _ => exact ⟨fun _ _ => rfl, fun _ => rfl⟩
    | error err => exact ⟨(nomatch ·), fun h => nomatch h hall⟩
  · rw [if_neg hall]
    exact ⟨fun _ h => absurd h hall, fun _ => rfl⟩

theorem TxTemplate.validate_of_posts (hbound : bound.Matches t.params)
    (hheader : ∃ header, t.resolveHeader bound = .ok header)
    (hposts : ∃ entries, t.materializeEntries bound = .ok entries) : t.validate = .ok () := by
  obtain ⟨entries, hposts⟩ := hposts
  obtain ⟨resolved, hresolved, hposts⟩ := bind_eq_ok.mp hposts
  obtain ⟨hbalanced, -⟩ := bind_unit_eq_ok.mp hposts
  refine validate_eq_ok.mpr ⟨(checkHeader_iff hbound).mpr hheader, fun i e he => ?_, ?_⟩
  · have hmem : (e, i) ∈ t.entries.zipIdx := List.mem_zipIdx_iff_getElem?.mpr he
    obtain ⟨r, hr⟩ := exists_eq_ok_of_mapM hresolved hmem
    exact (checkEntry_iff hbound e i).mpr (.of_resolve hr)
  · exact (checkLiterals_eq_ok hresolved).mpr fun _ => hbalanced

/-- An entry whose slots are read and whose literals are usable resolves, if there is nothing else
to go wrong. -/
theorem exists_resolveEntry {e : EntryTemplate} {i : Nat} {leg : Option Leg}
    (hreads : EntryFields.Reads e i bound) (hleg : literalLeg? e i = .ok leg)
    (hliteral : EntryFields.isLiteral e = true) : ∃ r, resolveEntry e i bound = .ok r := by
  obtain ⟨hcurrency, hunits⟩ := Bool.and_eq_true_iff.mp hliteral
  obtain ⟨code, hcode, hleg⟩ := bind_eq_ok.mp hleg
  obtain ⟨amount?, hamount?, -⟩ := bind_eq_ok.mp hleg
  cases hr : resolveEntry e i bound with
  | ok r => exact ⟨r, rfl⟩
  | error err =>
    rcases resolveEntry_eq_error hreads hr with
      ⟨text, why, htext, hwhy, -⟩ | ⟨amount, hamount, hnegative, -⟩
    · unfold literalCurrency? at hcode
      rw [literal?_of_valueIn_currency htext hcurrency] at hcode
      dsimp only at hcode
      rw [hwhy] at hcode
      cases hcode
    · unfold literalUnits? at hamount?
      rw [literalAmount?_of_valueIn_units hamount hunits] at hamount?
      dsimp only at hamount?
      rw [if_pos hnegative] at hamount?
      cases hamount?

theorem TxTemplate.posts_of_validate (hbound : bound.Matches t.params)
    (hvalid : t.validate = .ok ()) (hliteral : ∀ e ∈ t.entries, EntryFields.isLiteral e = true) :
    ∃ entries, t.materializeEntries bound = .ok entries := by
  obtain ⟨-, hentries, hliterals⟩ := validate_eq_ok.mp hvalid
  obtain ⟨legs, hlegs, -⟩ := bind_eq_ok.mp hliterals
  have hall : ∀ p ∈ t.entries.zipIdx, p.1.isLiteral = true := fun p hp =>
    hliteral p.1 (List.fst_mem_of_mem_zipIdx hp)
  have hresolves : ∀ p ∈ t.entries.zipIdx, ∃ r, resolveEntry p.1 p.2 bound = .ok r := by
    rintro ⟨e, i⟩ hp
    obtain ⟨leg, hleg⟩ := exists_eq_ok_of_mapM hlegs hp
    have hreads := (checkEntry_iff hbound e i).mp
      (hentries i e (List.mem_zipIdx_iff_getElem?.mp hp))
    exact exists_resolveEntry hreads hleg (hall (e, i) hp)
  obtain ⟨entries, hresolved⟩ := exists_mapM_eq_ok hresolves
  have hbalanced := (checkLiterals_eq_ok hresolved).mp hliterals hall
  exact ⟨entries, bind_eq_ok.mpr ⟨entries, hresolved, bind_unit_eq_ok.mpr ⟨hbalanced, rfl⟩⟩⟩

end Agreement

/-- For a template whose parameters have distinct names, and values that bind to them: if it passes
validation and currency and amount of every entry are literals, it posts; and if it does not pass,
its header or its entries do not resolve. -/
theorem validate_agrees {t : TxTemplate} {supplied : Params} {bound : BoundParams}
    (hnames : (t.params.map ParamDefinition.name).Nodup)
    (hbound : t.bindParams supplied = .ok bound) :
    (t.validate = .ok () → (∀ e ∈ t.entries, EntryFields.isLiteral e = true) →
      (∃ header, t.resolveHeader bound.params = .ok header) ∧
        ∃ entries, t.materializeEntries bound.params = .ok entries) ∧
    ∀ err, t.validate = .error err →
      (∃ e, t.resolveHeader bound.params = .error e) ∨
        ∃ e, t.materializeEntries bound.params = .error e := by
  have hmatches := matches_of_bind hnames hbound
  refine ⟨fun hvalid hliteral => ?_, fun err herr => ?_⟩
  · exact ⟨(checkHeader_iff hmatches).mp (TxTemplate.validate_eq_ok.mp hvalid).1,
      TxTemplate.posts_of_validate hmatches hvalid hliteral⟩
  · cases hheader : t.resolveHeader bound.params with
    | error e => exact Or.inl ⟨e, rfl⟩
    | ok header =>
      cases hentries : t.materializeEntries bound.params with
      | error e => exact Or.inr ⟨e, rfl⟩
      | ok entries =>
        have hvalid := TxTemplate.validate_of_posts hmatches ⟨header, hheader⟩ ⟨entries, hentries⟩
        cases hvalid.symm.trans herr

namespace Sample

/-- A fee in dollars, whole on one side and with fraction digits on the other. -/
def flatFee (units : String) : NewTxTemplate :=
  { feeTemplate with
    code := "FLAT"
    entries := [⟨"PAID", "params.payer", "' usd '", .debit, .settled, "7", none⟩,
      ⟨"FEE", "uuid('00000000-0000-0000-0000-000000000002')", "'USD'", .credit, .settled, units,
        none⟩] }

/-- What validation says to a flat fee that parses, binds and consists of literals. -/
def flatFeeVerdict (units : String) : Option Bool := do
  let t ← ((flatFee units).parse now).toOption
  let _ ← (t.bindParams feeParams).toOption
  if t.entries.all EntryFields.isLiteral then some t.validate.isOk else none

end Sample

/-- Seven against 7.00 passes and posts; seven against 7.01 does neither. -/
theorem validate_agrees_sample :
    (∃ t bound, (Sample.flatFee "7.00").parse
        ⟨⟨2024, 1, 1, by decide⟩, 0, 0, by decide, by decide⟩ = .ok t ∧
      t.bindParams Sample.feeParams = .ok bound ∧ t.validate = .ok () ∧
      (∃ header, t.resolveHeader bound.params = .ok header) ∧
      ∃ entries, t.materializeEntries bound.params = .ok entries) ∧
    ∃ t bound err, (Sample.flatFee "7.01").parse
        ⟨⟨2024, 1, 1, by decide⟩, 0, 0, by decide, by decide⟩ = .ok t ∧
      t.bindParams Sample.feeParams = .ok bound ∧ t.validate = .error err ∧
      ((∃ e, t.resolveHeader bound.params = .error e) ∨
        ∃ e, t.materializeEntries bound.params = .error e) := by
  constructor
  · have hverdict : Sample.flatFeeVerdict "7.00" = some true := by decide +kernel
    unfold Sample.flatFeeVerdict at hverdict
    obtain ⟨t, hparse, hverdict⟩ := Option.bind_eq_some_iff.mp hverdict
    obtain ⟨bound, hbound, hverdict⟩ := Option.bind_eq_some_iff.mp hverdict
    rw [toOption_eq_some] at hparse hbound
    obtain ⟨hliteral, hvalid⟩ := Option.ite_none_right_eq_some.mp hverdict
    obtain ⟨⟨⟩, hvalid⟩ := exists_eq_ok (Option.some.inj hvalid)
    have hagrees := validate_agrees (NewTxTemplate.nodup_of_parse hparse) hbound
    exact ⟨t, bound, hparse, hbound, hvalid,
      hagrees.1 hvalid fun e he => List.all_eq_true.mp hliteral e he⟩
  · have hverdict : Sample.flatFeeVerdict "7.01" = some false := by decide +kernel
    unfold Sample.flatFeeVerdict at hverdict
    obtain ⟨t, hparse, hverdict⟩ := Option.bind_eq_some_iff.mp hverdict
    obtain ⟨bound, hbound, hverdict⟩ := Option.bind_eq_some_iff.mp hverdict
    rw [toOption_eq_some] at hparse hbound
    obtain ⟨-, hvalid⟩ := Option.ite_none_right_eq_some.mp hverdict
    obtain ⟨err, herr⟩ := exists_eq_error (Option.some.inj hvalid)
    have hagrees := validate_agrees (NewTxTemplate.nodup_of_parse hparse) hbound
    exact ⟨t, bound, err, hparse, hbound, herr, hagrees.2 err herr⟩

end DoubleEntry
