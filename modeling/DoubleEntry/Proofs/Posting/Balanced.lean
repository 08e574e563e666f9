import DoubleEntry.Posting.Balanced
import DoubleEntry.Proofs.Decimal.Sums
import DoubleEntry.Proofs.Grouping

/-!
# What the balance check decides

`checkBalanced` adds up the legs of every bucket with decimals, which round once a sum has more
digits than a coefficient holds. As long as every running sum is a decimal (`LegsFit`) nothing is
rounded, and the verdict is that of exact arithmetic. In general the two sides of a bucket count as
equal when their exact sums differ by just as much as rounding has dropped from them.

Main statement: `checkBalanced_exact`. Two lists of legs show that the condition is needed:
`checkBalanced_rejects_balanced` and `checkBalanced_accepts_unbalanced`.
-/

namespace DoubleEntry

open OrdMap Decimal

/-! ## Exact sums -/

/-- The amounts on one side of a bucket, in their order. -/
def amountsIn (legs : List Leg) (b : Bucket) (side : Side) : List Decimal :=
  sideAmounts Leg.side Leg.units side (under Leg.bucket b legs)

/-- The exact sum of one side of a bucket. -/
def exactTotal (legs : List Leg) (b : Bucket) (side : Side) : ℚ := sumOf (amountsIn legs b side)

/-- The sides of a bucket are exactly equal. -/
def ExactlyBalanced (legs : List Leg) (b : Bucket) : Prop :=
  exactTotal legs b .debit = exactTotal legs b .credit

/-- However many of the legs are added up, each side of each bucket comes to a decimal. -/
def LegsFit (legs : List Leg) : Prop :=
  ∀ p, p <+: legs → ∀ b side, IsDecimal (exactTotal p b side)

theorem amountsIn_sublist (legs : List Leg) (b : Bucket) (side : Side) :
    (amountsIn legs b side).Sublist (legs.map Leg.units) :=
  (sideAmounts_sublist side _).trans (List.filter_sublist.map Leg.units)

theorem amountsIn_eq_nil {legs : List Leg} {b : Bucket} (h : b ∉ legs.map Leg.bucket)
    (side : Side) : amountsIn legs b side = [] := by
  unfold amountsIn
  rw [under_eq_nil_iff.mpr h]
  rfl

/-- What is added up first on a side of a bucket is there after the first so many legs. -/
theorem exists_prefix_amountsIn {legs : List Leg} {b : Bucket} {side : Side} {q : List Decimal}
    (h : q <+: amountsIn legs b side) : ∃ p, p <+: legs ∧ amountsIn p b side = q := by
  obtain ⟨q₁, h₁, rfl⟩ := List.prefix_map_iff.mp h
  obtain ⟨q₂, h₂, rfl⟩ := List.prefix_filter_iff.mp h₁
  obtain ⟨p, hp, rfl⟩ := List.prefix_filter_iff.mp h₂
  exact ⟨p, hp, rfl⟩

theorem LegsFit.sumsFit {legs : List Leg} (h : LegsFit legs) (b : Bucket) (side : Side) :
    SumsFit (amountsIn legs b side) := by
  intro q hq
  obtain ⟨p, hp, rfl⟩ := exists_prefix_amountsIn hq
  exact h p hp b side

theorem LegsFit.initial {legs p : List Leg} (h : LegsFit legs) (hp : p <+: legs) : LegsFit p :=
  fun q hq => h q (hq.trans hp)

/-- A bucket without legs is balanced. -/
theorem exactlyBalanced_of_not_mem {legs : List Leg} {b : Bucket} (h : b ∉ legs.map Leg.bucket) :
    ExactlyBalanced legs b := by
  unfold ExactlyBalanced exactTotal
  rw [amountsIn_eq_nil h, amountsIn_eq_nil h]

/-- Amounts that are bounded together fit in any order. -/
theorem legsFit_of_bounded {legs : List Leg} {s : Nat} (h : Bounded (legs.map Leg.units) s) :
    LegsFit legs := fun p hp b side =>
  (h.sublist ((amountsIn_sublist p b side).trans (hp.sublist.map _))).isDecimal_sumOf

/-! ## The totals of the check -/

/-- The sum of one side. -/
def SideTotals.on (t : SideTotals) : Side → Decimal
  | .debit => t.debits
  | .credit => t.credits

/-- Add a leg to the totals of its bucket, or fail. -/
def SideTotals.addLeg (t : SideTotals) (leg : Leg) : Except PostingError SideTotals :=
  match t.add leg.side leg.units with
  | some t => .ok t
  | none => .error (.invalidValue s!"{leg.currency}/{leg.layer} total overflows")

theorem SideTotals.toOption_addLeg (t : SideTotals) (leg : Leg) :
    (t.addLeg leg).toOption = t.add leg.side leg.units := by
  unfold addLeg
  cases t.add leg.side leg.units <;> rfl

theorem SideTotals.add_eq_some {t t' : SideTotals} {side : Side} {units : Decimal}
    (h : t.add side units = some t') :
    (t.on side).add units = some (t'.on side) ∧ t'.on side.opposite = t.on side.opposite := by
  unfold add at h
  cases side with
  | debit =>
    obtain ⟨d, hd, rfl⟩ := Option.map_eq_some_iff.mp h
    exact ⟨hd, rfl⟩
  | credit =>
    obtain ⟨c, hc, rfl⟩ := Option.map_eq_some_iff.mp h
    exact ⟨hc, rfl⟩

theorem SideTotals.exists_add {t : SideTotals} {leg : Leg} {d : Decimal}
    (h : (t.on leg.side).add leg.units = some d) :
    ∃ t', t.add leg.side leg.units = some t' ∧ t'.on leg.side = d ∧
      t'.on leg.side.opposite = t.on leg.side.opposite := by
  unfold add
  cases hside : leg.side with
  | debit =>
    rw [hside] at h
    exact ⟨⟨d, t.credits⟩, congrArg (Option.map _) h, rfl, rfl⟩
  | credit =>
    rw [hside] at h
    exact ⟨⟨t.debits, d⟩, congrArg (Option.map _) h, rfl, rfl⟩

theorem SideTotals.on_add_eq_none {t : SideTotals} {side : Side} {units : Decimal}
    (h : t.add side units = none) : (t.on side).add units = none := by
  unfold add at h
  cases side with
  | debit => exact Option.map_eq_none_iff.mp h
  | credit => exact Option.map_eq_none_iff.mp h

theorem addLeg_eq_gather (totals : OrdMap Bucket SideTotals) (leg : Leg) :
    addLeg totals leg =
      gather Leg.bucket (fun _ => SideTotals.zero) SideTotals.addLeg totals leg := by
  unfold addLeg gather SideTotals.addLeg valueAt
  cases ((totals.get? leg.bucket).getD .zero).add leg.side leg.units <;> rfl

theorem sumLegs_eq_gather (legs : List Leg) :
    sumLegs legs =
      legs.foldlM (gather Leg.bucket (fun _ => SideTotals.zero) SideTotals.addLeg) ∅ := by
  unfold sumLegs
  rw [funext fun totals => funext (addLeg_eq_gather totals)]

/-- The totals under a bucket, zero where it does not occur. -/
def totalsAt (totals : OrdMap Bucket SideTotals) (b : Bucket) : SideTotals :=
  valueAt (fun _ => .zero) totals b

section Totals

variable {legs : List Leg} {totals : OrdMap Bucket SideTotals}

theorem mem_keys_sumLegs (h : sumLegs legs = .ok totals) {b : Bucket} :
    b ∈ totals.keys ↔ b ∈ legs.map Leg.bucket := by
  rw [sumLegs_eq_gather] at h
  rw [mem_keys_gather h]
  simp

/-- Each side of each bucket is the running total of its own amounts. -/
theorem total_amountsIn (h : sumLegs legs = .ok totals) (b : Bucket) (side : Side) :
    total (amountsIn legs b side) = some ((totalsAt totals b).on side) := by
  rw [sumLegs_eq_gather] at h
  have hfold := congrArg Except.toOption (foldlM_under_of_gather h b)
  rw [foldlM_toOption] at hfold
  simp only [SideTotals.toOption_addLeg] at hfold
  have hside := foldlM_side SideTotals.add_eq_some hfold side
  cases side <;> exact hside

/-- The totals exist if those of every side of every bucket do. -/
theorem exists_sumLegs (h : ∀ b side, ∃ d, total (amountsIn legs b side) = some d) :
    ∃ totals, sumLegs legs = .ok totals := by
  rw [sumLegs_eq_gather]
  refine exists_gather fun b => ?_
  have hsides : ∀ side, ∃ d, (sideAmounts Leg.side Leg.units side (under Leg.bucket b legs)).foldlM
      add (SideTotals.zero.on side) = some d := by
    intro side
    obtain ⟨d, hd⟩ := h b side
    refine ⟨d, ?_⟩
    cases side <;> exact hd
  obtain ⟨t, ht⟩ := exists_foldlM_side SideTotals.exists_add hsides
  refine ⟨t, toOption_eq_some.mp ?_⟩
  rw [foldlM_toOption]
  simp only [SideTotals.toOption_addLeg]
  exact ht

end Totals

/-! ## The verdict -/

theorem SideTotals.balanced_iff {t : SideTotals} :
    t.balanced = true ↔ (t.on .debit).value = (t.on .credit).value := same_iff

theorem checkTotals_eq_ok {rows : List (Bucket × SideTotals)} :
    checkTotals rows = .ok () ↔ ∀ p ∈ rows, p.2.balanced = true := by
  induction rows with
  | nil => simp [checkTotals]
  | cons p rest ih =>
    obtain ⟨b, t⟩ := p
    unfold checkTotals
    by_cases ht : t.balanced = true
    · rw [if_pos ht, ih]
      simp [ht]
    · rw [if_neg ht]
      simp [ht]

/-- The failure is that of the first bucket in order. -/
theorem checkTotals_error {rows : List (Bucket × SideTotals)} (hascending : Ascending rows)
    (h : ∃ p ∈ rows, p.2.balanced = false) :
    ∃ b t, (b, t) ∈ rows ∧ t.balanced = false ∧
      checkTotals rows = .error (unbalancedBucket b t) ∧
      ∀ p ∈ rows, p.2.balanced = false → p.1 = b ∨ compare b p.1 = .lt := by
  induction rows with
  | nil =>
    obtain ⟨p, hp, -⟩ := h
    cases hp
  | cons p rest ih =>
    obtain ⟨b, t⟩ := p
    obtain ⟨hhead, hrest⟩ := List.pairwise_cons.mp hascending
    unfold checkTotals
    cases ht : t.balanced with
    | false =>
      refine ⟨b, t, List.mem_cons_self, ht, if_neg Bool.false_ne_true, fun p hp _ => ?_⟩
      rcases List.mem_cons.mp hp with rfl | hp
      · exact Or.inl rfl
      · exact Or.inr (hhead p hp)
    | true =>
      have hunbalanced : ∃ p ∈ rest, p.2.balanced = false := by
        obtain ⟨p, hp, hpt⟩ := h
        rcases List.mem_cons.mp hp with rfl | hp
        · cases ht.symm.trans hpt
        · exact ⟨p, hp, hpt⟩
      obtain ⟨b', t', hmem, ht', herror, hleast⟩ := ih hrest hunbalanced
      refine ⟨b', t', List.mem_cons_of_mem _ hmem, ht', (if_pos rfl).trans herror, ?_⟩
      intro p hp hpt
      rcases List.mem_cons.mp hp with rfl | hp
      · cases ht.symm.trans hpt
      · exact hleast p hp hpt

section Verdict

variable {legs : List Leg} {totals : OrdMap Bucket SideTotals}

theorem totalsAt_of_mem {b : Bucket} {t : SideTotals} (hb : (b, t) ∈ totals.rows) :
    totalsAt totals b = t :=
  valueAt_of_get? (mem_rows_iff.mp hb)

theorem exists_mem_totals (h : sumLegs legs = .ok totals) {b : Bucket}
    (hb : b ∈ legs.map Leg.bucket) : ∃ t, (b, t) ∈ totals.rows ∧ totalsAt totals b = t := by
  obtain ⟨⟨b', t⟩, hmem, rfl⟩ := List.mem_map.mp ((mem_keys_sumLegs h).mpr hb)
  exact ⟨t, hmem, totalsAt_of_mem hmem⟩

/-- A bucket without legs has nothing on either side. -/
theorem totalsAt_of_not_mem (h : sumLegs legs = .ok totals) {b : Bucket}
    (hb : b ∉ legs.map Leg.bucket) : totalsAt totals b = .zero := by
  unfold totalsAt valueAt
  cases hget : totals.get? b with
  | none => rfl
  | some t =>
    exact absurd ((mem_keys_sumLegs h).mp (mem_keys_of_get? hget)) hb

/-- Where there are totals, the verdict compares those of every bucket. -/
theorem checkBalanced_eq_ok (h : sumLegs legs = .ok totals) :
    checkBalanced legs = .ok () ↔
      ∀ b, ((totalsAt totals b).on .debit).value = ((totalsAt totals b).on .credit).value := by
  unfold checkBalanced
  rw [h]
  show checkTotals totals.rows = .ok () ↔ _
  rw [checkTotals_eq_ok]
  constructor
  · intro hall b
    by_cases hb : b ∈ legs.map Leg.bucket
    · obtain ⟨t, hmem, ht⟩ := exists_mem_totals h hb
      rw [ht]
      exact SideTotals.balanced_iff.mp (hall (b, t) hmem)
    · rw [totalsAt_of_not_mem h hb]
      rfl
  · rintro hall ⟨b, t⟩ hmem
    have hb := hall b
    rw [totalsAt_of_mem hmem] at hb
    exact SideTotals.balanced_iff.mpr hb

/-- Where there are totals, the failure is that of the least bucket whose totals differ. -/
theorem checkBalanced_error (h : sumLegs legs = .ok totals)
    (hb : ∃ b, ((totalsAt totals b).on .debit).value ≠ ((totalsAt totals b).on .credit).value) :
    ∃ b, ((totalsAt totals b).on .debit).value ≠ ((totalsAt totals b).on .credit).value ∧
      checkBalanced legs = .error (unbalancedBucket b (totalsAt totals b)) ∧
      ∀ b', ((totalsAt totals b').on .debit).value ≠ ((totalsAt totals b').on .credit).value →
        b' = b ∨ compare b b' = .lt := by
  have hunbalanced : ∀ {t : SideTotals},
      t.balanced = false ↔ (t.on .debit).value ≠ (t.on .credit).value := by
    intro t
    rw [← Bool.not_eq_true, SideTotals.balanced_iff]
  have hmem : ∀ b, ((totalsAt totals b).on .debit).value ≠ ((totalsAt totals b).on .credit).value →
      (b, totalsAt totals b) ∈ totals.rows := by
    intro b hne
    by_cases hlegs : b ∈ legs.map Leg.bucket
    · obtain ⟨t, hmem, ht⟩ := exists_mem_totals h hlegs
      rwa [ht]
    · rw [totalsAt_of_not_mem h hlegs] at hne
      exact absurd rfl hne
  obtain ⟨b₀, hb₀⟩ := hb
  obtain ⟨b, t, hbt, hne, herror, hleast⟩ := checkTotals_error totals.ascending
    ⟨_, hmem b₀ hb₀, hunbalanced.mpr hb₀⟩
  obtain rfl := totalsAt_of_mem hbt
  refine ⟨b, hunbalanced.mp hne, ?_, fun b' hb' => ?_⟩
  · unfold checkBalanced
    rw [h]
    exact herror
  · exact hleast _ (hmem b' hb') (hunbalanced.mpr hb')

end Verdict

/-! ## Overflows -/

/-- Totals fail at the first leg whose amount does not fit on top of those before it. -/
theorem sumLegs_error {legs : List Leg} {e : PostingError} (h : sumLegs legs = .error e) :
    ∃ before leg after totals, legs = before ++ leg :: after ∧ sumLegs before = .ok totals ∧
      ((totalsAt totals leg.bucket).on leg.side).add leg.units = none ∧
      e = .invalidValue s!"{leg.currency}/{leg.layer} total overflows" := by
  induction legs using List.reverseRecOn with
  | nil => cases h
  | append_singleton legs l ih =>
    unfold sumLegs at h
    rw [List.foldlM_append] at h
    rcases bind_eq_error.mp h with hbefore | ⟨totals, htotals, h⟩
    · obtain ⟨before, leg, after, totals, hlegs, hsum, hnone, he⟩ := ih hbefore
      refine ⟨before, leg, after ++ [l], totals, ?_, hsum, hnone, he⟩
      rw [hlegs, List.append_assoc, List.cons_append]
    · refine ⟨legs, l, [], totals, rfl, htotals, ?_⟩
      rw [List.foldlM_cons] at h
      rcases bind_eq_error.mp h with hl | ⟨_, -, h⟩
      · unfold addLeg at hl
        split at hl
        · cases hl
        · next hnone =>
          cases hl
          exact ⟨SideTotals.on_add_eq_none hnone, rfl⟩
      · cases h

/-- A check that reports no overflow has totals. -/
theorem exists_totals_of_checkBalanced {legs : List Leg}
    (h : ∀ text, checkBalanced legs ≠ .error (.invalidValue text)) :
    ∃ totals, sumLegs legs = .ok totals := by
  cases hsum : sumLegs legs with
  | ok totals => exact ⟨totals, rfl⟩
  | error e =>
    obtain ⟨_, leg, _, _, _, _, _, he⟩ := sumLegs_error hsum
    subst he
    exfalso
    apply h
    unfold checkBalanced
    rw [hsum]
    rfl

theorem exists_totals_of_ok {legs : List Leg} (h : checkBalanced legs = .ok ()) :
    ∃ totals, sumLegs legs = .ok totals := by
  refine exists_totals_of_checkBalanced fun text herror => ?_
  rw [h] at herror
  cases herror

/-! ## Exactness -/

/-- What adding up one side of a bucket drops. -/
def droppedIn (legs : List Leg) (b : Bucket) (side : Side) : ℚ := dropped (amountsIn legs b side)

/-- Where every running sum is a decimal, the totals are exact. -/
theorem LegsFit.exists_totals {legs : List Leg} (h : LegsFit legs) :
    ∃ totals, sumLegs legs = .ok totals ∧
      ∀ b side, ((totalsAt totals b).on side).value = exactTotal legs b side := by
  have htotal : ∀ b side, ∃ d, total (amountsIn legs b side) = some d ∧
      d.value = exactTotal legs b side := fun b side => total_of_sumsFit (h.sumsFit b side)
  obtain ⟨totals, hsum⟩ := exists_sumLegs fun b side => (htotal b side).imp fun _ hd => hd.1
  refine ⟨totals, hsum, fun b side => ?_⟩
  obtain ⟨d, hd, hvalue⟩ := htotal b side
  obtain rfl : d = (totalsAt totals b).on side :=
    Option.some.inj (hd.symm.trans (total_amountsIn hsum b side))
  exact hvalue

/-- The check decides by the sums given: it accepts the legs if and only if both sides of every
bucket have the same sum, and otherwise reports the least bucket whose sides differ, with their
sums. -/
structure DecidedBy (legs : List Leg) (sums : Bucket → Side → ℚ) : Prop where
  accepts : checkBalanced legs = .ok () ↔ ∀ b, sums b .debit = sums b .credit
  rejects : (∃ b, sums b .debit ≠ sums b .credit) → ∃ b debits credits,
    checkBalanced legs = .error (.unbalanced b.currency b.layer debits credits) ∧
    debits.value = sums b .debit ∧ credits.value = sums b .credit ∧
    sums b .debit ≠ sums b .credit ∧
    ∀ b', sums b' .debit ≠ sums b' .credit → b' = b ∨ compare b b' = .lt

theorem decidedBy_of_totals {legs : List Leg} {totals : OrdMap Bucket SideTotals}
    (h : sumLegs legs = .ok totals) {sums : Bucket → Side → ℚ}
    (hsums : ∀ b side, ((totalsAt totals b).on side).value = sums b side) :
    DecidedBy legs sums := by
  constructor
  · rw [checkBalanced_eq_ok h]
    simp only [hsums]
  · intro hb
    simp only [← hsums] at hb ⊢
    obtain ⟨b, hb, herror, hleast⟩ := checkBalanced_error h hb
    exact ⟨b, _, _, herror, rfl, rfl, hb, hleast⟩

/-- In general rounding has a say. -/
theorem decidedBy_rounded {legs : List Leg} {totals : OrdMap Bucket SideTotals}
    (h : sumLegs legs = .ok totals) :
    DecidedBy legs fun b side => exactTotal legs b side - droppedIn legs b side :=
  decidedBy_of_totals h fun b side => value_of_total (total_amountsIn h b side)

/-- The balance check against exact arithmetic. Every running sum is a decimal if and only if the
check adds up exactly all along, and then it decides by the exact sums. In general, as long as
nothing overflows, it decides by the exact sums less the digits dropped from them. -/
theorem checkBalanced_exact (legs : List Leg) :
    (LegsFit legs ↔ ∀ p, p <+: legs → ∃ totals, sumLegs p = .ok totals ∧
      ∀ b side, ((totalsAt totals b).on side).value = exactTotal p b side) ∧
    (LegsFit legs → DecidedBy legs (exactTotal legs)) ∧
    ((∀ text, checkBalanced legs ≠ .error (.invalidValue text)) →
      DecidedBy legs fun b side => exactTotal legs b side - droppedIn legs b side) := by
  refine ⟨⟨fun h p hp => (h.initial hp).exists_totals, fun h p hp b side => ?_⟩, fun h => ?_,
    fun h => ?_⟩
  · obtain ⟨totals, -, hexact⟩ := h p hp
    exact ⟨_, hexact b side⟩
  · obtain ⟨totals, hsum, hexact⟩ := h.exists_totals
    exact decidedBy_of_totals hsum hexact
  · obtain ⟨totals, hsum⟩ := exists_totals_of_checkBalanced h
    exact decidedBy_rounded hsum

namespace Sample

/-- A settled leg in euros. -/
def euros (side : Side) (coeff : Int) (scale : Nat) : Leg :=
  ⟨⟨"EUR", by decide⟩, .settled, side, (make? coeff scale).getD .zero⟩

/-- A pending leg in a currency with eighteen fraction digits. -/
def tokens (side : Side) (coeff : Int) : Leg :=
  ⟨⟨"ETH", by decide⟩, .pending, side, (make? coeff 18).getD .zero⟩

/-- Balanced in one currency and off by the last digit in the other. -/
def mixedLegs : List Leg :=
  [euros .debit 10 2, tokens .debit 1000000000000000001, euros .credit 3 1,
    tokens .credit 600000000000000000, euros .debit 200 3, tokens .credit 400000000000000000]

end Sample

/-- Legs of several scales whose sums all fit: the check finds the last digit that is missing. -/
theorem checkBalanced_exact_sample :
    LegsFit Sample.mixedLegs ∧ DecidedBy Sample.mixedLegs (exactTotal Sample.mixedLegs) ∧
      checkBalanced Sample.mixedLegs ≠ .ok () ∧
      DecidedBy Sample.mixedLegs fun b side =>
        exactTotal Sample.mixedLegs b side - droppedIn Sample.mixedLegs b side := by
  have hfits : LegsFit Sample.mixedLegs :=
    legsFit_of_bounded (s := 18) ⟨by decide +kernel, by decide +kernel, by decide +kernel,
      by decide +kernel⟩
  have hunbalanced : ¬ ExactlyBalanced Sample.mixedLegs ⟨⟨"ETH", by decide⟩, .pending⟩ := by
    unfold ExactlyBalanced
    decide +kernel
  have hdecided := (checkBalanced_exact Sample.mixedLegs).2.1 hfits
  have hoverflow : ∀ text, checkBalanced Sample.mixedLegs ≠ .error (.invalidValue text) := by
    intro text h
    obtain ⟨b, debits, credits, hcheck, -⟩ := hdecided.rejects ⟨_, hunbalanced⟩
    rw [hcheck] at h
    cases h
  exact ⟨hfits, hdecided, fun h => hunbalanced (hdecided.accepts.mp h _),
    (checkBalanced_exact Sample.mixedLegs).2.2 hoverflow⟩

namespace Sample

/-- Two amounts too small to show beside a large one: the debits come to the credit exactly, but not
as they are added up. -/
def lostLegs : List Leg :=
  [euros .debit 80000000000 0, euros .debit 5 18, euros .debit 5 18,
    euros .credit 8000000000000000000000000001 17]

end Sample

/-- Legs that balance are rejected, since rounding has dropped digits of the debits. -/
theorem checkBalanced_rejects_balanced :
    (∀ b, ExactlyBalanced Sample.lostLegs b) ∧ ∃ e, checkBalanced Sample.lostLegs = .error e := by
  refine ⟨fun b => ?_, exists_eq_error (by decide +kernel)⟩
  by_cases hb : b ∈ Sample.lostLegs.map Leg.bucket
  · have heuros : b = ⟨⟨"EUR", by decide⟩, .settled⟩ := by
      simpa [Sample.lostLegs, Sample.euros, Leg.bucket] using hb
    rw [heuros]
    unfold ExactlyBalanced
    decide +kernel
  · exact exactlyBalanced_of_not_mem hb

/-- The same debits are accepted against a credit of the large amount alone. -/
theorem checkBalanced_accepts_unbalanced :
    let legs := Sample.lostLegs.take 3 ++ [Sample.euros .credit 80000000000 0]
    checkBalanced legs = .ok () ∧ ¬ ExactlyBalanced legs ⟨⟨"EUR", by decide⟩, .settled⟩ := by
  refine ⟨by decide +kernel, ?_⟩
  unfold ExactlyBalanced
  decide +kernel

end DoubleEntry
