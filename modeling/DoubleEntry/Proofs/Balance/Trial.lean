import DoubleEntry.Proofs.Balance.Totals
import DoubleEntry.Proofs.Engine.Provenance
import Mathlib.Data.List.Nodup

/-!
# The trial balance

A book is all that one journal holds in one currency and layer. Summed over its rows, the debits and
the credits of a book would be equal if nothing were ever rounded: every transaction has passed the
balance check, and every entry is in a row. Rounding can get in at two places, in the check of a
transaction and in the rows, so the stored sides differ by what was dropped in the rows less what
was dropped in the checks.

Main statement: `trialBalance_exact`. That a book can be out of balance is
`trialBalance_fails`.
-/

namespace DoubleEntry

open Ledger OrdMap Decimal

/-! ## Books -/

/-- A journal, a currency and a layer. -/
structure Book where
  journalId : JournalId
  bucket : Bucket
deriving DecidableEq

def BalanceKey.book (k : BalanceKey) : Book := ⟨k.journalId, ⟨k.currency, k.layer⟩⟩

def Entry.book (e : Entry) : Book := e.balanceKey.book

/-- The keys of the rows in a book. -/
def StoreState.bookKeys (s : StoreState) (book : Book) : List BalanceKey :=
  s.balances.keys.filter fun k => k.book = book

/-- The exact sum of one side of all rows in a book. -/
def StoreState.trialTotal (s : StoreState) (book : Book) (side : Side) : ℚ :=
  ((s.balances.rows.filter fun p => p.1.book = book).map fun p => (p.2.total side).value).sum

/-- The amounts of a transaction on one side of a book. -/
def Transaction.amountsOn (t : Transaction) (book : Book) (side : Side) : List Decimal :=
  sideAmounts Entry.direction (fun e => e.units.amount) side (under Entry.book book t.entries)

/-- The exact sum of all that was committed on one side of a book. -/
def postedOn (commits : List Commit) (book : Book) (side : Side) : ℚ :=
  (commits.map fun c => sumOf (c.transaction.amountsOn book side)).sum

/-- What the rows of a book have dropped on one side. -/
def droppedInRows (s : StoreState) (commits : List Commit) (book : Book) (side : Side) : ℚ :=
  ((s.bookKeys book).map fun k => droppedUnder commits k side).sum

/-- What the balance checks of the transactions in a book have dropped on one side. -/
def droppedInChecks (commits : List Commit) (book : Book) (side : Side) : ℚ :=
  ((commits.filter fun c => c.transaction.journalId = book.journalId).map fun c =>
    droppedIn c.transaction.legs book.bucket side).sum

/-! ## Sums over the keys of a book -/

/-- A sum taken key by key. -/
theorem sum_under {κ ι : Type} [DecidableEq κ] {key : ι → κ} {keys : List κ}
    (hnodup : keys.Nodup) (f : ι → ℚ) {is : List ι} (hkeys : ∀ i ∈ is, key i ∈ keys) :
    (keys.map fun k => ((under key k is).map f).sum).sum = (is.map f).sum := by
  induction is with
  | nil => simp [under]
  | cons i is ih =>
    have hrest := ih fun j hj => hkeys j (List.mem_cons_of_mem _ hj)
    have hcount : keys.count (key i) = 1 :=
      List.count_eq_one_of_mem hnodup (hkeys i List.mem_cons_self)
    have hsplit : ∀ k, ((under key k (i :: is)).map f).sum =
        (if k = key i then f i else 0) + ((under key k is).map f).sum := by
      intro k
      by_cases hk : key i = k
      · rw [under_cons_of_eq hk, if_pos hk.symm, List.map_cons, List.sum_cons]
      · rw [under_cons_of_ne hk, if_neg (Ne.symm hk), zero_add]
    simp only [hsplit]
    rw [List.sum_map_add, hrest, List.sum_map_ite_eq keys (fun _ => f i) (fun _ => 0), hcount]
    simp

theorem under_balanceKey_under_book (k : BalanceKey) (es : List Entry) :
    under Entry.balanceKey k (under Entry.book k.book es) = under Entry.balanceKey k es := by
  unfold under
  rw [List.filter_filter]
  refine List.filter_congr fun e _ => ?_
  rw [Bool.and_eq_left_iff_imp]
  intro h
  exact decide_eq_true (congrArg BalanceKey.book (of_decide_eq_true h))

section Keys

variable {keys : List BalanceKey} {book : Book}

/-- Under the keys of a book a transaction has the amounts it has in the book. -/
theorem sum_amountsUnder (hnodup : keys.Nodup) (hbook : ∀ k ∈ keys, k.book = book) {t : Transaction}
    (hkeys : ∀ e ∈ t.entries, e.book = book → e.balanceKey ∈ keys) (side : Side) :
    (keys.map fun k => sumOf (t.amountsUnder k side)).sum = sumOf (t.amountsOn book side) := by
  let es := (under Entry.book book t.entries).filter fun e => e.direction = side
  have hes : ∀ e ∈ es, e.balanceKey ∈ keys := by
    intro e he
    obtain ⟨he, -⟩ := List.mem_filter.mp he
    obtain ⟨he, hin⟩ := List.mem_filter.mp he
    exact hkeys e he (of_decide_eq_true hin)
  have hsum := sum_under hnodup (fun e : Entry => e.units.amount.value) hes
  have hkey : ∀ k ∈ keys, sumOf (t.amountsUnder k side) =
      ((under Entry.balanceKey k es).map fun e => e.units.amount.value).sum := by
    intro k hk
    obtain rfl := hbook k hk
    have hcomm : under Entry.balanceKey k es =
        (t.entriesUnder k).filter fun e => e.direction = side := by
      unfold Transaction.entriesUnder
      rw [← under_balanceKey_under_book k t.entries]
      exact List.filter_comm _ _ _
    rw [hcomm]
    unfold sumOf Transaction.amountsUnder sideAmounts
    rw [List.map_map]
    rfl
  rw [List.map_congr_left hkey, hsum]
  unfold sumOf Transaction.amountsOn sideAmounts
  rw [List.map_map]
  rfl

theorem sum_posted (hnodup : keys.Nodup) (hbook : ∀ k ∈ keys, k.book = book)
    {commits : List Commit}
    (hkeys : ∀ c ∈ commits, ∀ e ∈ c.transaction.entries, e.book = book → e.balanceKey ∈ keys)
    (side : Side) : (keys.map fun k => posted commits k side).sum = postedOn commits book side := by
  unfold posted postedOn
  induction commits with
  | nil => simp
  | cons c commits ih =>
    simp only [List.map_cons, List.sum_cons]
    rw [List.sum_map_add, sum_amountsUnder hnodup hbook (hkeys c List.mem_cons_self),
      ih fun c' hc' => hkeys c' (List.mem_cons_of_mem _ hc')]

end Keys

/-! ## The rows of a book -/

theorem nodup_bookKeys (s : StoreState) (book : Book) : (s.bookKeys book).Nodup :=
  s.balances.nodup_keys.filter _

/-- Every entry committed in a book has a row there. -/
theorem mem_bookKeys_of_committed {h : Chronicle} (hsummed : h.Summed) {book : Book} :
    ∀ c ∈ h.commits, ∀ e ∈ c.transaction.entries, e.book = book →
      e.balanceKey ∈ h.state.bookKeys book := by
  intro c hc e he hbook
  obtain ⟨b, hb⟩ := (hsummed.exists_row_iff e.balanceKey).mpr ⟨c, hc, List.mem_map_of_mem he⟩
  exact List.mem_filter.mpr ⟨mem_keys_of_get? hb, decide_eq_true hbook⟩

theorem value_total_of_get? {h : Chronicle} (hsummed : h.Summed) {k : BalanceKey}
    {b : BalanceSnapshot} (hb : h.state.balances.get? k = some b) (side : Side) :
    (b.total side).value = posted h.commits k side - droppedUnder h.commits k side :=
  value_total_of_sums (hsummed.sums k b hb) side

/-- The rows of a book hold what was committed there, less what they dropped. -/
theorem trialTotal_of_summed {h : Chronicle} (hsummed : h.Summed) (book : Book) (side : Side) :
    h.state.trialTotal book side =
      postedOn h.commits book side - droppedInRows h.state h.commits book side := by
  have hkeys : h.state.bookKeys book =
      (h.state.balances.rows.filter fun p => p.1.book = book).map Prod.fst := List.filter_map
  have hrows : ∀ p ∈ h.state.balances.rows.filter fun p => p.1.book = book,
      (p.2.total side).value + droppedUnder h.commits p.1 side = posted h.commits p.1 side := by
    intro p hp
    obtain ⟨hp, -⟩ := List.mem_filter.mp hp
    rw [value_total_of_get? hsummed (mem_rows_iff.mp hp), sub_add_cancel]
  have hposted := sum_posted (nodup_bookKeys h.state book)
    (fun k hk => of_decide_eq_true (List.mem_filter.mp hk).2)
    (mem_bookKeys_of_committed hsummed) side
  unfold StoreState.trialTotal droppedInRows
  rw [eq_sub_iff_add_eq, ← hposted, hkeys, List.map_map, List.map_map, ← List.sum_map_add]
  exact congrArg List.sum (List.map_congr_left hrows)

/-! ## The checks of a book -/

/-- In a book of its journal, a transaction has the amounts that the check sees. -/
theorem Transaction.InOneJournal.amountsOn {t : Transaction} (h : t.InOneJournal) {book : Book}
    (hjournal : t.journalId = book.journalId) (side : Side) :
    t.amountsOn book side = amountsIn t.legs book.bucket side := by
  have hin : under Entry.book book t.entries =
      t.entries.filter fun e => e.leg.bucket = book.bucket := by
    refine List.filter_congr fun e he => decide_eq_decide.mpr ?_
    have he : e.journalId = book.journalId := (h e he).trans hjournal
    constructor
    · rintro rfl
      rfl
    · intro hbucket
      obtain ⟨journal, bucket⟩ := book
      cases he
      cases hbucket
      rfl
  unfold Transaction.amountsOn amountsIn sideAmounts Transaction.legs under
  rw [List.filter_map, List.filter_map, List.map_map]
  exact congrArg (fun es => (es.filter fun e : Entry => e.direction = side).map
    fun e => e.units.amount) hin

/-- In a book of another journal, a transaction has nothing. -/
theorem Transaction.InOneJournal.amountsOn_eq_nil {t : Transaction} (h : t.InOneJournal)
    {book : Book} (hjournal : t.journalId ≠ book.journalId) (side : Side) :
    t.amountsOn book side = [] := by
  have hout : under Entry.book book t.entries = [] := by
    rw [under_eq_nil_iff]
    intro hmem
    obtain ⟨e, he, rfl⟩ := List.mem_map.mp hmem
    exact hjournal (h e he).symm
  unfold Transaction.amountsOn
  rw [hout]
  rfl

/-- The check of a transaction compares exact sums less what it drops. -/
theorem exactTotal_sub_droppedIn {legs : List Leg} (h : checkBalanced legs = .ok ()) (b : Bucket) :
    exactTotal legs b .debit - droppedIn legs b .debit =
      exactTotal legs b .credit - droppedIn legs b .credit := by
  obtain ⟨totals, hsum⟩ := exists_totals_of_ok h
  exact (decidedBy_rounded hsum).accepts.mp h b

/-- What was committed in a book is balanced but for what the checks dropped. -/
theorem postedOn_sub_droppedInChecks {commits : List Commit}
    (h : ∀ c ∈ commits, c.transaction.InOneJournal ∧ checkBalanced c.transaction.legs = .ok ())
    (book : Book) :
    postedOn commits book .debit - droppedInChecks commits book .debit =
      postedOn commits book .credit - droppedInChecks commits book .credit := by
  unfold postedOn droppedInChecks
  induction commits with
  | nil => rfl
  | cons c commits ih =>
    obtain ⟨hjournal, hchecked⟩ := h c List.mem_cons_self
    have hrest := ih fun c' hc' => h c' (List.mem_cons_of_mem _ hc')
    simp only [List.map_cons, List.sum_cons]
    by_cases hin : c.transaction.journalId = book.journalId
    · have hbook : ∀ side, sumOf (c.transaction.amountsOn book side) =
          exactTotal c.transaction.legs book.bucket side := fun side =>
        congrArg sumOf (hjournal.amountsOn hin side)
      have hc := exactTotal_sub_droppedIn hchecked book.bucket
      rw [List.filter_cons_of_pos (by simpa using hin), List.map_cons, List.map_cons,
        List.sum_cons, List.sum_cons, hbook, hbook]
      linarith
    · rw [List.filter_cons_of_neg (by simpa using hin), hjournal.amountsOn_eq_nil hin,
        hjournal.amountsOn_eq_nil hin]
      linarith

/-! ## Nothing dropped -/

/-- Every sum formed by checks and rows is a decimal. -/
structure AllFit (commits : List Commit) : Prop where
  checks : ∀ c ∈ commits, LegsFit c.transaction.legs
  rows : RowsFit commits

theorem AllFit.droppedInRows_eq_zero {commits : List Commit} (h : AllFit commits) (s : StoreState)
    (book : Book) (side : Side) : droppedInRows s commits book side = 0 := by
  unfold droppedInRows
  refine List.sum_eq_zero fun z hz => ?_
  obtain ⟨k, -, rfl⟩ := List.mem_map.mp hz
  exact h.rows.droppedUnder_eq_zero k side

theorem AllFit.droppedInChecks_eq_zero {commits : List Commit} (h : AllFit commits) (book : Book)
    (side : Side) : droppedInChecks commits book side = 0 := by
  unfold droppedInChecks
  refine List.sum_eq_zero fun z hz => ?_
  obtain ⟨c, hc, rfl⟩ := List.mem_map.mp hz
  exact dropped_of_sumsFit ((h.checks c (List.mem_filter.mp hc).1).sumsFit book.bucket side)

theorem amounts_eq_map_units (t : Transaction) : t.amounts = t.legs.map Leg.units := by
  unfold Transaction.amounts Transaction.legs
  rw [List.map_map]
  rfl

/-- Amounts that are bounded together fit everywhere. -/
theorem allFit_of_bounded {commits : List Commit} {s : Nat}
    (h : Bounded (commits.flatMap fun c => c.transaction.amounts) s) : AllFit commits := by
  refine ⟨fun c hc => legsFit_of_bounded (s := s) ?_, rowsFit_of_bounded h⟩
  rw [← amounts_eq_map_units]
  exact h.sublist (List.sublist_flatten_of_mem (List.mem_map_of_mem hc))

/-! ## The trial balance -/

/-- After any requests, whether they succeed or not, and for every book: a stored total is the exact
sum of what was committed under its key, less what the additions to it have dropped; the stored
debits and credits of the book are equal if and only if its rows have dropped as much more on one
side than on the other as its checks have; and as long as every sum is a decimal, the stored totals
are exact and the book is balanced. -/
theorem trialBalance_exact (requests : List Request) (book : Book) :
    let s := stateAfter requests
    let commits := commitsAfter requests
    (∀ k b side, s.balances.get? k = some b →
      (b.total side).value = posted commits k side - droppedUnder commits k side) ∧
    (s.trialTotal book .debit = s.trialTotal book .credit ↔
      droppedInRows s commits book .debit - droppedInRows s commits book .credit =
        droppedInChecks commits book .debit - droppedInChecks commits book .credit) ∧
    (AllFit commits →
      s.trialTotal book .debit = s.trialTotal book .credit ∧
      ∀ k b side, s.balances.get? k = some b → (b.total side).value = posted commits k side) := by
  intro s commits
  have hsummed := summed_chronicleAfter requests
  have hstate : (chronicleAfter requests).state = s := state_chronicleAfter requests
  have hrow : ∀ k b side, s.balances.get? k = some b →
      (b.total side).value = posted commits k side - droppedUnder commits k side := by
    intro k b side hb
    rw [← hstate] at hb
    exact value_total_of_get? hsummed hb side
  have htotal : ∀ side, s.trialTotal book side =
      postedOn commits book side - droppedInRows s commits book side := by
    intro side
    rw [← hstate]
    exact trialTotal_of_summed hsummed book side
  have hchecks := postedOn_sub_droppedInChecks (checked_of_committed requests) book
  refine ⟨hrow, ?_, fun hfit => ⟨?_, fun k b side hb => ?_⟩⟩
  · rw [htotal, htotal]
    constructor <;> intro h <;> linarith
  · rw [htotal, htotal, hfit.droppedInRows_eq_zero, hfit.droppedInRows_eq_zero]
    rw [hfit.droppedInChecks_eq_zero, hfit.droppedInChecks_eq_zero] at hchecks
    exact hchecks
  · rw [hrow k b side hb, hfit.rows.droppedUnder_eq_zero, sub_zero]

/-- On the sample ledger everything fits: transfers of several scales, a void and a transfer to an
account that is not there. -/
theorem trialBalance_exact_sample :
    let requests := Sample.opened ++
      [Sample.request 100 (Sample.transfer 3 2 250 2 "a"),
        Sample.request 200 (Sample.transfer 3 4 125 18 "b"),
        Sample.request 300 (.void ⟨Sample.uuid 100⟩),
        Sample.request 400 (Sample.transfer 3 5 1 0 "c")]
    let s := stateAfter requests
    ∃ b, s.balances.get? (Sample.dollarsOf 3) = some b ∧
      AllFit (commitsAfter requests) ∧
      (b.total .debit).value = posted (commitsAfter requests) (Sample.dollarsOf 3) .debit ∧
      s.trialTotal (Sample.dollarsOf 3).book .debit =
        s.trialTotal (Sample.dollarsOf 3).book .credit ∧
      s.trialTotal (Sample.dollarsOf 3).book .debit = 5 + 125 / 10 ^ 18 := by
  intro requests s
  obtain ⟨b, hb⟩ : ∃ b, s.balances.get? (Sample.dollarsOf 3) = some b :=
    Option.isSome_iff_exists.mp (by decide +kernel)
  have hfit : AllFit (commitsAfter requests) :=
    allFit_of_bounded (s := 18) ⟨by decide +kernel, by decide +kernel, by decide +kernel,
      by decide +kernel⟩
  obtain ⟨hbalanced, hrows⟩ := (trialBalance_exact requests (Sample.dollarsOf 3).book).2.2 hfit
  exact ⟨b, hb, hfit, hrows _ b .debit hb, hbalanced, by decide +kernel⟩

/-- Two transfers too small to show beside a large one are lost from the debits of an account, and
the book is out of balance. -/
theorem trialBalance_fails :
    let requests := Sample.opened ++
      [Sample.request 100 (Sample.transfer 2 3 80000000000 0 "a"),
        Sample.request 200 (Sample.transfer 2 4 5 18 "b"),
        Sample.request 300 (Sample.transfer 2 4 5 18 "c")]
    let s := stateAfter requests
    s.trialTotal (Sample.dollarsOf 2).book .debit = 80000000000 ∧
      s.trialTotal (Sample.dollarsOf 2).book .credit = 80000000000 + 1 / 10 ^ 17 := by
  decide +kernel

end DoubleEntry
