import DoubleEntry.Proofs.Engine.Racing
import DoubleEntry.Proofs.Engine.WellFormed

/-!
# Entries page by page

A reader asks for the entries of an account page by page, each with the cursor that came with the
one before (`readPages`). Others use the store meanwhile and do their part before each of the
reader's calls (`SharedStore`), so entries with any times are stored on both sides of the cursor.

What is to be read after a cursor is known from the commits alone (`Chronicle.pending`), and the
store answers with it in the order of cursors (`perm_entriesAfter`, `pairwise_entriesAfter`). All
that a step has to know of the order is where a full page ends: behind its last entry comes exactly
what was not on the page (`filter_isAfter_getLast`). What one page and the pages after it have read
together is then read in order, misses nothing and repeats nothing (`PagesFrom.cons`).

Main statements: `pages_complete`, where the others make any calls, and `pages_among_callers`, where
they are operations at work.
-/

namespace DoubleEntry

open Ledger OrdMap Std

/-! ## The order of entries -/

/-- One entry comes before another in the history of an account. -/
def Entry.Precedes (e f : Entry) : Prop := compare e.cursor f.cursor = .lt

theorem Entry.Precedes.trans {e f g : Entry} (hef : e.Precedes f) (hfg : f.Precedes g) :
    e.Precedes g := TransCmp.lt_trans hef hfg

theorem Entry.not_precedes_self (e : Entry) : ¬ e.Precedes e := by
  unfold Precedes
  rw [show compare e.cursor e.cursor = .eq from ReflCmp.compare_self]
  decide

namespace StoreState

theorem isAfter_some {e f : Entry} : isAfter f.cursor (some e.cursor) = true ↔ e.Precedes f := by
  unfold isAfter Entry.Precedes
  exact beq_iff_eq

/-- What comes after an entry that comes after a cursor comes after the cursor. -/
theorem isAfter_of_precedes {after : Option EntryCursor} {e f : Entry}
    (he : isAfter e.cursor after = true) (hef : e.Precedes f) : isAfter f.cursor after = true := by
  cases after with
  | none => rfl
  | some c => exact beq_iff_eq.mpr (TransCmp.lt_trans (beq_iff_eq.mp he) hef)

/-- No entry of a page comes after its last one. -/
theorem eq_or_precedes_getLast {es : List Entry} (hes : es.Pairwise Entry.Precedes) {e last : Entry}
    (hlast : es.getLast? = some last) (he : e ∈ es) : e = last ∨ e.Precedes last := by
  obtain ⟨before, rfl⟩ := List.getLast?_eq_some_iff.mp hlast
  rcases List.mem_append.mp he with he | he
  · exact Or.inr ((List.pairwise_append.mp hes).2.2 e he last (List.mem_singleton_self _))
  · exact Or.inl (List.mem_singleton.mp he)

/-- Behind the last entry of a page comes what is not on it. -/
theorem filter_isAfter_getLast {es : List Entry} (hes : es.Pairwise Entry.Precedes) {n : Nat}
    {last : Entry} (hlast : (es.take n).getLast? = some last) :
    es.filter (fun e => isAfter e.cursor (some last.cursor)) = es.drop n := by
  rw [← List.take_append_drop n es] at hes
  obtain ⟨hpage, -, hrest⟩ := List.pairwise_append.mp hes
  have hread : (es.take n).filter (fun e => isAfter e.cursor (some last.cursor)) = [] := by
    refine List.filter_eq_nil_iff.mpr fun e he hafter => ?_
    have hlt := isAfter_some.mp hafter
    rcases eq_or_precedes_getLast hpage hlast he with rfl | hbefore
    · exact e.not_precedes_self hlt
    · exact last.not_precedes_self (hlt.trans hbefore)
  have hcoming : (es.drop n).filter (fun e => isAfter e.cursor (some last.cursor)) = es.drop n :=
    List.filter_eq_self.mpr fun e he =>
      isAfter_some.mpr (hrest last (List.mem_of_getLast? hlast) e he)
  conv_lhs => rw [← List.take_append_drop n es]
  rw [List.filter_append, hread, hcoming, List.nil_append]

end StoreState

/-! ## What there is to read -/

namespace Chronicle

/-- The entries committed, oldest commit first. -/
def entries (h : Chronicle) : List Entry := h.committed.flatMap Transaction.entries

/-- No two entries committed have the same identifier. -/
def FreshEntries (h : Chronicle) : Prop := (h.entries.map Entry.id).Nodup

def entriesOf (h : Chronicle) (account : AccountId) : List Entry :=
  h.entries.filter fun e => e.accountId = account

/-- What remains to be read after a cursor. -/
def pending (h : Chronicle) (account : AccountId) (after : Option EntryCursor) : List Entry :=
  (h.entriesOf account).filter fun e => StoreState.isAfter e.cursor after

/-- What any calls have led to. -/
def Reachable (h : Chronicle) : Prop := ∃ calls, chronicleOf calls = h

theorem Reachable.runAll {h : Chronicle} (hreach : h.Reachable)
    (calls : List (Moment × StoreCall)) : (h.runAll calls).Reachable := by
  obtain ⟨before, rfl⟩ := hreach
  exact ⟨before ++ calls, List.foldl_append⟩

theorem pending_none (h : Chronicle) (account : AccountId) :
    h.pending account none = h.entriesOf account := List.filter_eq_self.mpr fun _ _ => rfl

theorem mem_pending {h : Chronicle} {account : AccountId} {after : Option EntryCursor} {e : Entry} :
    e ∈ h.pending account after ↔
      e ∈ h.entriesOf account ∧ StoreState.isAfter e.cursor after = true := List.mem_filter

section Growing

variable {h h' : Chronicle}

theorem committed_runAll (h : Chronicle) (calls : List (Moment × StoreCall)) :
    h.committed <+: (h.runAll calls).committed := by
  induction calls generalizing h with
  | nil => exact List.prefix_refl _
  | cons p calls ih => exact (grows_run p.1 p.2 h).committed.trans (ih _)

theorem mem_entriesOf_of_prefix (hgrows : h.committed <+: h'.committed) {account : AccountId}
    {e : Entry} (he : e ∈ h.entriesOf account) : e ∈ h'.entriesOf account := by
  obtain ⟨hmem, haccount⟩ := List.mem_filter.mp he
  obtain ⟨t, ht, het⟩ := List.mem_flatMap.mp hmem
  exact List.mem_filter.mpr ⟨List.mem_flatMap.mpr ⟨t, hgrows.subset ht, het⟩, haccount⟩

theorem FreshEntries.of_prefix (hfresh : h'.FreshEntries)
    (hgrows : h.committed <+: h'.committed) : h.FreshEntries := by
  obtain ⟨more, hmore⟩ := hgrows
  unfold FreshEntries entries at hfresh ⊢
  rw [← hmore, List.flatMap_append, List.map_append] at hfresh
  exact (List.nodup_append.mp hfresh).1

end Growing

/-- Fresh stamps give fresh entries. -/
theorem Kept.freshEntries {stamps : List Stamp} {h : Chronicle} (hkept : h.Kept stamps)
    (hfresh : FreshStamps stamps) : h.FreshEntries := by
  unfold FreshEntries Chronicle.entries
  rw [List.map_flatMap]
  refine List.nodup_flatMap.mpr ⟨fun t ht => ?_, ?_⟩
  · obtain ⟨stamp, hstamp, hstamped⟩ := hkept.stamped t ht
    exact hstamped.nodup_ids hfresh hstamp
  · refine (List.pairwise_map.mp hkept.distinct).imp_of_mem fun {t u} ht hu hne => ?_
    obtain ⟨a, ha, hta⟩ := hkept.stamped t ht
    obtain ⟨b, hb, hub⟩ := hkept.stamped u hu
    intro id ht' hu'
    obtain ⟨e, he, rfl⟩ := List.mem_map.mp ht'
    obtain ⟨f, hf, hid⟩ := List.mem_map.mp hu'
    exact hta.id_ne hfresh ha hb hub hne he hf hid.symm

/-- Accounts are never deleted. -/
theorem contains_accounts_run {h : Chronicle} {account : AccountId}
    (hstored : h.state.accounts.contains account = true) (m : Moment) (c : StoreCall) :
    (Chronicle.run m c h).2.state.accounts.contains account = true := by
  have hput : ∀ a : Account, (h.state.accounts.put a.id a).contains account = true := fun a => by
    rw [contains, get?_put]
    split
    · rfl
    · exact hstored
  rcases run_effect m c h with hsame | ⟨s₁, events, records, hs₁, -, hrun⟩
  · rwa [hsame]
  · rw [hrun]
    cases hs₁ with
    | createAccount => exact hput _
    | updateAccount => exact hput _
    | _ => exact hstored

theorem contains_accounts_runAll {h : Chronicle} {account : AccountId}
    (hstored : h.state.accounts.contains account = true) (calls : List (Moment × StoreCall)) :
    (h.runAll calls).state.accounts.contains account = true := by
  induction calls generalizing h with
  | nil => exact hstored
  | cons p calls ih => exact ih (contains_accounts_run hstored p.1 p.2)

/-! ## Histories -/

/-- The histories hold the entries of the commits one after the other. -/
theorem accountEntries_chronicleOf (calls : List (Moment × StoreCall)) :
    (chronicleOf calls).state.accountEntries =
      putRows Entry.historyKey (chronicleOf calls).entries ∅ := by
  refine chronicleOf_invariant (I := fun h => h.state.accountEntries =
    putRows Entry.historyKey h.entries ∅) rfl (fun m c h hrows => ?_) calls
  rcases run_effect m c h with hsame | ⟨s₁, events, records, hs₁, -, hrun⟩
  · rwa [hsame]
  · rw [hrun]
    cases hs₁ with
    | @commit t rows hplan =>
      have hentries : (Chronicle.mk ((h.state.record t rows).withRecords records)
          (h.commits ++ [⟨m.now, t⟩])).entries = h.entries ++ t.entries := by
        unfold entries committed
        rw [List.map_append, List.flatMap_append]
        exact congrArg _ (List.append_nil t.entries)
      show putRows Entry.historyKey t.entries h.state.accountEntries = _
      rw [StoreCall.commits, hentries, hrows]
      exact List.foldl_append.symm
    | _ =>
      show h.state.accountEntries = putRows _ (Chronicle.mk _ (h.commits ++ [])).entries ∅
      rw [List.append_nil]
      exact hrows

variable {h : Chronicle}

theorem perm_accountEntries (hreach : h.Reachable) (hfresh : h.FreshEntries) :
    h.state.accountEntries.rows.Perm (h.entries.map fun e => (e.historyKey, e)) := by
  obtain ⟨calls, rfl⟩ := hreach
  rw [accountEntries_chronicleOf]
  have hperm : (putRows _ _ _).rows.Perm (_ ++ []) :=
    perm_putRows (m := ∅) (Entry.nodup_historyKey hfresh) fun _ _ => rfl
  rwa [List.append_nil] at hperm

/-- The store answers with what there is to read. -/
theorem perm_entriesAfter (hreach : h.Reachable) (hfresh : h.FreshEntries) (account : AccountId)
    (after : Option EntryCursor) :
    (h.state.entriesAfter account after).Perm (h.pending account after) := by
  refine ((StoreState.perm_entriesAfter (perm_accountEntries hreach hfresh)) account after).trans ?_
  unfold pending entriesOf
  rw [List.filter_filter]
  exact .of_eq (List.filter_congr fun e _ => by rw [Bool.and_comm])

/-- The store answers in the order of cursors, which decide between entries of one account. -/
theorem pairwise_entriesAfter (hreach : h.Reachable) (hfresh : h.FreshEntries)
    (account : AccountId) (after : Option EntryCursor) :
    (h.state.entriesAfter account after).Pairwise Entry.Precedes := by
  have hkeys : ∀ p ∈ h.state.accountEntries.rows, p.1 = p.2.historyKey := fun p hp => by
    obtain ⟨e, -, rfl⟩ := List.mem_map.mp ((perm_accountEntries hreach hfresh).subset hp)
    rfl
  refine List.pairwise_map.mpr ?_
  refine (OrdMap.ascending _).imp_of_mem fun {p q} hp hq hlt => ?_
  simp only [rows_filter, List.mem_filter, Bool.and_eq_true, beq_iff_eq] at hp hq
  rw [hkeys p hp.1] at hp hlt
  rw [hkeys q hq.1] at hq hlt
  have haccount : p.2.historyKey.accountId = q.2.historyKey.accountId := hp.2.1.trans hq.2.1.symm
  have hsame : compare q.2.historyKey.accountId q.2.historyKey.accountId = .eq :=
    ReflCmp.compare_self
  change (compare p.2.historyKey.accountId q.2.historyKey.accountId).then _ = .lt at hlt
  rw [haccount, hsame] at hlt
  exact hlt

end Chronicle

/-! ## A store that others use -/

/-- A store that others use while it is read. They do their part before every call, and a lookup
comes out with what is there then. -/
structure SharedStore (σ : Type) where
  moment : Moment
  chronicle : σ → Chronicle
  /-- The others do their part. -/
  wait : σ → σ
  run : Backend σ
  exists_runAll_wait : ∀ s, ∃ calls, chronicle (wait s) = (chronicle s).runAll calls
  run_read : ∀ {c : StoreCall} {v : c.Reply} {s : σ}, c.isRead = true →
    (chronicle (wait s)).state.answer moment c = .ok (v, (chronicle (wait s)).state) →
    run c s = (.ok v, wait s)

/-- A lookup leaves the chronicle as it is. -/
theorem Chronicle.run_read {m : Moment} {c : StoreCall} {v : c.Reply} {h : Chronicle}
    (hread : c.isRead = true) (hv : h.state.answer m c = .ok (v, h.state)) :
    Chronicle.run m c h = (.ok v, h) := by
  rw [Chronicle.run_eq_answer, hv]
  dsimp only
  rw [Chronicle.commitOf_ok, StoreCall.commits_of_isRead hread, List.append_nil]

namespace SharedStore

variable {σ : Type} {b : SharedStore σ} {s : σ}

theorem run_ask_read {c : StoreCall} {v : c.Reply} (hread : c.isRead = true)
    (hv : (b.chronicle (b.wait s)).state.answer b.moment c =
      .ok (v, (b.chronicle (b.wait s)).state)) :
    (ask c).run b.run s = (.ok v, b.wait s) := by
  unfold ask Prog.ask
  rw [Prog.run_call, b.run_read hread hv]
  rfl

theorem reachable_wait (hreach : (b.chronicle s).Reachable) :
    (b.chronicle (b.wait s)).Reachable := by
  obtain ⟨calls, hcalls⟩ := b.exists_runAll_wait s
  rw [hcalls]
  exact hreach.runAll calls

theorem committed_wait (b : SharedStore σ) (s : σ) :
    (b.chronicle s).committed <+: (b.chronicle (b.wait s)).committed := by
  obtain ⟨calls, hcalls⟩ := b.exists_runAll_wait s
  rw [hcalls]
  exact Chronicle.committed_runAll _ calls

theorem contains_accounts_wait {account : AccountId}
    (hstored : (b.chronicle s).state.accounts.contains account = true) :
    (b.chronicle (b.wait s)).state.accounts.contains account = true := by
  obtain ⟨calls, hcalls⟩ := b.exists_runAll_wait s
  rw [hcalls]
  exact Chronicle.contains_accounts_runAll hstored calls

/-- A page is read in two calls: the account is looked up, and then its entries. -/
theorem run_listAccountEntries {account : AccountId}
    (hstored : (b.chronicle s).state.accounts.contains account = true)
    (after : Option EntryCursor) (limit : UInt64) :
    (listAccountEntries account after limit).run b.run s =
      (.ok (.ofEntries (((b.chronicle (b.wait (b.wait s))).state.entriesAfter account after).take
        limit.toNat) limit), b.wait (b.wait s)) := by
  obtain ⟨a, ha⟩ := contains_iff.mp (contains_accounts_wait hstored)
  have hfind : (findAccount account).run b.run s = (.ok a, b.wait s) := by
    unfold findAccount
    rw [Prog.run_bind, run_ask_read rfl rfl]
    dsimp only
    rw [run_found]
    show (lookup _ ((b.chronicle (b.wait s)).state.accounts.get? account), b.wait s) = _
    rw [ha]
    rfl
  unfold listAccountEntries
  rw [Prog.run_bind, hfind]
  dsimp only
  rw [Prog.run_bind, run_ask_read rfl rfl]
  rfl

end SharedStore

/-! ## One page -/

/-- A page that is not full has all the entries and ends the walk; a full one goes on behind its
last entry. -/
theorem EntryPage.ofEntries_take (es : List Entry) {limit : UInt64} (hlimit : 0 < limit) :
    (es.length < limit.toNat ∧ EntryPage.ofEntries (es.take limit.toNat) limit = ⟨es, none⟩) ∨
      ∃ last, (es.take limit.toNat).getLast? = some last ∧ limit.toNat ≤ es.length ∧
        EntryPage.ofEntries (es.take limit.toNat) limit =
          ⟨es.take limit.toNat, some last.cursor⟩ := by
  have hpositive : 0 < limit.toNat := UInt64.lt_iff_toNat_lt.mp hlimit
  unfold EntryPage.ofEntries
  rcases Nat.lt_or_ge es.length limit.toNat with hshort | hfull
  · rw [List.take_of_length_le (Nat.le_of_lt hshort), if_neg (Nat.ne_of_lt hshort)]
    exact Or.inl ⟨hshort, rfl⟩
  · have hlength : (es.take limit.toNat).length = limit.toNat := List.length_take_of_le hfull
    have hne : es.take limit.toNat ≠ [] := List.ne_nil_of_length_pos (by omega)
    rw [if_pos hlength, List.getLast?_eq_some_getLast hne]
    exact Or.inr ⟨_, rfl, hfull, rfl⟩

/-! ## Page after page -/

/-- Read at most `k` pages from a cursor on, each with the cursor that came with the one before,
until there is none. -/
def readPages (account : AccountId) (limit : UInt64) :
    Nat → Option EntryCursor → Action (List EntryPage)
  | 0, _ => pure []
  | k + 1, after => do
    let page ← listAccountEntries account after limit
    match page.next with
    | none => pure [page]
    | some cursor => do
      let rest ← readPages account limit k (some cursor)
      pure (page :: rest)

/-- What is on the pages. -/
def entriesOn (pages : List EntryPage) : List Entry := pages.flatMap EntryPage.entries

/-- One of the pages came without a cursor. -/
def Ended (pages : List EntryPage) : Prop := ∃ page ∈ pages, page.next = none

theorem ended_singleton (es : List Entry) : Ended [⟨es, none⟩] :=
  ⟨_, List.mem_singleton_self _, rfl⟩

theorem ended_cons {es : List Entry} {c : EntryCursor} {pages : List EntryPage} :
    Ended (⟨es, some c⟩ :: pages) ↔ Ended pages := by
  unfold Ended
  simp

/-- What was read behind a cursor while one chronicle became another. -/
structure PagesFrom (h h' : Chronicle) (account : AccountId) (after : Option EntryCursor)
    (pages : List EntryPage) : Prop where
  stored : ∀ e ∈ entriesOn pages, e ∈ h'.pending account after
  ascending : (entriesOn pages).Pairwise Entry.Precedes
  complete : Ended pages → ∀ e ∈ h.pending account after, e ∈ entriesOn pages

/-- The number of pages there are behind a cursor. -/
def Chronicle.pagesLeft (h : Chronicle) (account : AccountId) (after : Option EntryCursor)
    (limit : UInt64) : Nat := (h.pending account after).length / limit.toNat + 1

section Walk

variable {account : AccountId} {limit : UInt64} {h h₁ h' : Chronicle} {after : Option EntryCursor}
  {last : Entry} {pages : List EntryPage}

theorem PagesFrom.nil : PagesFrom h h' account after [] :=
  ⟨fun _ he => absurd he List.not_mem_nil, .nil, fun ⟨_, hpage, _⟩ => absurd hpage List.not_mem_nil⟩

/-- A page that is not full has what there is to read. -/
theorem PagesFrom.single (hreach : h₁.Reachable) (hfresh : h₁.FreshEntries)
    (hgrows : h.committed <+: h₁.committed) :
    PagesFrom h h₁ account after [⟨h₁.state.entriesAfter account after, none⟩] := by
  have hperm := h₁.perm_entriesAfter hreach hfresh account after
  have hpage : entriesOn [⟨h₁.state.entriesAfter account after, none⟩] =
      h₁.state.entriesAfter account after := List.append_nil _
  refine ⟨fun e he => ?_, ?_, fun _ e he => ?_⟩ <;> rw [hpage] at *
  · exact hperm.subset he
  · exact h₁.pairwise_entriesAfter hreach hfresh account after
  · obtain ⟨hmem, hafter⟩ := Chronicle.mem_pending.mp he
    exact hperm.symm.subset
      (Chronicle.mem_pending.mpr ⟨Chronicle.mem_entriesOf_of_prefix hgrows hmem, hafter⟩)

/-- A full page, and what was read behind its last entry from then on. -/
theorem PagesFrom.cons (hreach : h₁.Reachable) (hfresh : h₁.FreshEntries)
    (hgrows : h.committed <+: h₁.committed) (hgrows' : h₁.committed <+: h'.committed)
    (hlast : ((h₁.state.entriesAfter account after).take limit.toNat).getLast? = some last)
    (hpages : PagesFrom h₁ h' account (some last.cursor) pages) :
    PagesFrom h h' account after
      (⟨(h₁.state.entriesAfter account after).take limit.toNat, some last.cursor⟩ :: pages) := by
  have hperm := h₁.perm_entriesAfter hreach hfresh account after
  have hsorted := h₁.pairwise_entriesAfter hreach hfresh account after
  generalize h₁.state.entriesAfter account after = es at hperm hsorted hlast ⊢
  have hbehind := StoreState.filter_isAfter_getLast hsorted hlast
  have hpending : ∀ e ∈ es, e ∈ h'.pending account after := fun e he => by
    obtain ⟨hmem, hafter⟩ := Chronicle.mem_pending.mp (hperm.subset he)
    exact Chronicle.mem_pending.mpr ⟨Chronicle.mem_entriesOf_of_prefix hgrows' hmem, hafter⟩
  have hlastmem : last ∈ es.take limit.toNat := List.mem_of_getLast? hlast
  have hlastafter := (Chronicle.mem_pending.mp (hpending last (List.mem_of_mem_take hlastmem))).2
  have hlater : ∀ e ∈ entriesOn pages, last.Precedes e := fun e he =>
    StoreState.isAfter_some.mp (Chronicle.mem_pending.mp (hpages.stored e he)).2
  refine ⟨fun e he => ?_, ?_, fun hended e he => ?_⟩
  · rcases List.mem_append.mp he with he | he
    · exact hpending e (List.mem_of_mem_take he)
    · have hmem := (Chronicle.mem_pending.mp (hpages.stored e he)).1
      exact Chronicle.mem_pending.mpr
        ⟨hmem, StoreState.isAfter_of_precedes hlastafter (hlater e he)⟩
  · refine List.pairwise_append.mpr ⟨hsorted.sublist (List.take_sublist _ _), hpages.ascending,
      fun e he f hf => ?_⟩
    have hpage := hsorted.sublist (List.take_sublist limit.toNat es)
    rcases StoreState.eq_or_precedes_getLast hpage hlast he with rfl | hbefore
    · exact hlater f hf
    · exact hbefore.trans (hlater f hf)
  · obtain ⟨hmem, hafter⟩ := Chronicle.mem_pending.mp he
    have hes : e ∈ es := hperm.symm.subset
      (Chronicle.mem_pending.mpr ⟨Chronicle.mem_entriesOf_of_prefix hgrows hmem, hafter⟩)
    rw [← List.take_append_drop limit.toNat es, List.mem_append] at hes
    refine List.mem_append.mpr (hes.imp_right fun hdrop => ?_)
    rw [← hbehind, List.mem_filter] at hdrop
    exact hpages.complete (ended_cons.mp hended) e
      (Chronicle.mem_pending.mpr ⟨Chronicle.mem_entriesOf_of_prefix hgrows hmem, hdrop.2⟩)

/-! ## The number of pages -/

theorem pagesLeft_of_committed (hsame : h'.committed = h.committed) :
    h'.pagesLeft account after limit = h.pagesLeft account after limit := by
  unfold Chronicle.pagesLeft Chronicle.pending Chronicle.entriesOf Chronicle.entries
  rw [hsame]

theorem pagesLeft_of_short (hreach : h.Reachable) (hfresh : h.FreshEntries)
    (hshort : (h.state.entriesAfter account after).length < limit.toNat) :
    h.pagesLeft account after limit = 1 := by
  rw [(h.perm_entriesAfter hreach hfresh account after).length_eq] at hshort
  unfold Chronicle.pagesLeft
  rw [Nat.div_eq_of_lt hshort]

/-- A full page is one page less to read. -/
theorem pagesLeft_of_full (hreach : h.Reachable) (hfresh : h.FreshEntries) (hlimit : 0 < limit)
    (hfull : limit.toNat ≤ (h.state.entriesAfter account after).length)
    (hlast : ((h.state.entriesAfter account after).take limit.toNat).getLast? = some last) :
    h.pagesLeft account after limit = h.pagesLeft account (some last.cursor) limit + 1 := by
  have hperm := h.perm_entriesAfter hreach hfresh account after
  have hsorted := h.pairwise_entriesAfter hreach hfresh account after
  generalize h.state.entriesAfter account after = es at hperm hsorted hfull hlast
  have hlastafter := (Chronicle.mem_pending.mp
    (hperm.subset (List.mem_of_mem_take (List.mem_of_getLast? hlast)))).2
  have hnarrow : (h.pending account after).filter
      (fun e => StoreState.isAfter e.cursor (some last.cursor)) =
        h.pending account (some last.cursor) := by
    unfold Chronicle.pending
    rw [List.filter_filter]
    refine List.filter_congr fun e _ => ?_
    rw [Bool.and_eq_left_iff_imp]
    exact fun he =>
      StoreState.isAfter_of_precedes hlastafter (StoreState.isAfter_some.mp he)
  have hbehind : (h.pending account (some last.cursor)).length = es.length - limit.toNat := by
    rw [← hnarrow, ← (hperm.filter _).length_eq,
      StoreState.filter_isAfter_getLast hsorted hlast, List.length_drop]
  unfold Chronicle.pagesLeft
  rw [hbehind, ← hperm.length_eq,
    Nat.div_eq_sub_div (UInt64.lt_iff_toNat_lt.mp hlimit) hfull]

/-! ## The walk -/

/-- What a walk of at most `k` pages has come to. -/
structure Walked (h h' : Chronicle) (account : AccountId) (after : Option EntryCursor)
    (limit : UInt64) (k : Nat) (pages : List EntryPage) : Prop where
  grows : h.committed <+: h'.committed
  read : h'.FreshEntries → PagesFrom h h' account after pages
  ends : h'.FreshEntries → h'.committed = h.committed → h.pagesLeft account after limit ≤ k →
    Ended pages ∧ pages.length = h.pagesLeft account after limit

theorem Walked.nil (h : Chronicle) (account : AccountId) (after : Option EntryCursor)
    (limit : UInt64) : Walked h h account after limit 0 [] :=
  ⟨List.prefix_refl _, fun _ => .nil, fun _ _ hleft => absurd hleft (Nat.not_succ_le_zero _)⟩

theorem Walked.single {k : Nat} (hreach : h₁.Reachable) (hgrows : h.committed <+: h₁.committed)
    (hshort : (h₁.state.entriesAfter account after).length < limit.toNat) :
    Walked h h₁ account after limit (k + 1) [⟨h₁.state.entriesAfter account after, none⟩] := by
  refine ⟨hgrows, fun hfresh => .single hreach hfresh hgrows,
    fun hfresh hsame _ => ⟨ended_singleton _, ?_⟩⟩
  rw [← pagesLeft_of_committed hsame, pagesLeft_of_short hreach hfresh hshort]
  rfl

theorem Walked.cons {k : Nat} (hreach : h₁.Reachable) (hgrows : h.committed <+: h₁.committed)
    (hlimit : 0 < limit) (hfull : limit.toNat ≤ (h₁.state.entriesAfter account after).length)
    (hlast : ((h₁.state.entriesAfter account after).take limit.toNat).getLast? = some last)
    (hpages : Walked h₁ h' account (some last.cursor) limit k pages) :
    Walked h h' account after limit (k + 1)
      (⟨(h₁.state.entriesAfter account after).take limit.toNat, some last.cursor⟩ :: pages) := by
  refine ⟨hgrows.trans hpages.grows, fun hfresh => ?_, fun hfresh hsame hleft => ?_⟩
  · exact .cons hreach (hfresh.of_prefix hpages.grows) hgrows hpages.grows hlast
      (hpages.read hfresh)
  · have hsame₁ : h₁.committed = h.committed := by
      have hle := hpages.grows.length_le
      rw [hsame] at hle
      exact (hgrows.eq_of_length (Nat.le_antisymm hgrows.length_le hle)).symm
    have hcount := pagesLeft_of_full hreach (hfresh.of_prefix hpages.grows) hlimit hfull hlast
    rw [pagesLeft_of_committed hsame₁] at hcount
    rw [hcount] at hleft ⊢
    obtain ⟨hended, hlength⟩ :=
      hpages.ends hfresh (hsame.trans hsame₁.symm) (Nat.le_of_succ_le_succ hleft)
    exact ⟨ended_cons.mpr hended, congrArg (· + 1) hlength⟩

/-- Each page is one step of the walk, and what has been stored meanwhile is only more to read. -/
theorem exists_run_readPages {σ : Type} (b : SharedStore σ) (hlimit : 0 < limit) (k : Nat)
    (after : Option EntryCursor) (s : σ) (hreach : (b.chronicle s).Reachable)
    (hstored : (b.chronicle s).state.accounts.contains account = true) :
    ∃ pages i, (readPages account limit k after).run b.run s = (.ok pages, b.wait^[i] s) ∧
      Walked (b.chronicle s) (b.chronicle (b.wait^[i] s)) account after limit k pages := by
  induction k generalizing after s with
  | zero => exact ⟨[], 0, rfl, .nil _ _ _ _⟩
  | succ k ih =>
    have hreach₁ := SharedStore.reachable_wait (SharedStore.reachable_wait hreach)
    have hgrows := (b.committed_wait s).trans (b.committed_wait (b.wait s))
    have hstored₁ := SharedStore.contains_accounts_wait (SharedStore.contains_accounts_wait hstored)
    rw [readPages, Prog.run_bind, SharedStore.run_listAccountEntries hstored after limit]
    dsimp only
    rcases EntryPage.ofEntries_take
        ((b.chronicle (b.wait (b.wait s))).state.entriesAfter account after) hlimit
      with ⟨hshort, hpage⟩ | ⟨last, hlast, hfull, hpage⟩ <;> rw [hpage]
    · exact ⟨_, 2, rfl, .single hreach₁ hgrows hshort⟩
    · obtain ⟨rest, i, hrun, hrest⟩ := ih (some last.cursor) _ hreach₁ hstored₁
      dsimp only
      rw [Prog.run_bind, hrun]
      exact ⟨_, i + 2, rfl, .cons hreach₁ hgrows hlimit hfull hlast hrest⟩

end Walk

/-- What paging through the entries of an account comes to, at most `k` pages of them: entries of
the account in ascending order, none of them twice; once the walk has ended, every entry that was
there at the beginning, and once only; and if nothing is committed in between, the end with exactly
the entries that there are, on as many pages as it takes. -/
structure Paged (h h' : Chronicle) (account : AccountId) (limit : UInt64) (k : Nat)
    (pages : List EntryPage) : Prop where
  stored : ∀ e ∈ entriesOn pages, e ∈ h'.entriesOf account
  ascending : (entriesOn pages).Pairwise Entry.Precedes
  distinct : ((entriesOn pages).map Entry.id).Nodup
  complete : Ended pages → ∀ e ∈ h.entriesOf account,
    (entriesOn pages).filter (fun f => f.id = e.id) = [e]
  quiet : h'.committed = h.committed → (h.entriesOf account).length / limit.toNat + 1 ≤ k →
    Ended pages ∧ pages.length = (h.entriesOf account).length / limit.toNat + 1 ∧
      (entriesOn pages).Perm (h.entriesOf account)

theorem Paged.of_walked {h h' : Chronicle} {account : AccountId} {limit : UInt64} {k : Nat}
    {pages : List EntryPage} (hwalked : Walked h h' account none limit k pages)
    (hfresh : h'.FreshEntries) : Paged h h' account limit k pages := by
  obtain ⟨hstored, hascending, hcomplete⟩ := hwalked.read hfresh
  simp only [Chronicle.pending_none] at hstored hcomplete
  have hnodup : (entriesOn pages).Nodup := hascending.imp fun {e f} hlt heq => by
    subst heq
    exact e.not_precedes_self hlt
  have hids : ((entriesOn pages).map Entry.id).Nodup := hnodup.map_on fun e he f hf =>
    List.inj_on_of_nodup_map hfresh (List.mem_of_mem_filter (hstored e he))
      (List.mem_of_mem_filter (hstored f hf))
  refine ⟨hstored, hascending, hids, fun hended e he => ?_, fun hsame hleft => ?_⟩
  · exact filter_eq_singleton hids (hcomplete hended e he)
  · have hends := hwalked.ends hfresh hsame
    unfold Chronicle.pagesLeft at hends
    rw [Chronicle.pending_none] at hends
    obtain ⟨hended, hlength⟩ := hends hleft
    have hentries : h'.entriesOf account = h.entriesOf account := by
      unfold Chronicle.entriesOf Chronicle.entries
      rw [hsame]
    have hofAccount : (h.entriesOf account).Nodup := hentries ▸ (hfresh.of_map _).filter _
    exact ⟨hended, hlength, (List.perm_ext_iff_of_nodup hnodup hofAccount).mpr fun e =>
      ⟨fun he => hentries ▸ hstored e he, hcomplete hended e⟩⟩

/-! ## Among other calls -/

/-- What is stored, and what others do before each of the calls to come. -/
structure Shared where
  coming : List (List (Moment × StoreCall))
  chronicle : Chronicle

namespace Shared

/-- Others make the calls that come before the next one. -/
def wait (s : Shared) : Shared := ⟨s.coming.tail, s.chronicle.runAll (s.coming.headD [])⟩

def run (m : Moment) : Backend Shared := fun c s =>
  let (result, h) := Chronicle.run m c s.wait.chronicle
  (result, ⟨s.wait.coming, h⟩)

def store (m : Moment) : SharedStore Shared where
  moment := m
  chronicle := chronicle
  wait := wait
  run := run m
  exists_runAll_wait s := ⟨s.coming.headD [], rfl⟩
  run_read hread hv := by
    unfold run
    rw [Chronicle.run_read hread hv]

end Shared

/-- **Paging through the entries of an account misses and repeats nothing.** From any state that
calls have led to, with any positive limit and whatever calls others make in between, the pages are
read, as long as no two committed entries share an identifier. -/
theorem pages_complete {h : Chronicle} (hreach : h.Reachable) {account : AccountId}
    (hstored : h.state.accounts.contains account = true) {limit : UInt64} (hlimit : 0 < limit)
    (others : List (List (Moment × StoreCall))) (m : Moment) (k : Nat) :
    ∃ pages s', (readPages account limit k none).run (Shared.run m) ⟨others, h⟩ = (.ok pages, s') ∧
      (s'.chronicle.FreshEntries → Paged h s'.chronicle account limit k pages) := by
  obtain ⟨pages, i, hrun, hwalked⟩ :=
    exists_run_readPages (Shared.store m) hlimit k none ⟨others, h⟩ hreach hstored
  exact ⟨pages, _, hrun, Paged.of_walked hwalked⟩

/-- The transfer is voided after the first page has been read. -/
def Sample.voidedMeanwhile : List (List (Moment × StoreCall)) :=
  [[], [], ((chronicleAfter corrected).committed.drop 1).map fun t =>
    (moment 900, .commitTransaction t)]

/-- One entry is there at the beginning; the one of the void comes on the second page, and the third
is empty. -/
theorem pages_complete_sample :
    ∃ pages s', (readPages ⟨Sample.uuid 2⟩ 1 5 none).run (Shared.run (Sample.moment 0))
        ⟨Sample.voidedMeanwhile, chronicleAfter (Sample.corrected.take 6)⟩ = (.ok pages, s') ∧
      pages.map (fun page => page.entries.length) = [1, 1, 0] ∧
      ((chronicleAfter (Sample.corrected.take 6)).entriesOf ⟨Sample.uuid 2⟩).length = 1 ∧
      Paged (chronicleAfter (Sample.corrected.take 6)) s'.chronicle ⟨Sample.uuid 2⟩ 1 5 pages := by
  have hstored : (chronicleAfter (Sample.corrected.take 6)).state.accounts.contains
      ⟨Sample.uuid 2⟩ = true := by decide +kernel
  have hlimit : (0 : UInt64) < 1 := by decide
  obtain ⟨pages, s', hrun, hpaged⟩ := pages_complete
    (exists_chronicleOf_eq (Sample.corrected.take 6)) hstored hlimit Sample.voidedMeanwhile
    (Sample.moment 0) 5
  have hlengths : (((readPages ⟨Sample.uuid 2⟩ 1 5 none).run (Shared.run (Sample.moment 0))
      ⟨Sample.voidedMeanwhile, chronicleAfter (Sample.corrected.take 6)⟩).1.toOption.map
        (List.map fun page => page.entries.length)) = some [1, 1, 0] := by decide +kernel
  have hfresh : (((readPages ⟨Sample.uuid 2⟩ 1 5 none).run (Shared.run (Sample.moment 0))
      ⟨Sample.voidedMeanwhile, chronicleAfter (Sample.corrected.take 6)⟩).2.chronicle.entries.map
        Entry.id).Nodup := by decide +kernel
  rw [hrun] at hlengths hfresh
  exact ⟨pages, s', hrun, Option.some.inj hlengths, by decide +kernel, hpaged hfresh⟩

/-! ## Among callers that take turns -/

/-- Callers at work, and the turns they take before each of the calls to come. -/
structure SharedByCallers where
  coming : List (List Turn)
  interleaving : Interleaving

namespace SharedByCallers

/-- The callers take the turns that come before the next call. -/
def wait (s : SharedByCallers) : SharedByCallers :=
  ⟨s.coming.tail, (s.coming.headD []).foldl Interleaving.take s.interleaving⟩

def run (m : Moment) : Backend SharedByCallers := fun c s =>
  let (result, h) := Chronicle.run m c s.wait.interleaving.chronicle
  (result, ⟨s.wait.coming, ⟨h, s.wait.interleaving.callers⟩⟩)

theorem iterate_wait (between : List (List Turn)) (asked : List (Operation × Stamp))
    (turns : List Turn) (i : Nat) :
    wait^[i] ⟨between, interleave asked turns⟩ =
      ⟨between.drop i, interleave asked (turns ++ (between.take i).flatten)⟩ := by
  induction i generalizing between turns with
  | zero =>
    rw [List.take_zero, List.flatten_nil, List.append_nil]
    rfl
  | succ i ih =>
    rw [Function.iterate_succ_apply]
    cases between with
    | nil =>
      have hnone := ih [] turns
      rw [List.take_nil, List.drop_nil] at hnone ⊢
      exact hnone
    | cons next between =>
      show wait^[i] ⟨between, next.foldl Interleaving.take (interleave asked turns)⟩ = _
      rw [← interleave_append_turns, ih, List.take_succ_cons, List.flatten_cons,
        List.append_assoc]
      rfl

def store (m : Moment) : SharedStore SharedByCallers where
  moment := m
  chronicle s := s.interleaving.chronicle
  wait := wait
  run := run m
  exists_runAll_wait s := s.interleaving.exists_runAll (s.coming.headD [])
  run_read hread hv := by
    unfold run
    rw [Chronicle.run_read hread hv]

end SharedByCallers

theorem Chronicle.freshEntries_interleave {asked : List (Operation × Stamp)}
    (hfresh : FreshStamps (asked.map Prod.snd)) (turns : List Turn) :
    (interleave asked turns).chronicle.FreshEntries :=
  (meets_interleave hfresh turns).invariant.freshEntries hfresh

/-- Operations at work on fresh identifiers give no two entries the same one, so one who reads page
by page among them misses and repeats nothing, and leaves the store to them as they have it. -/
theorem pages_among_callers {asked : List (Operation × Stamp)}
    (hfresh : FreshStamps (asked.map Prod.snd)) (turns : List Turn) {account : AccountId}
    (hstored : (interleave asked turns).chronicle.state.accounts.contains account = true)
    {limit : UInt64} (hlimit : 0 < limit) (between : List (List Turn)) (m : Moment) (k : Nat) :
    ∃ pages i, let after := interleave asked (turns ++ (between.take i).flatten)
      (readPages account limit k none).run (SharedByCallers.run m)
          ⟨between, interleave asked turns⟩ = (.ok pages, ⟨between.drop i, after⟩) ∧
        Paged (interleave asked turns).chronicle after.chronicle account limit k pages := by
  obtain ⟨pages, i, hrun, hwalked⟩ := exists_run_readPages (SharedByCallers.store m) hlimit k none
    ⟨between, interleave asked turns⟩ (exists_chronicleOf_interleave asked turns) hstored
  have hwait := SharedByCallers.iterate_wait between asked turns i
  change (SharedByCallers.store m).wait^[i] _ = _ at hwait
  rw [hwait] at hrun hwalked
  exact ⟨pages, i, hrun, .of_walked hwalked (Chronicle.freshEntries_interleave hfresh _)⟩

end DoubleEntry
