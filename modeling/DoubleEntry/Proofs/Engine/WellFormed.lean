import DoubleEntry.Proofs.Engine.Provenance
import DoubleEntry.Proofs.Engine.Racing
import DoubleEntry.Proofs.Engine.Rows
import DoubleEntry.Proofs.Template.Soundness

/-!
# Stored transactions are well formed and refer to what is stored

The store takes a transaction as it comes; what its entries are like and what it refers to is seen
to by the operations. A posting is assembled from entries that balance, out of a template that has
some, once its journal and accounts have been found (`assemble_wellFormed`). A reversal is built
without any of these checks, but from a transaction that is stored, and it takes over what makes
that one well formed (`WellFormed.reversal`). What was found is still there when the commit is made,
since no table loses a key (`StoreState.KeepsTargets`).

Main statement: `consistent_history`, which says so of all tables at once: stored transactions,
the indexes of external identifiers and codes, and the histories of accounts.
-/

namespace DoubleEntry

open Ledger OrdMap

/-! ## Well-formed transactions -/

/-- What a transaction is like, as far as it can be told without looking anything up. -/
structure Transaction.WellFormed (t : Transaction) : Prop where
  nonempty : t.entries ≠ []
  sequences : t.entries.map (fun e => e.sequence.toNat) = List.range' 1 t.entries.length
  owned : ∀ e ∈ t.entries, e.transactionId = t.id ∧ e.journalId = t.journalId ∧
    e.createdAt = t.createdAt ∧ 0 ≤ e.units.amount.coeff
  balanced : checkBalanced t.legs = .ok ()

theorem toNat_of_entrySequence {index : Nat} {sequence : UInt32}
    (h : entrySequence index = .ok sequence) : sequence.toNat = index + 1 := by
  unfold entrySequence at h
  split at h
  · next hlt =>
    cases h
    rw [pow2_32] at hlt
    exact UInt32.toNat_ofNat_of_lt' hlt
  · cases h

namespace Transaction

theorem assemble_wellFormed {template : TxTemplate} {params : Params} {header : ResolvedHeader}
    {entries : List ResolvedEntry} {stamp : Stamp} {t : Transaction}
    (htemplate : template.entries ≠ [])
    (hentries : template.materializeEntries params = .ok entries)
    (ht : assemble template header entries stamp = .ok t) : t.WellFormed := by
  have hlegs := (assemble_eq_ok ht).1
  have hbalanced := TxTemplate.materializeEntries_eq_ok hentries
  obtain ⟨resolved, hresolved, hentries⟩ := bind_eq_ok.mp hentries
  obtain ⟨_, -, hentries⟩ := bind_eq_ok.mp hentries
  cases hentries
  have hcount := (forall₂_of_mapM_eq_ok hresolved).length_eq
  obtain ⟨assembled, hassembled, ht⟩ := bind_eq_ok.mp ht
  have hmade := forall₂_of_mapM_eq_ok hassembled
  have hlength := hmade.length_eq
  rw [List.length_zipIdx] at hcount hlength
  cases ht
  refine ⟨fun hnone => htemplate ?_, ?_, fun e he => ?_, hlegs ▸ hbalanced⟩
  · have hzero : assembled.length = 0 := congrArg List.length hnone
    exact List.eq_nil_of_length_eq_zero (by omega)
  · have hsequences : List.Forall₂ (fun p e => p.2 + 1 = e.sequence.toNat)
        entries.zipIdx assembled := hmade.imp fun p e he => by
      obtain ⟨sequence, hsequence, he⟩ := bind_eq_ok.mp he
      cases he
      exact (toNat_of_entrySequence hsequence).symm
    have hmapped : entries.zipIdx.map (fun p => p.2 + 1) =
        assembled.map (fun e => e.sequence.toNat) := by
      rwa [← List.forall₂_eq_eq_eq, List.forall₂_map_left_iff, List.forall₂_map_right_iff]
    show assembled.map _ = List.range' 1 assembled.length
    rw [← hmapped, ← hlength]
    have hindexes : entries.zipIdx.map (fun p => p.2 + 1) =
        (entries.zipIdx.map Prod.snd).map (· + 1) := List.map_map.symm
    rw [hindexes, List.zipIdx_map_snd, List.map_congr_left fun i _ => Nat.add_comm i 1]
    exact List.map_add_range' ..
  · obtain ⟨p, -, he⟩ := exists_mem_of_forall₂ hmade he
    obtain ⟨sequence, -, he⟩ := bind_eq_ok.mp he
    cases he
    exact ⟨rfl, rfl, rfl, p.1.units.nonneg⟩

theorem WellFormed.reversal {t : Transaction} (h : t.WellFormed) (stamp : Stamp) :
    (t.reversal stamp).WellFormed := by
  have hlength : (t.reversal stamp).entries.length = t.entries.length := by
    show (List.map _ _).length = _
    rw [List.length_map, List.length_zipIdx]
  refine ⟨fun hnone => h.nonempty ?_, ?_, fun e he => ?_, ?_⟩
  · rw [hnone] at hlength
    exact List.eq_nil_of_length_eq_zero hlength.symm
  · rw [hlength, ← h.sequences]
    show List.map _ (List.map _ _) = _
    rw [List.map_map]
    exact map_zipIdx_fst (fun e : Entry => e.sequence.toNat) t.entries
  · obtain ⟨p, hp, rfl⟩ := List.mem_map.mp he
    obtain ⟨-, hjournal, -, hunits⟩ := h.owned p.1 (List.fst_mem_of_mem_zipIdx hp)
    exact ⟨rfl, hjournal, rfl, hunits⟩
  · rw [legs_reversal]
    exact checkBalanced_map_opposite h.balanced

end Transaction

/-! ## What a transaction refers to -/

namespace StoreState

/-- The journal and the accounts of a transaction are stored, and so is the template it was made
from. -/
structure Supports (s : StoreState) (t : Transaction) : Prop where
  journal : ∃ j, s.journals.get? t.journalId = some j
  accounts : ∀ e ∈ t.entries, ∃ a, s.accounts.get? e.accountId = some a
  template : ∃ template, s.templates.get? t.templateCode = some template ∧
    template.code = t.templateCode ∧ template.id = t.templateId

/-- Everything that a transaction may refer to stays there. -/
structure KeepsTargets (s s' : StoreState) : Prop where
  journals : ∀ id, s.journals.contains id = true → s'.journals.contains id = true
  accounts : ∀ id, s.accounts.contains id = true → s'.accounts.contains id = true
  templates : Keeps id s.templates s'.templates
  transactions : ∀ id, s.transactions.contains id = true → s'.transactions.contains id = true

theorem KeepsTargets.refl (s : StoreState) : s.KeepsTargets s :=
  ⟨fun _ h => h, fun _ h => h, .refl _, fun _ h => h⟩

theorem KeepsTargets.trans {s s' s'' : StoreState} (h : s.KeepsTargets s')
    (h' : s'.KeepsTargets s'') : s.KeepsTargets s'' :=
  ⟨fun id hid => h'.journals id (h.journals id hid),
    fun id hid => h'.accounts id (h.accounts id hid), h.templates.trans h'.templates,
    fun id hid => h'.transactions id (h.transactions id hid)⟩

theorem Supports.of_keeps {s s' : StoreState} {t : Transaction} (h : s.Supports t)
    (hkeeps : s.KeepsTargets s') : s'.Supports t := by
  obtain ⟨template, htemplate, hsame⟩ := h.template
  exact ⟨contains_iff.mp (hkeeps.journals _ (contains_iff.mpr h.journal)),
    fun e he => contains_iff.mp (hkeeps.accounts _ (contains_iff.mpr (h.accounts e he))),
    template, hkeeps.templates.get? htemplate, hsame⟩

theorem Supports.reversal {s : StoreState} {t : Transaction} (h : s.Supports t) (stamp : Stamp) :
    s.Supports (t.reversal stamp) := by
  refine ⟨h.journal, fun e he => ?_, h.template⟩
  obtain ⟨p, hp, rfl⟩ := List.mem_map.mp he
  exact h.accounts p.1 (List.fst_mem_of_mem_zipIdx hp)

theorem contains_put {ι α : Type} [Ord ι] [Std.TransOrd ι] [Std.LawfulEqOrd ι] [DecidableEq ι]
    {rows : OrdMap ι α} {key id : ι} {row : α} (h : rows.contains id = true) :
    (rows.put key row).contains id = true := by
  unfold contains
  rw [get?_put]
  split
  · rfl
  · exact h

variable {s s₁ : StoreState} {now : Timestamp} {c : StoreCall} {events : List LedgerEvent}

/-- No call takes away what transactions refer to. -/
theorem Stores.keepsTargets (h : s.Stores now c s₁ events) : s.KeepsTargets s₁ := by
  cases h with
  | createJournal hid hcodes => exact ⟨fun _ => contains_put, fun _ h => h, .refl _, fun _ h => h⟩
  | updateJournal hid => exact ⟨fun _ => contains_put, fun _ h => h, .refl _, fun _ h => h⟩
  | createAccount hcode hid => exact ⟨fun _ h => h, fun _ => contains_put, .refl _, fun _ h => h⟩
  | updateAccount hid => exact ⟨fun _ h => h, fun _ => contains_put, .refl _, fun _ h => h⟩
  | createTemplate hcode => exact ⟨fun _ h => h, fun _ h => h, .put_new hcode, fun _ h => h⟩
  | commit hplan => exact ⟨fun _ h => h, fun _ h => h, .refl _, fun _ => contains_put⟩

/-! ## Closed tables -/

/-- Rows are under their own keys, templates have entries, and stored transactions are well formed
and refer to what is stored. -/
structure Closed (s : StoreState) : Prop where
  accounts : ∀ id a, s.accounts.get? id = some a → a.id = id
  templates : ∀ code t, s.templates.get? code = some t → t.code = code ∧ t.entries ≠ []
  transactions : ∀ id t, s.transactions.get? id = some t → t.id = id ∧ t.WellFormed ∧
    s.Supports t ∧ ∀ o, t.reverses = some o → s.transactions.contains o = true

theorem Closed.empty : StoreState.empty.Closed where
  accounts _ _ h := nomatch h
  templates _ _ h := nomatch h
  transactions _ _ h := nomatch h

/-- What operations see to before they create a template or commit a transaction. -/
def Vetted (s : StoreState) : StoreCall → Prop
  | .createTemplate t => t.entries ≠ []
  | .commitTransaction t => t.WellFormed ∧ s.Supports t
  | _ => True

/-- A vetted call leaves the tables closed. -/
theorem Stores.closed (h : s.Stores now c s₁ events) (hs : s.Closed) (hc : s.Vetted c) :
    s₁.Closed := by
  have hkeeps := h.keepsTargets
  have hstored : ∀ id t, s.transactions.get? id = some t → t.id = id ∧ t.WellFormed ∧
      s₁.Supports t ∧ ∀ o, t.reverses = some o → s₁.transactions.contains o = true := by
    intro id t ht
    obtain ⟨hid, hwell, hsupports, hreverses⟩ := hs.transactions id t ht
    exact ⟨hid, hwell, hsupports.of_keeps hkeeps,
      fun o ho => hkeeps.transactions o (hreverses o ho)⟩
  cases h with
  | createJournal hid hcodes => exact ⟨hs.accounts, hs.templates, hstored⟩
  | updateJournal hid => exact ⟨hs.accounts, hs.templates, hstored⟩
  | createAccount hcode hid => exact ⟨forall_get?_put hs.accounts rfl, hs.templates, hstored⟩
  | updateAccount hid => exact ⟨forall_get?_put hs.accounts rfl, hs.templates, hstored⟩
  | createTemplate hcode => exact ⟨hs.accounts, forall_get?_put hs.templates ⟨rfl, hc⟩, hstored⟩
  | @commit t rows hplan =>
    obtain ⟨hwell, hsupports⟩ := hc
    obtain ⟨-, -, -, hcheck, -⟩ := planCommit_eq_ok hplan
    refine ⟨hs.accounts, hs.templates,
      forall_get?_put hstored ⟨rfl, hwell, hsupports.of_keeps hkeeps, ?_⟩⟩
    exact fun o ho => hkeeps.transactions o (checkReverses_eq_ok hcheck ho).1

end StoreState

/-! ## Operations vet what they write -/

/-- Templates and transactions are vetted before they are stored. -/
def targetsContract : Contract where
  invariant h := h.state.Closed
  rely _ h h' := h.state.KeepsTargets h'.state
  allowed _ h c := h.state.Vetted c
  apart _ _ := True

theorem targetsContract_sound : targetsContract.Sound where
  refl _ h := .refl h.state
  trans _ _ _ _ h h' := h.trans h'
  keeps own m c h hclosed hallowed := by
    rcases Chronicle.run_effect m c h with hsame | ⟨s₁, events, records, hs₁, -, hrun⟩
    · rwa [hsame]
    · rw [hrun]
      have hnext := hs₁.closed hclosed hallowed
      exact ⟨hnext.accounts, hnext.templates, fun id t ht => by
        obtain ⟨hid, hwell, hsupports, hreverses⟩ := hnext.transactions id t ht
        exact ⟨hid, hwell, ⟨hsupports.journal, hsupports.accounts, hsupports.template⟩, hreverses⟩⟩
  spares own other m c h _ _ _ := by
    rcases Chronicle.run_effect m c h with hsame | ⟨s₁, events, records, hs₁, -, hrun⟩
    · rw [hsame]
      exact .refl h.state
    · rw [hrun]
      have hkeeps := hs₁.keepsTargets
      exact ⟨hkeeps.journals, hkeeps.accounts, hkeeps.templates, hkeeps.transactions⟩

theorem NewTxTemplate.entries_ne_nil {new : NewTxTemplate} {now : Timestamp} {t : TxTemplate}
    (h : new.create now = .ok t) : t.entries ≠ [] := by
  obtain ⟨params, transaction, entries, -, -, hentries, hsome, rfl⟩ :=
    parse_eq_ok (create_eq_ok.mp h).1
  intro hnone
  have hcount := (forall₂_of_mapM_eq_ok hentries).length_eq
  rw [show entries = [] from hnone] at hcount
  exact hsome (List.eq_nil_of_length_eq_zero hcount)

section Operations

-- what creating a template computes is of no concern to the calls that follow
attribute [local irreducible] NewTxTemplate.create

variable {own : Stamp} {h : Chronicle}

theorem vetted_of_isRead (h : Chronicle) (c : StoreCall) (hc : c.isRead = true) :
    targetsContract.allowed own h c := by
  cases c with
  | createTemplate t => cases hc
  | commitTransaction t => cases hc
  | _ => trivial

theorem vets_createTemplate (new : NewTxTemplate) :
    (Ledger.createTemplate new own.now).Meets targetsContract own (fun _ _ => True) h := by
  refine Prog.Meets.bind_ofExcept (fun t ht => ?_) fun _ _ => trivial
  exact .ask_last fun _ _ _ => NewTxTemplate.entries_ne_nil ht

theorem vets_commit {t : Transaction} (hwell : t.WellFormed) (hsupports : h.state.Supports t) :
    (Ledger.commit t).Meets targetsContract own (fun _ _ => True) h := by
  intro h₁ hrely _
  refine ⟨⟨hwell, hsupports.of_keeps hrely⟩, fun m => ?_⟩
  rcases Chronicle.run m (.commitTransaction t) h₁ with ⟨(e | _) | reply, h₂⟩
  · cases e with
    | duplicateExternalId what =>
      refine Prog.Meets.ask (fun s => s.transactionByExternalId (t.externalId.getD ""))
        (fun _ _ => rfl) rfl (fun h => vetted_of_isRead h _ rfl) fun h₃ _ _ => ?_
      cases h₃.state.transactionByExternalId (t.externalId.getD "") <;> trivial
    | _ => trivial
  · trivial
  · trivial

theorem vets_ensureAccounts (ids : List AccountId) :
    (ensureAccounts ids).Meets targetsContract own (fun h' result =>
      h.state.KeepsTargets h'.state ∧ (result = .ok () → ∀ id ∈ ids, ∃ a,
        h'.state.accounts.get? id = some a)) h := by
  refine Prog.Meets.ask (fun s => (distinctIds ids).filterMap fun id => s.accounts.get? id)
    (fun _ _ => rfl) rfl (fun h => vetted_of_isRead h _ rfl) ?_
  intro h' hrely hclosed
  split
  · exact ⟨hrely, nofun⟩
  · next hall =>
    refine ⟨hrely, fun _ id hid => ?_⟩
    obtain ⟨key, a, ha, rfl⟩ := StoreState.hasAccount_of_found hall id hid
    exact ⟨a, hclosed.accounts key a ha ▸ ha⟩

theorem vets_postNew {template : TxTemplate} (htemplate : template.entries ≠ [])
    (hstored : h.state.templates.get? template.code = some template) (header : ResolvedHeader)
    (params : Params) :
    (postNew template header params own).Meets targetsContract own (fun _ _ => True) h := by
  refine (meets_findJournal vetted_of_isRead header.journalId).bind ?_ fun _ _ _ => trivial
  rintro h₁ journal ⟨hrely₁, -, hjournal⟩
  refine Prog.Meets.bind_ofExcept (fun entries hentries => ?_) fun _ _ => trivial
  refine (vets_ensureAccounts _).bind ?_ fun _ _ _ => trivial
  rintro h₂ _ ⟨hrely₂, haccounts⟩
  refine Prog.Meets.bind_ofExcept (fun t ht => ?_) fun _ _ => trivial
  refine vets_commit (Transaction.assemble_wellFormed htemplate hentries ht) ?_
  obtain ⟨assembled, hassembled, ht⟩ := bind_eq_ok.mp ht
  cases ht
  refine ⟨?_, fun e he => ?_, template, (hrely₁.trans hrely₂).templates.get? hstored, rfl, rfl⟩
  · exact contains_iff.mp (hrely₂.journals _ (contains_iff.mpr ⟨_, lookup_eq_ok hjournal.symm⟩))
  · obtain ⟨p, hp, he⟩ := exists_mem_of_forall₂ (forall₂_of_mapM_eq_ok hassembled) he
    obtain ⟨sequence, -, he⟩ := bind_eq_ok.mp he
    cases he
    exact haccounts rfl _ (List.mem_map_of_mem (List.fst_mem_of_mem_zipIdx hp))

theorem vets_post (code : String) (supplied : Params) :
    (Ledger.post code supplied own).Meets targetsContract own (fun _ _ => True) h := by
  refine Prog.Meets.ask (fun s => s.templates.get? code) (fun _ _ => rfl) rfl
    (fun h => vetted_of_isRead h _ rfl) ?_
  intro h₁ _ hclosed₁
  cases hstored : h₁.state.templates.get? code with
  | none => trivial
  | some template =>
    obtain ⟨rfl, htemplate⟩ := hclosed₁.templates code template hstored
    refine Prog.Meets.bind_ofExcept (fun bound _ => ?_) fun _ _ => trivial
    refine Prog.Meets.bind_ofExcept (fun header _ => ?_) fun _ _ => trivial
    cases hx : header.externalId with
    | none => exact vets_postNew htemplate hstored header bound.params
    | some x =>
      refine Prog.Meets.ask (fun s => s.transactionByExternalId x) (fun _ _ => rfl) rfl
        (fun h => vetted_of_isRead h _ rfl) ?_
      intro h₂ hrely₂ _
      cases h₂.state.transactionByExternalId x with
      | none => exact vets_postNew htemplate (hrely₂.templates.get? hstored) header bound.params
      | some stored => trivial

theorem vets_void (id : TransactionId) :
    (Ledger.void id own).Meets targetsContract own (fun _ _ => True) h := by
  refine (meets_findTransaction vetted_of_isRead id).bind ?_ fun _ _ _ => trivial
  rintro h₁ target ⟨-, hclosed, htarget⟩
  obtain ⟨-, hwell, hsupports, -⟩ := hclosed.transactions id target (lookup_eq_ok htarget.symm)
  exact vets_commit (hwell.reversal own) (hsupports.reversal own)

/-- All operations but three make no call that has to be vetted. -/
theorem vets_or_quiet (o : Operation) :
    (∃ new, o = .createTemplate new) ∨ (∃ code supplied, o = .post code supplied) ∨
      (∃ id, o = .void id) ∨
      ∀ (s : StoreState) c, c.isRead = true ∨ o.writesBy c = true → s.Vetted c := by
  cases o with
  | createTemplate new => exact Or.inl ⟨new, rfl⟩
  | post code supplied => exact Or.inr (Or.inl ⟨code, supplied, rfl⟩)
  | void id => exact Or.inr (Or.inr (Or.inl ⟨id, rfl⟩))
  | _ =>
    refine Or.inr (Or.inr (Or.inr fun s c hc => ?_))
    cases c with
    | createTemplate t => rcases hc with hc | hc <;> cases hc
    | commitTransaction t => rcases hc with hc | hc <;> cases hc
    | _ => trivial

theorem vets_action (o : Operation) :
    (o.action own).Meets targetsContract own (fun _ _ => True) h := by
  rcases vets_or_quiet o with ⟨new, rfl⟩ | ⟨code, supplied, rfl⟩ | ⟨id, rfl⟩ | hquiet
  · exact vets_createTemplate new
  · exact vets_post code supplied
  · exact vets_void id
  · exact (callsOnly_action own o).meets (fun h c hc => hquiet h.state c hc) h

end Operations

theorem closed_interleave (asked : List (Operation × Stamp)) (turns : List Turn) :
    (interleave asked turns).chronicle.state.Closed :=
  (targetsContract_sound.meets_interleave (Q := fun _ _ _ _ => True) StoreState.Closed.empty
    (fun _ _ _ _ _ _ _ _ => trivial) (fun _ _ _ _ _ _ _ => trivial)
    (fun a _ => vets_action a.1) turns).invariant

/-! ## All tables -/

/-- Where the table of histories lists some entries, the history of an account after a cursor lists
those among them that belong there. -/
theorem StoreState.perm_entriesAfter {s : StoreState} {entries : List Entry}
    (hentries : s.accountEntries.rows.Perm (entries.map fun e => (e.historyKey, e)))
    (account : AccountId) (after : Option EntryCursor) :
    (s.entriesAfter account after).Perm
      (entries.filter fun e => e.accountId = account && isAfter e.cursor after) := by
  have hfiltered := (hentries.filter fun p =>
    p.1.accountId == account && isAfter p.1.cursor after).map Prod.snd
  refine hfiltered.trans ?_
  rw [List.filter_map, List.map_map]
  exact .of_eq (List.map_id _)

namespace Chronicle.Kept

variable {stamps : List Stamp} {h : Chronicle}

/-- The table of transactions lists the commits, in another order. -/
theorem perm_transactions (hkept : h.Kept stamps) :
    h.state.transactions.values.Perm h.committed := by
  have hids : h.state.transactions.values.map Transaction.id = h.state.transactions.keys := by
    unfold values keys
    rw [List.map_map]
    refine List.map_congr_left fun p hp => ?_
    exact ((hkept.transactions p.1 p.2).mp (mem_rows_iff.mp hp)).2
  have hnodup : h.state.transactions.values.Nodup :=
    .of_map Transaction.id (hids ▸ nodup_keys _)
  refine (List.perm_ext_iff_of_nodup hnodup (.of_map Transaction.id hkept.distinct)).mpr fun t => ?_
  constructor
  · intro ht
    obtain ⟨p, hp, rfl⟩ := List.mem_map.mp ht
    exact ((hkept.transactions p.1 p.2).mp (mem_rows_iff.mp hp)).1
  · intro ht
    have hstored := (hkept.transactions t.id t).mpr ⟨ht, rfl⟩
    exact List.mem_map.mpr ⟨(t.id, t), mem_rows_iff.mpr hstored, rfl⟩

/-- The history of an account holds its entries of all stored transactions, each once. -/
theorem perm_entriesAfter (hkept : h.Kept stamps) (account : AccountId) :
    (h.state.entriesAfter account none).Perm
      ((h.state.transactions.values.flatMap Transaction.entries).filter
        fun e => e.accountId = account) := by
  have hentries : h.state.accountEntries.rows.Perm
      ((h.state.transactions.values.flatMap Transaction.entries).map
        fun e => (e.historyKey, e)) :=
    hkept.entries.trans
      ((hkept.perm_transactions.symm.flatMap_right Transaction.entries).map _)
  refine (StoreState.perm_entriesAfter hentries account none).trans ?_
  exact .of_eq (List.filter_congr fun e _ => by rw [StoreState.isAfter, Bool.and_true])

end Chronicle.Kept

/-- Stored transactions are well formed and refer to what is stored; the indexes of external
identifiers and codes hold exactly those of the stored rows, and the histories of accounts exactly
the entries of the stored transactions, each once. -/
structure StoreState.Consistent (s : StoreState) : Prop where
  transactions : ∀ id t, s.transactions.get? id = some t → t.id = id ∧ t.WellFormed ∧
    s.Supports t ∧ ∀ o, t.reverses = some o → ∃ u, s.transactions.get? o = some u
  externalIds : ∀ x id, s.externalIds.get? x = some id ↔
    ∃ t, s.transactions.get? id = some t ∧ t.externalId = some x
  journalCodes : ∀ code id, s.journalCodes.get? code = some id ↔
    ∃ j, s.journals.get? id = some j ∧ j.code = some code
  accountCodes : ∀ code id, s.accountCodes.get? code = some id ↔
    ∃ a, s.accounts.get? id = some a ∧ a.code = code
  histories : ∀ account, (s.entriesAfter account none).Perm
    ((s.transactions.values.flatMap Transaction.entries).filter
      fun e => e.accountId = account)

theorem consistent_interleave {asked : List (Operation × Stamp)}
    (hfresh : FreshStamps (asked.map Prod.snd)) (turns : List Turn) :
    (interleave asked turns).chronicle.state.Consistent := by
  have hkept := (meets_interleave hfresh turns).invariant
  have hclosed := closed_interleave asked turns
  have hindexed := (meets_rows_interleave asked turns).invariant
  refine ⟨fun id t ht => ?_, fun x id => ?_, fun code id => hindexed.journals.get?_iff,
    fun code id => ?_, hkept.perm_entriesAfter⟩
  · obtain ⟨hid, hwell, hsupports, hreverses⟩ := hclosed.transactions id t ht
    exact ⟨hid, hwell, hsupports, fun o ho => contains_iff.mp (hreverses o ho)⟩
  · rw [hkept.externalIds]
    constructor
    · rintro ⟨t, ht, hx, hid⟩
      exact ⟨t, (hkept.transactions id t).mpr ⟨ht, hid⟩, hx⟩
    · rintro ⟨t, ht, hx⟩
      obtain ⟨hmem, hid⟩ := (hkept.transactions id t).mp ht
      exact ⟨t, hmem, hx, hid⟩
  · exact hindexed.accounts.get?_iff.trans
      (exists_congr fun a => and_congr_right fun _ => Option.some_inj)

/-- Whatever operations are at work on fresh identifiers, and whatever turns they take, the tables
are consistent; and so they are after any requests one after the other. -/
theorem consistent_history :
    (∀ asked turns, FreshStamps (asked.map Prod.snd) →
      (interleave asked turns).chronicle.state.Consistent) ∧
    ∀ requests, FreshStamps (requests.map Request.stamp) → (stateAfter requests).Consistent := by
  refine ⟨fun asked turns hfresh => consistent_interleave hfresh turns, fun requests hfresh => ?_⟩
  obtain ⟨turns, hturns⟩ := exists_turns requests
  have hstamps : FreshStamps ((askedBy requests).map Prod.snd) := by
    unfold askedBy
    rwa [List.map_map]
  have hconsistent := consistent_interleave hstamps turns
  rwa [hturns, state_chronicleAfter] at hconsistent

/-- The transfer and its void are well formed, and all tables agree on them. -/
theorem consistent_history_sample :
    FreshStamps (Sample.corrected.map Request.stamp) ∧
      (stateAfter Sample.corrected).transactions.rows.length = 2 ∧
      (stateAfter Sample.corrected).Consistent := by
  have hfresh : FreshStamps (Sample.corrected.map Request.stamp) :=
    Sample.freshStamps_numbered (by decide)
  exact ⟨hfresh, by decide +kernel, consistent_history.2 Sample.corrected hfresh⟩

end DoubleEntry
