import DoubleEntry.Proofs.Engine.Described
import DoubleEntry.Proofs.Engine.Interleaving

/-!
# Updates at work together

An update reads the row, and then stores the row that it has made of it. Two updates of one row may
both have read it before either has stored it: then the one that stores last puts back the fields
that the other has changed, and tells of its own changes only, though in the record the fields put
back differ from what was told last.

Main statement: `updates_kept_iff`. Updates that set different fields are both kept exactly if one
is over before the other begins, or one of them finds nothing to change; exactly then the records
name all differences.
-/

namespace DoubleEntry

open Ledger

/-! ## The two calls of an update -/

namespace Described

/-- The operation that updates a row. -/
def operation : (d : Described) → d.Id → d.Update → Operation
  | .journal, id, u => .updateJournal id u
  | .account, id, u => .updateAccount id u

/-- The operation comes out with the row. -/
def result : (d : Described) → (id : d.Id) → (u : d.Update) → d.Row → (d.operation id u).Result
  | .journal, _, _, j => j
  | .account, _, _, a => a

/-- What is left to do of an update that has found the row. -/
def goOn (d : Described) (id : d.Id) (u : d.Update) (stamp : Stamp) (old : d.Row) :
    Action (d.operation id u).Result := do
  let p ← Prog.ofExcept .ofValue (d.update old u stamp.now)
  if p.2.isEmpty then pure (d.result id u p.1)
  else
    let _ ← ask (d.call p.1 p.2)
    pure (d.result id u p.1)

section Steps

variable {d : Described} {id : d.Id} {u : d.Update} {stamp : Stamp} {old : d.Row}
  {h : Chronicle} {m : Moment}

/-- The first call of an update finds the row. -/
theorem step_operation (hrow : d.row? h.state id = some old) :
    ((d.operation id u).action stamp).step (Chronicle.run m) h = (d.goOn id u stamp old, h) := by
  cases d with
  | journal =>
    have hrun : Chronicle.run m (.findJournal id) h = (.ok (some old), h) := by
      rw [Chronicle.run_eq_answer]
      show (Except.ok (row? .journal h.state id), Chronicle.mk h.state (h.commits ++ [])) = _
      rw [List.append_nil, hrow]
      rfl
    exact Prog.step_of_ok hrun
  | account =>
    have hrun : Chronicle.run m (.findAccount id) h = (.ok (some old), h) := by
      rw [Chronicle.run_eq_answer]
      show (Except.ok (row? .account h.state id), Chronicle.mk h.state (h.commits ++ [])) = _
      rw [List.append_nil, hrow]
      rfl
    exact Prog.step_of_ok hrun

/-- A row that is stored is told of. -/
theorem stored_of_run {row : d.Row} {fields : List String} {reply : (d.call row fields).Reply}
    {h' : Chronicle} (hrun : Chronicle.run m (d.call row fields) h = (.ok reply, h')) :
    d.row? h'.state (d.rowId row) = some row ∧
      h'.state.payloads = h.state.payloads ++ [d.updated row fields] := by
  have hanswer : h.state.answer m (d.call row fields) = .ok (reply, h'.state) := by
    rw [Chronicle.run_eq_answer] at hrun
    split at hrun
    · next hanswer =>
      cases hrun
      exact hanswer
    · cases hrun
  rcases StoreState.effect_of_answer hanswer with ⟨hread, -⟩ | ⟨s₁, events, records, hs₁, hr, hs'⟩
  · cases d <;> cases hread
  · obtain ⟨hrow, rfl⟩ := hs₁.of_call
    rw [hs', d.row?_withRecords, StoreState.payloads_withRecords, hr, hs₁.payloads_eq]
    exact ⟨hrow, rfl⟩

/-- What an update leaves that has found a row: the tables as they are where the row is as it asks,
and else tables that hold the new row, with one more event. -/
inductive Wrote (d : Described) (old : d.Row) (u : d.Update) (s : StoreState) :
    d.Row → StoreState → Prop
  | idle (hidle : d.Idle u old) : Wrote d old u s old s
  | stored {row : d.Row} {fields : List String} {now : Timestamp} {s' : StoreState}
    (hu : d.update old u now = .ok (row, fields)) (hbusy : ¬ d.Idle u old)
    (hrow : d.row? s' (d.rowId old) = some row)
    (hpayloads : s'.payloads = s.payloads ++ [d.updated row fields]) : Wrote d old u s row s'

theorem goOn_eq_call {row : d.Row} {f : String} {fields : List String}
    (hu : d.update old u stamp.now = .ok (row, f :: fields)) :
    d.goOn id u stamp old = .call (d.call row (f :: fields)) fun reply =>
      (Prog.ofExcept EngineError.ofStore reply).bind fun _ => .done (.ok (d.result id u row)) := by
  unfold goOn
  rw [hu]
  rfl

/-- The second call of an update, if it comes out with a row, has written one. -/
theorem wrote_of_step {v : (d.operation id u).Result}
    (hok : ((d.goOn id u stamp old).step (Chronicle.run m) h).1 = .done (.ok v)) :
    ∃ row, d.Wrote old u h.state row
      ((d.goOn id u stamp old).step (Chronicle.run m) h).2.state := by
  cases hu : d.update old u stamp.now with
  | error e =>
    unfold goOn at hok
    rw [hu] at hok
    cases hok
  | ok p =>
    obtain ⟨row, fields⟩ := p
    have hidle := fields_eq_nil_iff hu
    cases fields with
    | nil =>
      unfold goOn
      rw [hu]
      exact ⟨old, .idle (hidle.mp rfl)⟩
    | cons f fields =>
      rw [goOn_eq_call hu] at hok ⊢
      rcases hrun : Chronicle.run m (d.call row (f :: fields)) h with ⟨(e | _) | reply, h'⟩
      · rw [Prog.step_of_error hrun] at hok
        cases hok
      · simp only [Prog.step, hrun] at hok
        cases hok
      · rw [Prog.step_of_ok hrun]
        obtain ⟨hrow, hpayloads⟩ := stored_of_run hrun
        exact ⟨row, .stored hu (fun hi => List.cons_ne_nil f fields (hidle.mpr hi))
          (rowId_update hu ▸ hrow) hpayloads⟩

end Steps

end Described

/-! ## What two updates leave -/

namespace Described

/-- Every record of an update names all fields in which its row differs from what was told last. -/
def ToldInFull (d : Described) (events : List LedgerEvent) : Prop :=
  ∀ told row fields, told ++ [d.updated row fields] <+: events →
    ∀ old, d.lastTold (d.rowId row) told = some old → ∀ f, d.DiffersIn old row f → f ∈ fields

/-- The row is as both updates ask. -/
def Kept (d : Described) (id : d.Id) (u₁ u₂ : d.Update) (s : StoreState) : Prop :=
  ∃ row, d.row? s id = some row ∧ d.Idle u₁ row ∧ d.Idle u₂ row

/-- Two updates that lead from one state to the other are kept, and told of in full, exactly if this
holds. -/
structure KeptIff (d : Described) (id : d.Id) (u₁ u₂ : d.Update) (s s' : StoreState)
    (condition : Prop) : Prop where
  kept : d.Kept id u₁ u₂ s' ↔ condition
  told : d.ToldInFull s'.payloads ↔ d.ToldInFull s.payloads ∧ condition

section Writes

variable {d : Described} {old r₁ r₂ row row' : d.Row} {u u₁ u₂ : d.Update}
  {s s₁ s₂ : StoreState} {events : List LedgerEvent} {fields fields' : List String}

theorem updated_inj (h : d.updated row fields = d.updated row' fields') :
    row = row' ∧ fields = fields' := by
  cases d <;> cases h <;> exact ⟨rfl, rfl⟩

theorem Apart.symm (h : d.Apart u₁ u₂) : d.Apart u₂ u₁ := fun f hf hf' => h f hf' hf

theorem kept_comm {id : d.Id} : d.Kept id u₁ u₂ s ↔ d.Kept id u₂ u₁ s :=
  exists_congr fun _ => and_congr_right fun _ => and_comm

theorem KeptIff.symm {id : d.Id} {condition : Prop} (h : d.KeptIff id u₁ u₂ s s₁ condition) :
    d.KeptIff id u₂ u₁ s s₁ condition :=
  ⟨kept_comm.trans h.kept, h.told⟩

theorem KeptIff.congr {id : d.Id} {condition condition' : Prop}
    (h : d.KeptIff id u₁ u₂ s s₁ condition) (hiff : condition ↔ condition') :
    d.KeptIff id u₁ u₂ s s₁ condition' :=
  ⟨h.kept.trans hiff, h.told.trans (and_congr_right fun _ => hiff)⟩

/-- One more update is told of in full if those before are, and it is. -/
theorem toldInFull_concat : d.ToldInFull (events ++ [d.updated row fields]) ↔
    d.ToldInFull events ∧ ∀ old, d.lastTold (d.rowId row) events = some old →
      ∀ f, d.DiffersIn old row f → f ∈ fields := by
  constructor
  · intro h
    exact ⟨fun told row' fields' hpre =>
      h told row' fields' (hpre.trans (List.prefix_append _ _)),
      h events row fields (List.prefix_refl _)⟩
  · rintro ⟨hevents, hlast⟩ told row' fields' hpre
    rcases List.prefix_concat_iff.mp hpre with heq | hpre
    · obtain ⟨rfl, hsame⟩ := List.append_inj' heq rfl
      obtain ⟨rfl, rfl⟩ := updated_inj (List.singleton_inj.mp hsame)
      exact hlast
    · exact hevents told row' fields' hpre

theorem toldInFull_of_none (h : ∀ row fields, d.updated row fields ∉ events) :
    d.ToldInFull events :=
  fun _ row fields hpre => absurd (hpre.subset (by simp)) (h row fields)

namespace Wrote

/-- A row that was as the tables have it is again. -/
theorem row?_eq (h : d.Wrote old u s row s₁) (hold : d.row? s (d.rowId old) = some old) :
    d.row? s₁ (d.rowId old) = some row := by
  cases h with
  | idle => exact hold
  | stored _ _ hrow _ => exact hrow

theorem rowId_eq (h : d.Wrote old u s row s₁) : d.rowId row = d.rowId old := by
  cases h with
  | idle => rfl
  | stored hu _ _ _ => exact rowId_update hu

/-- The row written is as the update asks. -/
theorem idle_self (h : d.Wrote old u s row s₁) : d.Idle u row := by
  cases h with
  | idle hidle => exact hidle
  | stored hu _ _ _ => exact idle_update hu

/-- The row written is as another update asks if the row found was. -/
theorem idle_iff (h : d.Wrote old u₁ s row s₁) (hapart : d.Apart u₁ u₂) :
    d.Idle u₂ row ↔ d.Idle u₂ old := by
  cases h with
  | idle => exact Iff.rfl
  | stored hu _ _ _ => exact hapart.idle_iff hu

/-- An update of the row that the tables hold is told of in full. -/
theorem toldInFull_iff (h : d.Wrote old u s row s₁) (hs : s.HoldsTold)
    (hold : d.row? s (d.rowId old) = some old) :
    d.ToldInFull s₁.payloads ↔ d.ToldInFull s.payloads := by
  cases h with
  | idle => exact Iff.rfl
  | stored hu _ _ hpayloads =>
    rw [hpayloads, toldInFull_concat, and_iff_left_iff_imp]
    intro _ last hlast f hf
    rw [rowId_update hu, ← hs, hold] at hlast
    cases hlast
    exact (mem_fields_iff hu).mpr hf

end Wrote

/-- An update that finds the row which another one has written keeps what that has changed. -/
theorem kept_of_serial (h₁ : d.Wrote old u₁ s r₁ s₁) (h₂ : d.Wrote r₁ u₂ s₁ r₂ s₂)
    (hapart : d.Apart u₁ u₂) (hold : d.row? s (d.rowId old) = some old) :
    d.Kept (d.rowId old) u₁ u₂ s₂ := by
  have hr₁ := h₁.row?_eq hold
  have hr₂ : d.row? s₂ (d.rowId old) = some r₂ := by
    rw [← h₁.rowId_eq] at hr₁ ⊢
    exact h₂.row?_eq hr₁
  exact ⟨r₂, hr₂, (h₂.idle_iff hapart.symm).mpr h₁.idle_self, h₂.idle_self⟩

theorem toldInFull_of_serial (h₁ : d.Wrote old u₁ s r₁ s₁) (h₂ : d.Wrote r₁ u₂ s₁ r₂ s₂)
    (hs : s.HoldsTold) (hs₁ : s₁.HoldsTold) (hold : d.row? s (d.rowId old) = some old) :
    d.ToldInFull s₂.payloads ↔ d.ToldInFull s.payloads := by
  have hr₁ := h₁.row?_eq hold
  rw [← h₁.rowId_eq] at hr₁
  exact (h₂.toldInFull_iff hs₁ hr₁).trans (h₁.toldInFull_iff hs hold)

/-- Updates that have both found the same row: the first one is kept only if one of the two writes
nothing. -/
theorem kept_iff_of_same (h₁ : d.Wrote old u₁ s r₁ s₁) (h₂ : d.Wrote old u₂ s₁ r₂ s₂)
    (hapart : d.Apart u₁ u₂) (hold : d.row? s (d.rowId old) = some old) :
    d.Kept (d.rowId old) u₁ u₂ s₂ ↔ d.Idle u₁ old ∨ d.Idle u₂ old := by
  have hr₁ := h₁.row?_eq hold
  cases h₂ with
  | idle hidle =>
    exact iff_of_true ⟨r₁, hr₁, h₁.idle_self, (h₁.idle_iff hapart).mpr hidle⟩ (.inr hidle)
  | stored hu hbusy hrow hpayloads =>
    rw [or_iff_left hbusy, ← hapart.symm.idle_iff hu]
    constructor
    · rintro ⟨row, hlast, hkept, -⟩
      cases hrow.symm.trans hlast
      exact hkept
    · exact fun hkept => ⟨r₂, hrow, hkept, idle_update hu⟩

/-- The record of the one that writes last does not name the fields that it puts back. -/
theorem toldInFull_iff_of_same (h₁ : d.Wrote old u₁ s r₁ s₁) (h₂ : d.Wrote old u₂ s₁ r₂ s₂)
    (hs : s.HoldsTold) (hs₁ : s₁.HoldsTold) (hapart : d.Apart u₁ u₂)
    (hold : d.row? s (d.rowId old) = some old) :
    d.ToldInFull s₂.payloads ↔
      d.ToldInFull s.payloads ∧ (d.Idle u₁ old ∨ d.Idle u₂ old) := by
  cases h₁ with
  | idle hidle => rw [h₂.toldInFull_iff hs hold, and_iff_left (.inl hidle)]
  | stored hu₁ hbusy₁ hr₁ hpayloads₁ =>
    have htold₁ := (Wrote.stored hu₁ hbusy₁ hr₁ hpayloads₁).toldInFull_iff hs hold
    cases h₂ with
    | idle hidle => rw [htold₁, and_iff_left (.inr hidle)]
    | stored hu₂ hbusy₂ hr₂ hpayloads₂ =>
      refine iff_of_false ?_ fun h => h.2.elim hbusy₁ hbusy₂
      rw [hpayloads₂, toldInFull_concat]
      rintro ⟨-, hlast⟩
      obtain ⟨f, hf⟩ := List.exists_mem_of_ne_nil _ (mt (fields_eq_nil_iff hu₁).mp hbusy₁)
      have hchanged := (mem_fields_iff hu₁).mp hf
      have hsame : ¬ d.DiffersIn old r₂ f := fun hdiffers =>
        hapart f (sets_of_differs hu₁ hchanged) (sets_of_differs hu₂ hdiffers)
      rw [rowId_update hu₂, ← hs₁, hr₁] at hlast
      exact hsame ((mem_fields_iff hu₂).mp (hlast _ rfl f (hchanged.of_not hsame)))

end Writes

end Described

/-! ## Turns of two updates -/

namespace Interleaving

theorem holdsTold_take {n : Interleaving} (hs : n.chronicle.state.HoldsTold) (turn : Turn) :
    (n.take turn).chronicle.state.HoldsTold := by
  rcases n.take_chronicle turn with hsame | ⟨c, hcall⟩
  · rwa [hsame]
  · rw [hcall]
    exact Chronicle.holdsTold_run hs turn.moment c

/-- The caller has yet to begin its update. -/
def Awaits (n : Interleaving) (i : Nat) (d : Described) (id : d.Id) (u : d.Update) (stamp : Stamp) :
    Prop :=
  n.callers[i]? = some (.start (d.operation id u, stamp))

/-- The caller is about to make its update of the row that it has found. -/
def Found (n : Interleaving) (i : Nat) (d : Described) (id : d.Id) (u : d.Update) (stamp : Stamp)
    (old : d.Row) : Prop :=
  n.callers[i]? = some ⟨d.operation id u, stamp, d.goOn id u stamp old⟩

/-- The update of the caller is over, and has come out with a row. -/
def Updated (n : Interleaving) (i : Nat) (d : Described) (id : d.Id) (u : d.Update)
    (stamp : Stamp) : Prop :=
  ∃ v, n.callers[i]? = some ⟨d.operation id u, stamp, .done (.ok v)⟩

section Turns

variable {d : Described} {id : d.Id} {u u₁ u₂ : d.Update} {stamp stamp₁ stamp₂ : Stamp}
  {old row : d.Row} {n : Interleaving} {i j : Nat} {t t₁ t₂ t₃ t₄ : Turn}

theorem awaits_take_iff (hi : t.caller ≠ i) :
    (n.take t).Awaits i d id u stamp ↔ n.Awaits i d id u stamp := by
  unfold Awaits
  rw [n.take_callers_of_ne hi]

theorem found_take_iff (hi : t.caller ≠ i) :
    (n.take t).Found i d id u stamp old ↔ n.Found i d id u stamp old := by
  unfold Found
  rw [n.take_callers_of_ne hi]

theorem updated_take_iff (hi : t.caller ≠ i) :
    (n.take t).Updated i d id u stamp ↔ n.Updated i d id u stamp := by
  unfold Updated
  rw [n.take_callers_of_ne hi]

/-- The first turn of an update finds the row. -/
theorem Awaits.found (h : n.Awaits i d id u stamp) (ht : t.caller = i)
    (hrow : d.row? n.chronicle.state id = some row) :
    (n.take t).chronicle = n.chronicle ∧ (n.take t).Found i d id u stamp row := by
  subst ht
  have hstep : ((d.operation id u).action stamp).step (Chronicle.run t.moment) n.chronicle =
      (d.goOn id u stamp row, n.chronicle) := Described.step_operation hrow
  refine ⟨?_, (take_callers_self h).trans ?_⟩
  · rw [take_of_caller h]
    exact congrArg Prod.snd hstep
  · exact congrArg (fun p => some (Caller.mk (d.operation id u) stamp p.1)) hstep

/-- The second turn of an update writes the row. -/
theorem Found.exists_wrote (h : n.Found i d id u stamp old) (ht : t.caller = i)
    (hupdated : (n.take t).Updated i d id u stamp) :
    ∃ row, d.Wrote old u n.chronicle.state row (n.take t).chronicle.state := by
  subst ht
  obtain ⟨v, hv⟩ := hupdated
  rw [take_callers_self h] at hv
  injection hv with hv
  injection hv with _ _ hdone
  rw [take_of_caller h]
  exact Described.wrote_of_step hdone

/-- Two turns in a row are the whole update. -/
theorem Awaits.exists_wrote (h : n.Awaits i d id u stamp) (ht₁ : t₁.caller = i)
    (ht₂ : t₂.caller = i) (hrow : d.row? n.chronicle.state id = some row)
    (hupdated : ((n.take t₁).take t₂).Updated i d id u stamp) :
    ∃ row', d.Wrote row u n.chronicle.state row' ((n.take t₁).take t₂).chronicle.state := by
  obtain ⟨hsame, hfound⟩ := h.found ht₁ hrow
  rw [← hsame]
  exact hfound.exists_wrote ht₂ hupdated

/-- One update after the other: the second one finds what the first one has written. -/
theorem keptIff_of_sequence (h₁ : n.Awaits i d id u₁ stamp₁) (h₂ : n.Awaits j d id u₂ stamp₂)
    (hij : i ≠ j) (hapart : d.Apart u₁ u₂) (hs : n.chronicle.state.HoldsTold)
    (hrow : d.row? n.chronicle.state id = some row)
    (ht₁ : t₁.caller = i) (ht₂ : t₂.caller = i) (ht₃ : t₃.caller = j) (ht₄ : t₄.caller = j)
    (hu₁ : ((((n.take t₁).take t₂).take t₃).take t₄).Updated i d id u₁ stamp₁)
    (hu₂ : ((((n.take t₁).take t₂).take t₃).take t₄).Updated j d id u₂ stamp₂) :
    d.KeptIff id u₁ u₂ n.chronicle.state
      ((((n.take t₁).take t₂).take t₃).take t₄).chronicle.state True := by
  have hid : d.rowId row = id := Described.rowId_of_lastTold ((hs d id).symm.trans hrow)
  subst hid
  rw [updated_take_iff (ht₄ ▸ hij.symm), updated_take_iff (ht₃ ▸ hij.symm)] at hu₁
  obtain ⟨r₁, hw₁⟩ := h₁.exists_wrote ht₁ ht₂ hrow hu₁
  have hr₁ := hw₁.row?_eq hrow
  have h₂' : ((n.take t₁).take t₂).Awaits j d (d.rowId row) u₂ stamp₂ := by
    rwa [awaits_take_iff (ht₂ ▸ hij), awaits_take_iff (ht₁ ▸ hij)]
  obtain ⟨r₂, hw₂⟩ := h₂'.exists_wrote ht₃ ht₄ hr₁ hu₂
  have hs₁ := holdsTold_take (holdsTold_take hs t₁) t₂
  exact ⟨iff_true_intro (Described.kept_of_serial hw₁ hw₂ hapart hrow), by
    rw [and_true, Described.toldInFull_of_serial hw₁ hw₂ hs hs₁ hrow]⟩

/-- Both updates find the row before one of them writes it. -/
theorem found_both (h₁ : n.Awaits i d id u₁ stamp₁) (h₂ : n.Awaits j d id u₂ stamp₂)
    (hij : i ≠ j) (hrow : d.row? n.chronicle.state id = some row)
    (ht₁ : t₁.caller = i) (ht₂ : t₂.caller = j) :
    ((n.take t₁).take t₂).chronicle = n.chronicle ∧
      ((n.take t₁).take t₂).Found i d id u₁ stamp₁ row ∧
      ((n.take t₁).take t₂).Found j d id u₂ stamp₂ row := by
  obtain ⟨hsame₁, hfound₁⟩ := h₁.found ht₁ hrow
  have h₂' : (n.take t₁).Awaits j d id u₂ stamp₂ := (awaits_take_iff (ht₁ ▸ hij)).mpr h₂
  obtain ⟨hsame₂, hfound₂⟩ := h₂'.found ht₂ (hsame₁ ▸ hrow)
  exact ⟨hsame₂.trans hsame₁, (found_take_iff (ht₂ ▸ hij.symm)).mpr hfound₁, hfound₂⟩

/-- Both updates have found the same row, and then one writes after the other. -/
theorem keptIff_of_found (h₁ : n.Found i d id u₁ stamp₁ row) (h₂ : n.Found j d id u₂ stamp₂ row)
    (hij : i ≠ j) (hapart : d.Apart u₁ u₂) (hs : n.chronicle.state.HoldsTold)
    (hrow : d.row? n.chronicle.state id = some row)
    (ht₃ : t₃.caller = i) (ht₄ : t₄.caller = j)
    (hu₁ : ((n.take t₃).take t₄).Updated i d id u₁ stamp₁)
    (hu₂ : ((n.take t₃).take t₄).Updated j d id u₂ stamp₂) :
    d.KeptIff id u₁ u₂ n.chronicle.state ((n.take t₃).take t₄).chronicle.state
      (d.Idle u₁ row ∨ d.Idle u₂ row) := by
  have hid : d.rowId row = id := Described.rowId_of_lastTold ((hs d id).symm.trans hrow)
  subst hid
  rw [updated_take_iff (ht₄ ▸ hij.symm)] at hu₁
  obtain ⟨r₁, hw₁⟩ := h₁.exists_wrote ht₃ hu₁
  have h₂' := (found_take_iff (ht₃ ▸ hij)).mpr h₂
  obtain ⟨r₂, hw₂⟩ := h₂'.exists_wrote ht₄ hu₂
  exact ⟨Described.kept_iff_of_same hw₁ hw₂ hapart hrow,
    Described.toldInFull_iff_of_same hw₁ hw₂ hs (holdsTold_take hs t₃) hapart hrow⟩

end Turns

end Interleaving

/-! ## Which updates are kept -/

/-- One of two callers is through before the other begins. -/
def InSequence (i j : Nat) (turns : List Turn) : Prop :=
  turns.map Turn.caller = [i, i, j, j] ∨ turns.map Turn.caller = [j, j, i, i]

/-- Two turns of either caller: the one before the other, or each caller has one of the first two
and one of the last two. -/
theorem orders_of_perm {i j a b c d : Nat} (hij : i ≠ j) (h : [a, b, c, d].Perm [i, i, j, j]) :
    [a, b, c, d] = [i, i, j, j] ∨ [a, b, c, d] = [j, j, i, i] ∨
      (a = i ∧ b = j ∨ a = j ∧ b = i) ∧ (c = i ∧ d = j ∨ c = j ∧ d = i) := by
  have hcount := h.count_eq i
  simp only [List.count_cons, List.count_nil] at hcount
  have hmem : ∀ x ∈ [a, b, c, d], x = i ∨ x = j := fun x hx => by simpa using h.subset hx
  have ha := hmem a (by simp)
  have hb := hmem b (by simp)
  have hc := hmem c (by simp)
  have hd := hmem d (by simp)
  grind

namespace Interleaving

/-- Two updates, each with its two turns. -/
theorem keptIff_of_turns {d : Described} {id : d.Id} {u₁ u₂ : d.Update} {stamp₁ stamp₂ : Stamp}
    {row : d.Row} {n : Interleaving} {i j : Nat} {turns : List Turn}
    (h₁ : n.Awaits i d id u₁ stamp₁) (h₂ : n.Awaits j d id u₂ stamp₂) (hij : i ≠ j)
    (hapart : d.Apart u₁ u₂) (hs : n.chronicle.state.HoldsTold)
    (hrow : d.row? n.chronicle.state id = some row)
    (hturns : (turns.map Turn.caller).Perm [i, i, j, j])
    (hu₁ : (turns.foldl take n).Updated i d id u₁ stamp₁)
    (hu₂ : (turns.foldl take n).Updated j d id u₂ stamp₂) :
    d.KeptIff id u₁ u₂ n.chronicle.state (turns.foldl take n).chronicle.state
      (InSequence i j turns ∨ d.Idle u₁ row ∨ d.Idle u₂ row) := by
  obtain ⟨t₁, t₂, t₃, t₄, rfl⟩ := List.length_eq_four.mp
    (List.length_map Turn.caller ▸ hturns.length_eq)
  rcases orders_of_perm hij hturns with hseq | hseq | ⟨hfirst, hlast⟩
  · obtain ⟨ht₁, ht₂, ht₃, ht₄⟩ :
        t₁.caller = i ∧ t₂.caller = i ∧ t₃.caller = j ∧ t₄.caller = j := by simpa using hseq
    exact (keptIff_of_sequence h₁ h₂ hij hapart hs hrow ht₁ ht₂ ht₃ ht₄ hu₁ hu₂).congr
      (iff_of_true trivial (.inl (.inl hseq)))
  · obtain ⟨ht₁, ht₂, ht₃, ht₄⟩ :
        t₁.caller = j ∧ t₂.caller = j ∧ t₃.caller = i ∧ t₄.caller = i := by simpa using hseq
    have hswapped :=
      keptIff_of_sequence h₂ h₁ hij.symm hapart.symm hs hrow ht₁ ht₂ ht₃ ht₄ hu₂ hu₁
    exact hswapped.symm.congr (iff_of_true trivial (.inl (.inr hseq)))
  · have hoverlap : ¬ InSequence i j [t₁, t₂, t₃, t₄] := by
      unfold InSequence
      grind
    have hfound : ((n.take t₁).take t₂).chronicle = n.chronicle ∧
        ((n.take t₁).take t₂).Found i d id u₁ stamp₁ row ∧
        ((n.take t₁).take t₂).Found j d id u₂ stamp₂ row := by
      rcases hfirst with ⟨ht₁, ht₂⟩ | ⟨ht₁, ht₂⟩
      · exact found_both h₁ h₂ hij hrow ht₁ ht₂
      · exact (found_both h₂ h₁ hij.symm hrow ht₁ ht₂).imp_right And.symm
    obtain ⟨hsame, hf₁, hf₂⟩ := hfound
    rw [← hsame] at hs hrow ⊢
    refine Described.KeptIff.congr ?_ (or_iff_right hoverlap).symm
    rcases hlast with ⟨ht₃, ht₄⟩ | ⟨ht₃, ht₄⟩
    · exact keptIff_of_found hf₁ hf₂ hij hapart hs hrow ht₃ ht₄ hu₁ hu₂
    · have hswapped := keptIff_of_found hf₂ hf₁ hij.symm hapart.symm hs hrow ht₃ ht₄ hu₂ hu₁
      exact hswapped.symm.congr or_comm

end Interleaving

/-- Two updates that set different fields of one row, each with its two turns, in any order: both
are kept, and told of in full, exactly if one is through before the other begins, or if one of them
finds the row as it asks. -/
theorem updates_kept_iff {d : Described} {id : d.Id} {u₁ u₂ : d.Update} {stamp₁ stamp₂ : Stamp}
    {asked : List (Operation × Stamp)} {before turns : List Turn} {i j : Nat} {row : d.Row}
    (hi : asked[i]? = some (d.operation id u₁, stamp₁))
    (hj : asked[j]? = some (d.operation id u₂, stamp₂)) (hij : i ≠ j) (hapart : d.Apart u₁ u₂)
    (hbefore : ∀ turn ∈ before, turn.caller ≠ i ∧ turn.caller ≠ j)
    (hturns : (turns.map Turn.caller).Perm [i, i, j, j])
    (hrow : d.row? (interleave asked before).chronicle.state id = some row)
    (hu₁ : (interleave asked (before ++ turns)).Updated i d id u₁ stamp₁)
    (hu₂ : (interleave asked (before ++ turns)).Updated j d id u₂ stamp₂) :
    let s := (interleave asked before).chronicle.state
    let s' := (interleave asked (before ++ turns)).chronicle.state
    let condition := InSequence i j turns ∨ d.Idle u₁ row ∨ d.Idle u₂ row
    (d.Kept id u₁ u₂ s' ↔ condition) ∧
      (d.ToldInFull s'.payloads ↔ d.ToldInFull s.payloads ∧ condition) := by
  have h₁ : (interleave asked before).Awaits i d id u₁ stamp₁ := by
    unfold Interleaving.Awaits
    rw [callers_of_no_turn fun turn hturn => (hbefore turn hturn).1, hi, Option.map_some]
  have h₂ : (interleave asked before).Awaits j d id u₂ stamp₂ := by
    unfold Interleaving.Awaits
    rw [callers_of_no_turn fun turn hturn => (hbefore turn hturn).2, hj, Option.map_some]
  have hs : (interleave asked before).chronicle.state.HoldsTold := by
    obtain ⟨calls, hcalls⟩ := exists_chronicleOf_interleave asked before
    exact hcalls ▸ holdsTold_chronicleOf calls
  rw [interleave_append_turns] at hu₁ hu₂ ⊢
  have hkept := Interleaving.keptIff_of_turns h₁ h₂ hij hapart hs hrow hturns hu₁ hu₂
  exact ⟨hkept.kept, hkept.told⟩

/-! ## A sample

An account is renamed and described. -/

namespace Sample

def stamped : Stamp := ⟨now, ⟨uuid 1⟩, fun i => ⟨uuid i⟩⟩

def rename : AccountUpdate := ⟨some "till", none, none⟩

def describe : AccountUpdate := ⟨none, some "notes and coins", none⟩

def updates : List (Operation × Stamp) :=
  [(.createAccount (account 2 "cash"), stamped), (.updateAccount ⟨uuid 2⟩ rename, stamped),
    (.updateAccount ⟨uuid 2⟩ describe, stamped)]

def cash : Account := ⟨⟨uuid 2⟩, "cash", "cash", .debit, none, ∅, now, now⟩

theorem apart : Described.Apart .account rename describe := by
  rintro f (⟨rfl, -⟩ | ⟨-, h⟩ | ⟨-, h⟩) hdescribe
  · exact absurd hdescribe (by simp [Described.Sets, describe])
  · exact h rfl
  · exact h rfl

end Sample

/-- The account is renamed, and then described: both are kept. -/
theorem updates_kept_iff_in_sequence :
    let before := Sample.turnsOf [0]
    let turns := Sample.turnsOf [1, 1, 2, 2]
    let s := (interleave Sample.updates before).chronicle.state
    let n := interleave Sample.updates (before ++ turns)
    Described.row? .account s ⟨Sample.uuid 2⟩ = some Sample.cash ∧
      n.Updated 1 .account ⟨Sample.uuid 2⟩ Sample.rename Sample.stamped ∧
      n.Updated 2 .account ⟨Sample.uuid 2⟩ Sample.describe Sample.stamped ∧
      Described.Kept .account ⟨Sample.uuid 2⟩ Sample.rename Sample.describe n.chronicle.state ∧
      Described.ToldInFull .account n.chronicle.state.payloads := by
  intro before turns s n
  have hrow : Described.row? .account s ⟨Sample.uuid 2⟩ = some Sample.cash := rfl
  have hrenamed : n.Updated 1 .account ⟨Sample.uuid 2⟩ Sample.rename Sample.stamped :=
    ⟨{ Sample.cash with name := "till" }, rfl⟩
  have hdescribed : n.Updated 2 .account ⟨Sample.uuid 2⟩ Sample.describe Sample.stamped :=
    ⟨{ Sample.cash with name := "till", description := some "notes and coins" }, rfl⟩
  have hsequence : InSequence 1 2 turns := .inl rfl
  have htold : Described.ToldInFull .account s.payloads := by
    refine Described.toldInFull_of_none fun row fields hmem => ?_
    have hpayloads : s.payloads = [.accountCreated Sample.cash] := rfl
    rw [hpayloads] at hmem
    cases List.mem_singleton.mp hmem
  obtain ⟨hkept, hfull⟩ := updates_kept_iff (d := .account) (i := 1) (j := 2) rfl rfl (by decide)
    Sample.apart (by decide) (List.Perm.refl _) hrow hrenamed hdescribed
  exact ⟨hrow, hrenamed, hdescribed, hkept.mpr (.inl hsequence), hfull.mpr ⟨htold, .inl hsequence⟩⟩

/-- Both updates find the account before it is renamed. The one that describes it puts the old name
back, and tells of the description only. -/
theorem updates_overwritten :
    let n := interleave Sample.updates (Sample.turnsOf [0, 1, 2, 1, 2])
    let described : Account := { Sample.cash with description := some "notes and coins" }
    Described.Apart .account Sample.rename Sample.describe ∧
      n.Updated 1 .account ⟨Sample.uuid 2⟩ Sample.rename Sample.stamped ∧
      n.Updated 2 .account ⟨Sample.uuid 2⟩ Sample.describe Sample.stamped ∧
      Described.row? .account n.chronicle.state ⟨Sample.uuid 2⟩ = some described ∧
      n.chronicle.state.payloads = [.accountCreated Sample.cash,
        .accountUpdated { Sample.cash with name := "till" } ["name"],
        .accountUpdated described ["description"]] ∧
      ¬ Described.Kept .account ⟨Sample.uuid 2⟩ Sample.rename Sample.describe n.chronicle.state ∧
      ¬ Described.ToldInFull .account n.chronicle.state.payloads := by
  intro n described
  have hrow : Described.row? .account n.chronicle.state ⟨Sample.uuid 2⟩ = some described := rfl
  refine ⟨Sample.apart, ⟨{ Sample.cash with name := "till" }, rfl⟩, ⟨described, rfl⟩, hrow, rfl,
    ?_, ?_⟩
  · rintro ⟨row, hlast, hrenamed, -⟩
    cases hrow.symm.trans hlast
    exact absurd (AccountUpdate.Idle.name hrenamed "till" rfl) (by decide)
  · intro hfull
    have hnamed : "name" ∈ ["description"] :=
      hfull [.accountCreated Sample.cash,
          .accountUpdated { Sample.cash with name := "till" } ["name"]]
        described _ (List.prefix_refl _) { Sample.cash with name := "till" } rfl "name"
        (.inl ⟨rfl, by decide⟩)
    exact absurd hnamed (by decide)

end DoubleEntry
