import DoubleEntry.OrdMap
import Mathlib.Data.List.Induction
import Mathlib.Data.List.Nodup
import Mathlib.Data.List.Perm.Basic

/-!
# Laws of ordered tables

In rows that ascend, one is a member exactly if it is found under its key (`Ascending.lookup_iff`),
and rows with the same lookups are the same (`Ascending.eq_of_lookup`). So a table is told by its
lookups alone (`eq_of_get?`).
-/

namespace DoubleEntry.OrdMap

open Std

variable {κ α : Type}

/-! ## Rows -/

section Rows

variable [DecidableEq κ] {rows : List (κ × α)} {key : κ} {value : α}

theorem mem_of_lookup (h : rows.lookup key = some value) : (key, value) ∈ rows := by
  obtain ⟨before, after, rfl, -⟩ := List.lookup_eq_some_iff.mp h
  exact List.mem_append_right _ List.mem_cons_self

/-- With every key once, a row is found under its key. -/
theorem lookup_of_mem (hnodup : (rows.map Prod.fst).Nodup) (h : (key, value) ∈ rows) :
    rows.lookup key = some value := by
  obtain ⟨before, after, rfl⟩ := List.append_of_mem h
  rw [List.map_append, List.nodup_append] at hnodup
  refine List.lookup_eq_some_iff.mpr ⟨before, after, rfl, fun p hp => bne_iff_ne.mpr ?_⟩
  exact (hnodup.2.2 p.1 (List.mem_map_of_mem hp) key List.mem_cons_self).symm

end Rows

variable [Ord κ]

/-- Keys that ascend are distinct. -/
theorem nodup_of_ascending [ReflOrd κ] {keys : List κ}
    (h : keys.Pairwise fun k l => compare k l = .lt) : keys.Nodup := by
  refine h.imp fun {k l} hlt heq => ?_
  rw [heq, show compare l l = .eq from ReflCmp.compare_self] at hlt
  cases hlt

section Ascending

variable {rows rows' : List (κ × α)}

theorem Ascending.nodup_keys [ReflOrd κ] (h : Ascending rows) : (rows.map Prod.fst).Nodup :=
  nodup_of_ascending (List.pairwise_map.mpr h)

theorem Ascending.lookup_iff [ReflOrd κ] [DecidableEq κ] (h : Ascending rows) {key : κ}
    {value : α} : rows.lookup key = some value ↔ (key, value) ∈ rows :=
  ⟨mem_of_lookup, lookup_of_mem h.nodup_keys⟩

theorem Ascending.eq_of_lookup [TransOrd κ] [DecidableEq κ] (h : Ascending rows)
    (h' : Ascending rows') (hlookup : ∀ key, rows.lookup key = rows'.lookup key) :
    rows = rows' := by
  have hperm : rows.Perm rows' := by
    refine (List.perm_ext_iff_of_nodup h.nodup_keys.of_map h'.nodup_keys.of_map).mpr fun p => ?_
    rw [← h.lookup_iff, ← h'.lookup_iff, hlookup]
  refine hperm.eq_of_pairwise (fun p q _ _ hpq hqp => ?_) h h'
  rw [OrientedCmp.gt_of_lt hpq] at hqp
  cases hqp

/-- Storing a row under a key that a filter drops leaves the keys it lets through. -/
theorem filter_keys_putRow [LawfulEqOrd κ] {p : κ → Bool} {key : κ} (hkey : p key = false)
    (value : α) (rows : List (κ × α)) :
    ((putRow key value rows).map Prod.fst).filter p = (rows.map Prod.fst).filter p := by
  induction rows with
  | nil => simp [putRow, hkey]
  | cons q rest ih =>
    obtain ⟨k, v⟩ := q
    unfold putRow
    split
    · simp [hkey]
    · next heq =>
      cases LawfulEqOrd.eq_of_compare heq
      simp [hkey]
    · rw [List.map_cons, List.map_cons, List.filter_cons, List.filter_cons, ih]

end Ascending

/-! ## Lookups -/

theorem nodup_keys [ReflOrd κ] (m : OrdMap κ α) : m.keys.Nodup := m.ascending.nodup_keys

section Lookups

variable [DecidableEq κ] {m m' : OrdMap κ α} {key : κ} {value : α}

theorem contains_iff : m.contains key = true ↔ ∃ value, m.get? key = some value :=
  Option.isSome_iff_exists

theorem mem_keys_iff : key ∈ m.keys ↔ m.contains key = true := by
  refine List.mem_map.trans (Iff.trans ?_ List.lookup_isSome_iff.symm)
  exact exists_congr fun p => and_congr_right fun _ => by rw [beq_iff_eq, eq_comm]

theorem mem_keys_of_get? (h : m.get? key = some value) : key ∈ m.keys :=
  mem_keys_iff.mpr (contains_iff.mpr ⟨value, h⟩)

/-- The rows of a table are what lookups find. -/
theorem mem_rows_iff [ReflOrd κ] : (key, value) ∈ m.rows ↔ m.get? key = some value :=
  m.ascending.lookup_iff.symm

theorem get?_filter [ReflOrd κ] (p : κ × α → Bool) :
    (m.filter p).get? key = some value ↔ m.get? key = some value ∧ p (key, value) = true := by
  rw [← mem_rows_iff, ← mem_rows_iff, rows_filter, List.mem_filter]

theorem get?_erase_of_ne [ReflOrd κ] {other : κ} (h : other ≠ key) :
    (m.erase key).get? other = m.get? other := by
  refine Option.ext fun value => (get?_filter _).trans ?_
  simp [h]

theorem eq_of_get? [TransOrd κ] (h : ∀ key, m.get? key = m'.get? key) : m = m' := by
  cases m
  cases m'
  cases Ascending.eq_of_lookup ‹_› ‹_› h
  rfl

end Lookups

/-! ## Rows that stay -/

section Keeps

variable [DecidableEq κ] {β : Type}

/-- What a view shows of a row that is there stays as it is. -/
def Keeps (view : α → β) (m m' : OrdMap κ α) : Prop :=
  ∀ key row, m.get? key = some row → ∃ row', m'.get? key = some row' ∧ view row' = view row

namespace Keeps

variable {view : α → β} {m m' m'' : OrdMap κ α} {key : κ} {row old : α}

theorem refl (m : OrdMap κ α) : Keeps view m m := fun _ row hrow => ⟨row, hrow, rfl⟩

theorem trans (h : Keeps view m m') (h' : Keeps view m' m'') : Keeps view m m'' := by
  intro key row hrow
  obtain ⟨row', hrow', hview⟩ := h key row hrow
  obtain ⟨row'', hrow'', hview'⟩ := h' key row' hrow'
  exact ⟨row'', hrow'', hview'.trans hview⟩

theorem contains (h : Keeps view m m') (hkey : m.contains key = true) :
    m'.contains key = true := by
  obtain ⟨row, hrow⟩ := contains_iff.mp hkey
  obtain ⟨row', hrow', -⟩ := h key row hrow
  exact contains_iff.mpr ⟨row', hrow'⟩

/-- Where the whole row is in view, it is found again. -/
theorem get? (h : Keeps id m m') (hrow : m.get? key = some row) : m'.get? key = some row := by
  obtain ⟨row', hrow', rfl⟩ := h key row hrow
  exact hrow'

variable [TransOrd κ] [LawfulEqOrd κ]

theorem put_new (hnew : m.contains key = false) : Keeps view m (m.put key row) := by
  intro other r hr
  refine ⟨r, ?_, rfl⟩
  rw [get?_put_of_ne, hr]
  rintro rfl
  rw [contains_iff.mpr ⟨r, hr⟩] at hnew
  cases hnew

theorem put_same (hold : m.get? key = some old) (hview : view row = view old) :
    Keeps view m (m.put key row) := by
  intro other r hr
  rw [get?_put]
  split
  · next hother =>
    rw [hother, hold] at hr
    cases hr
    exact ⟨row, rfl, hview⟩
  · exact ⟨r, hr, rfl⟩

end Keeps

end Keeps

/-! ## Storing -/

variable [TransOrd κ] [LawfulEqOrd κ]

theorem filter_keys_put {p : κ → Bool} {key : κ} (hkey : p key = false) (value : α)
    (m : OrdMap κ α) : (m.put key value).keys.filter p = m.keys.filter p :=
  filter_keys_putRow hkey value m.rows

section Storing

variable [DecidableEq κ]

/-- What holds of all rows and of one that is stored holds of all rows afterwards. -/
theorem forall_get?_put {P : κ → α → Prop} {key : κ} {value : α} {m : OrdMap κ α}
    (hold : ∀ k a, m.get? k = some a → P k a) (hnew : P key value) :
    ∀ k a, (m.put key value).get? k = some a → P k a := by
  intro k a ha
  rw [get?_put] at ha
  split at ha
  · next hk =>
    cases ha
    exact hk ▸ hnew
  · exact hold k a ha

theorem mem_keys_put {key other : κ} {value : α} {m : OrdMap κ α} :
    other ∈ (m.put key value).keys ↔ other = key ∨ other ∈ m.keys := by
  rw [mem_keys_iff, mem_keys_iff, contains, get?_put]
  split
  · next h => exact ⟨fun _ => Or.inl h, fun _ => rfl⟩
  · next h => exact ⟨Or.inr, fun hor => hor.resolve_left h⟩

/-- A row under a new key is added to those that are there. -/
theorem perm_put {key : κ} (value : α) {m : OrdMap κ α} (h : m.get? key = none) :
    (m.put key value).rows.Perm ((key, value) :: m.rows) := by
  have hnew : (key, value) ∉ m.rows := fun hmem => by
    cases h.symm.trans (mem_rows_iff.mp hmem)
  refine (List.perm_ext_iff_of_nodup (nodup_keys _).of_map
    (List.nodup_cons.mpr ⟨hnew, (nodup_keys m).of_map⟩)).mpr fun ⟨k, v⟩ => ?_
  rw [mem_rows_iff, get?_put, List.mem_cons, mem_rows_iff]
  split
  · next hk => simp [hk, h, eq_comm]
  · next hk => simp [hk]

/-- Storing what is there already leaves the table as it is. -/
theorem put_eq_self {m : OrdMap κ α} {key : κ} {value : α} (h : m.get? key = some value) :
    m.put key value = m := by
  refine eq_of_get? fun other => ?_
  rw [get?_put]
  split
  · next hother => rw [hother, h]
  · rfl

/-! ## Tables made of lists -/

theorem mem_keys_ofList {key : κ} {pairs : List (κ × α)} :
    key ∈ (ofList pairs).keys ↔ key ∈ pairs.map Prod.fst := by
  induction pairs using List.reverseRecOn with
  | nil => rfl
  | append_singleton pairs p ih =>
    unfold ofList at *
    rw [List.foldl_append, List.map_append, List.mem_append]
    refine mem_keys_put.trans ?_
    rw [ih, or_comm]
    simp

omit [DecidableEq κ] in
theorem mem_of_mem_ofList {pairs : List (κ × α)} {p : κ × α} (h : p ∈ (ofList pairs).rows) :
    p ∈ pairs := by
  induction pairs using List.reverseRecOn with
  | nil => exact h
  | append_singleton pairs q ih =>
    unfold ofList at h ih
    rw [List.foldl_append] at h
    rcases eq_or_mem_of_mem_putRow h with rfl | h
    · exact List.mem_append_right _ (List.mem_singleton_self _)
    · exact List.mem_append_left _ (ih h)

/-- A row under a key that no other row has is found under it. -/
theorem get?_ofList_of_mem {pairs : List (κ × α)} {key : κ} {value : α}
    (hnodup : (pairs.map Prod.fst).Nodup) (h : (key, value) ∈ pairs) :
    (ofList pairs).get? key = some value := by
  induction pairs using List.reverseRecOn with
  | nil => cases h
  | append_singleton pairs q ih =>
    rw [List.map_append, List.nodup_append] at hnodup
    obtain ⟨hpairs, -, hlast⟩ := hnodup
    unfold ofList at ih ⊢
    rw [List.foldl_append]
    rcases List.mem_append.mp h with h | h
    · have hne : key ≠ q.1 := hlast key (List.mem_map_of_mem h) q.1 (by simp)
      exact (get?_put_of_ne hne _ _).trans (ih hpairs h)
    · obtain rfl := List.mem_singleton.mp h
      exact get?_put_self _ _ _

/-- With every key once, a row is looked up as in the list. -/
theorem get?_ofList_eq_lookup {pairs : List (κ × α)} (hnodup : (pairs.map Prod.fst).Nodup)
    (key : κ) : (ofList pairs).get? key = pairs.lookup key := by
  refine Option.ext fun value => ⟨fun h => ?_, fun h => get?_ofList_of_mem hnodup (mem_of_lookup h)⟩
  exact lookup_of_mem hnodup (mem_of_mem_ofList (mem_rows_iff.mpr h))

/-- The table of ascending rows has these rows. -/
theorem Ascending.rows_ofList {rows : List (κ × α)} (h : Ascending rows) :
    (ofList rows).rows = rows :=
  (ofList rows).ascending.eq_of_lookup h (get?_ofList_eq_lookup h.nodup_keys)

theorem ofList_rows (m : OrdMap κ α) : ofList m.rows = m :=
  eq_of_get? fun key => congrArg (List.lookup key) m.ascending.rows_ofList

end Storing

/-! ## Storing many rows -/

/-- Store every row under its key. -/
def putRows (key : α → κ) (rows : List α) (m : OrdMap κ α) : OrdMap κ α :=
  rows.foldl (fun m row => m.put (key row) row) m

variable [DecidableEq κ]

theorem get?_putRows_of_not_mem {key : α → κ} {rows : List α} {k : κ} (h : k ∉ rows.map key)
    (m : OrdMap κ α) : (putRows key rows m).get? k = m.get? k := by
  induction rows generalizing m with
  | nil => rfl
  | cons row rest ih =>
    rw [List.map_cons, List.mem_cons, not_or] at h
    exact (ih h.2 (m.put (key row) row)).trans (get?_put_of_ne h.1 row m)

/-- Where no two rows share a key, each is found under its own. -/
theorem get?_putRows_of_mem {key : α → κ} {rows : List α} (hnodup : (rows.map key).Nodup)
    {row : α} (h : row ∈ rows) (m : OrdMap κ α) :
    (putRows key rows m).get? (key row) = some row := by
  induction rows generalizing m with
  | nil => cases h
  | cons first rest ih =>
    obtain ⟨hfirst, hrest⟩ := List.nodup_cons.mp hnodup
    rcases List.mem_cons.mp h with rfl | h
    · exact (get?_putRows_of_not_mem hfirst _).trans (get?_put_self _ _ _)
    · exact ih hrest h (m.put (key first) first)

theorem forall_get?_putRows {P : κ → α → Prop} {key : α → κ} {rows : List α} {m : OrdMap κ α}
    (hold : ∀ k a, m.get? k = some a → P k a) (hnew : ∀ row ∈ rows, P (key row) row) :
    ∀ k a, (putRows key rows m).get? k = some a → P k a := by
  induction rows generalizing m with
  | nil => exact hold
  | cons row rest ih =>
    obtain ⟨hrow, hrest⟩ := List.forall_mem_cons.mp hnew
    exact ih (forall_get?_put hold hrow) hrest

/-- Rows under keys that are new, each its own, are added to those that are there. -/
theorem perm_putRows {key : α → κ} {rows : List α} (hnodup : (rows.map key).Nodup)
    {m : OrdMap κ α} (hnew : ∀ row ∈ rows, m.get? (key row) = none) :
    (putRows key rows m).rows.Perm (rows.map (fun row => (key row, row)) ++ m.rows) := by
  induction rows generalizing m with
  | nil => exact .refl _
  | cons row rest ih =>
    obtain ⟨hrow, hrest⟩ := List.nodup_cons.mp hnodup
    have hrows := ih hrest (m := m.put (key row) row) fun other hother => by
      have hne : key other ≠ key row := fun heq => hrow (heq ▸ List.mem_map_of_mem hother)
      rw [get?_put_of_ne hne]
      exact hnew other (List.mem_cons_of_mem _ hother)
    refine hrows.trans ?_
    have hput := perm_put row (hnew row List.mem_cons_self)
    exact (hput.append_left _).trans List.perm_middle

theorem Keeps.putRows_new {β : Type} {view : α → β} {key : α → κ} {rows : List α}
    {m : OrdMap κ α} (hnew : ∀ row ∈ rows, m.get? (key row) = none) :
    Keeps view m (putRows key rows m) := by
  intro k row hrow
  refine ⟨row, ?_, rfl⟩
  rw [get?_putRows_of_not_mem, hrow]
  intro hk
  obtain ⟨other, hother, rfl⟩ := List.mem_map.mp hk
  cases (hnew other hother).symm.trans hrow

end DoubleEntry.OrdMap
