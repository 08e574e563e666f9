import DoubleEntry.Proofs.Results
import DoubleEntry.Proofs.Tables

/-!
# Folding elements into a table

`gather` folds an element into the value under its key. Folding a whole list that way treats each
key on its own: what ends up under a key is the fold of the elements of that key, in their order
(`foldlM_under_of_gather`), and the table exists as soon as each of these folds does
(`exists_gather`). Balance checks and balance deltas are both made like this. A symmetry of the
values that the elements of two lists respect one by one is one of the tables
(`foldlM_gather_mapValues`).
-/

namespace DoubleEntry.OrdMap

variable {ε κ α β ι : Type}

/-! ## Elements of a key -/

section Under

variable [DecidableEq κ] {key : ι → κ}

/-- The elements of a key, in their order. -/
def under (key : ι → κ) (k : κ) (is : List ι) : List ι := is.filter fun i => key i = k

theorem under_cons_of_eq {i : ι} {k : κ} (h : key i = k) (is : List ι) :
    under key k (i :: is) = i :: under key k is :=
  List.filter_cons_of_pos (decide_eq_true h)

theorem under_cons_of_ne {i : ι} {k : κ} (h : key i ≠ k) (is : List ι) :
    under key k (i :: is) = under key k is :=
  List.filter_cons_of_neg (by simpa using h)

theorem under_eq_nil_iff {k : κ} {is : List ι} : under key k is = [] ↔ k ∉ is.map key := by
  unfold under
  rw [List.filter_eq_nil_iff]
  simp

end Under

/-! ## Values mapped -/

section Mapped

variable [Ord κ]

theorem Ascending.mapValues {rows : List (κ × α)} (h : Ascending rows) (f : α → β) :
    Ascending (rows.map fun p => (p.1, f p.2)) :=
  List.pairwise_map.mpr h

/-- A table with its values mapped. -/
def mapValues (f : α → β) (m : OrdMap κ α) : OrdMap κ β :=
  ⟨m.rows.map fun p => (p.1, f p.2), m.ascending.mapValues f⟩

theorem values_mapValues (f : α → β) (m : OrdMap κ α) :
    (mapValues f m).values = m.values.map f := by
  unfold values mapValues
  rw [List.map_map, List.map_map]
  rfl

variable [DecidableEq κ]

theorem get?_mapValues (f : α → β) (m : OrdMap κ α) (k : κ) :
    (mapValues f m).get? k = (m.get? k).map f := by
  show (m.rows.map fun p => (p.1, f p.2)).lookup k = (m.rows.lookup k).map f
  induction m.rows with
  | nil => rfl
  | cons p rest ih =>
    rw [List.map_cons, List.lookup_cons, List.lookup_cons, ih]
    split <;> rfl

theorem put_mapValues [Std.TransOrd κ] [Std.LawfulEqOrd κ] (f : α → β) (m : OrdMap κ α) (k : κ)
    (a : α) : (mapValues f m).put k (f a) = mapValues f (m.put k a) := by
  refine eq_of_get? fun other => ?_
  rw [get?_put, get?_mapValues, get?_mapValues, get?_put]
  split <;> rfl

end Mapped

/-! ## Gathering -/

variable [Ord κ] [DecidableEq κ] {key : ι → κ} {start : κ → α} {step : α → ι → Except ε α}

/-- The value under a key, or what a key starts with. -/
def valueAt (start : κ → α) (m : OrdMap κ α) (k : κ) : α := (m.get? k).getD (start k)

theorem valueAt_of_get? {m : OrdMap κ α} {k : κ} {a : α} (h : m.get? k = some a) :
    valueAt start m k = a := by
  unfold valueAt
  rw [h]
  rfl

variable [Std.TransOrd κ] [Std.LawfulEqOrd κ]

/-- Fold an element into the value under its key. -/
def gather (key : ι → κ) (start : κ → α) (step : α → ι → Except ε α) (m : OrdMap κ α) (i : ι) :
    Except ε (OrdMap κ α) :=
  (step (valueAt start m (key i)) i).map fun a => m.put (key i) a

theorem valueAt_put (m : OrdMap κ α) (k other : κ) (a : α) :
    valueAt start (m.put k a) other = if other = k then a else valueAt start m other := by
  unfold valueAt
  rw [get?_put]
  split <;> rfl

theorem foldlM_under_of_gather {is : List ι} {m m' : OrdMap κ α}
    (h : is.foldlM (gather key start step) m = .ok m') (k : κ) :
    (under key k is).foldlM step (valueAt start m k) = .ok (valueAt start m' k) := by
  induction is generalizing m with
  | nil =>
    cases h
    rfl
  | cons i is ih =>
    rw [List.foldlM_cons] at h
    obtain ⟨m₁, hstep, h⟩ := bind_eq_ok.mp h
    obtain ⟨a, ha, rfl⟩ := map_eq_ok.mp hstep
    have hrest := ih h
    rw [valueAt_put] at hrest
    by_cases hk : key i = k
    · subst hk
      rw [if_pos rfl] at hrest
      rw [under_cons_of_eq rfl, List.foldlM_cons, ha]
      exact hrest
    · rw [if_neg (Ne.symm hk)] at hrest
      rwa [under_cons_of_ne hk]

theorem mem_keys_gather {is : List ι} {m m' : OrdMap κ α}
    (h : is.foldlM (gather key start step) m = .ok m') {k : κ} :
    k ∈ m'.keys ↔ k ∈ is.map key ∨ k ∈ m.keys := by
  induction is generalizing m with
  | nil =>
    cases h
    simp
  | cons i is ih =>
    rw [List.foldlM_cons] at h
    obtain ⟨m₁, hstep, h⟩ := bind_eq_ok.mp h
    obtain ⟨a, -, rfl⟩ := map_eq_ok.mp hstep
    rw [ih h, mem_keys_put, List.map_cons, List.mem_cons]
    tauto

theorem exists_gather {is : List ι} {m : OrdMap κ α}
    (h : ∀ k, ∃ a, (under key k is).foldlM step (valueAt start m k) = .ok a) :
    ∃ m', is.foldlM (gather key start step) m = .ok m' := by
  induction is generalizing m with
  | nil => exact ⟨m, rfl⟩
  | cons i is ih =>
    obtain ⟨b, hb⟩ := h (key i)
    rw [under_cons_of_eq rfl, List.foldlM_cons] at hb
    obtain ⟨a, ha, hb⟩ := bind_eq_ok.mp hb
    have hrest : ∀ k, ∃ c, (under key k is).foldlM step
        (valueAt start (m.put (key i) a) k) = .ok c := by
      intro k
      rw [valueAt_put]
      by_cases hk : key i = k
      · subst hk
        rw [if_pos rfl]
        exact ⟨b, hb⟩
      · rw [if_neg (Ne.symm hk)]
        have hother := h k
        rwa [under_cons_of_ne hk] at hother
    obtain ⟨m', hm'⟩ := ih hrest
    refine ⟨m', ?_⟩
    rw [List.foldlM_cons]
    exact bind_eq_ok.mpr ⟨m.put (key i) a, map_eq_ok.mpr ⟨a, ha, rfl⟩, hm'⟩

/-- Where elements do to mapped values what others do to the values themselves, the table comes out
mapped, or both folds fail alike. -/
theorem foldlM_gather_mapValues {f : α → α} (hstart : ∀ k, f (start k) = start k) {is is' : List ι}
    (h : List.Forall₂ (fun i i' => key i' = key i ∧ ∀ a, step (f a) i' = (step a i).map f) is is')
    (m : OrdMap κ α) :
    is'.foldlM (gather key start step) (mapValues f m) =
      (is.foldlM (gather key start step) m).map (mapValues f) := by
  induction h generalizing m with
  | nil => rfl
  | @cons i i' _ _ hi _ ih =>
    obtain ⟨hkey, hstep⟩ := hi
    have hvalue : valueAt start (mapValues f m) (key i) = f (valueAt start m (key i)) := by
      unfold valueAt
      rw [get?_mapValues]
      cases m.get? (key i) with
      | some a => rfl
      | none => exact (hstart _).symm
    have hgather : gather key start step (mapValues f m) i' =
        (gather key start step m i).map (mapValues f) := by
      unfold gather
      rw [hkey, hvalue, hstep]
      cases step (valueAt start m (key i)) i with
      | error e => rfl
      | ok a => exact congrArg Except.ok (put_mapValues f m (key i) a)
    rw [List.foldlM_cons, List.foldlM_cons, hgather]
    cases gather key start step m i with
    | error e => rfl
    | ok m₁ => exact ih m₁

end DoubleEntry.OrdMap
