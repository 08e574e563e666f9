/-!
# Tables in the order of their keys

An `OrdMap` holds its rows in ascending order of their keys, so every key once. `put` keeps that
order; a later value replaces an earlier one. A `NameMap` has texts as keys, whose order is also
that of their UTF-8 bytes.
-/

namespace DoubleEntry

open Std

/-! ## Rows -/

namespace OrdMap

variable {κ α : Type} [Ord κ]

/-- Every key is smaller than those behind it. -/
def Ascending (rows : List (κ × α)) : Prop := rows.Pairwise fun p q => compare p.1 q.1 = .lt

/-- The rows with one more, in place of the one under its key. -/
def putRow (key : κ) (value : α) : List (κ × α) → List (κ × α)
  | [] => [(key, value)]
  | (k, v) :: rest =>
    match compare key k with
    | .lt => (key, value) :: (k, v) :: rest
    | .eq => (key, value) :: rest
    | .gt => (k, v) :: putRow key value rest

theorem eq_or_mem_of_mem_putRow {key : κ} {value : α} {rows : List (κ × α)} {p : κ × α}
    (h : p ∈ putRow key value rows) : p = (key, value) ∨ p ∈ rows := by
  induction rows with
  | nil => exact Or.inl (List.mem_singleton.mp h)
  | cons q rest ih =>
    obtain ⟨k, v⟩ := q
    unfold putRow at h
    split at h
    · exact List.mem_cons.mp h
    · rcases List.mem_cons.mp h with rfl | hrest
      · exact Or.inl rfl
      · exact Or.inr (List.mem_cons_of_mem _ hrest)
    · rcases List.mem_cons.mp h with rfl | hrest
      · exact Or.inr List.mem_cons_self
      · exact (ih hrest).imp id (List.mem_cons_of_mem _)

theorem Ascending.nil : Ascending ([] : List (κ × α)) := List.Pairwise.nil

theorem Ascending.filter {rows : List (κ × α)} (h : Ascending rows) (p : κ × α → Bool) :
    Ascending (rows.filter p) :=
  List.Pairwise.filter p h

theorem Ascending.putRow [TransOrd κ] [LawfulEqOrd κ] {rows : List (κ × α)}
    (h : Ascending rows) (key : κ) (value : α) : Ascending (putRow key value rows) := by
  induction rows with
  | nil => exact List.pairwise_singleton _ _
  | cons q rest ih =>
    obtain ⟨k, v⟩ := q
    obtain ⟨hhead, hrest⟩ := List.pairwise_cons.mp h
    unfold OrdMap.putRow
    split
    · next hlt =>
      refine List.pairwise_cons.mpr ⟨fun p hp => ?_, h⟩
      rcases List.mem_cons.mp hp with rfl | hp
      · exact hlt
      · exact TransCmp.lt_trans hlt (hhead p hp)
    · next heq =>
      obtain rfl := LawfulEqOrd.eq_of_compare heq
      exact List.pairwise_cons.mpr ⟨hhead, hrest⟩
    · next hgt =>
      refine List.pairwise_cons.mpr ⟨fun p hp => ?_, ih hrest⟩
      rcases eq_or_mem_of_mem_putRow hp with rfl | hp
      · exact OrientedCmp.lt_of_gt hgt
      · exact hhead p hp

end OrdMap

/-! ## Tables -/

/-- Values under distinct keys in ascending order. -/
structure OrdMap (κ α : Type) [Ord κ] where
  rows : List (κ × α)
  ascending : OrdMap.Ascending rows

/-- Values under distinct names in ascending order. -/
abbrev NameMap (α : Type) := OrdMap String α

namespace OrdMap

variable {κ α : Type} [Ord κ]

instance : EmptyCollection (OrdMap κ α) := ⟨⟨[], .nil⟩⟩

def keys (m : OrdMap κ α) : List κ := m.rows.map Prod.fst

@[simp] theorem keys_empty : (∅ : OrdMap κ α).keys = [] := rfl

/-- The values in the order of their keys. -/
def values (m : OrdMap κ α) : List α := m.rows.map Prod.snd

/-- The rows that a test lets through. -/
def filter (p : κ × α → Bool) (m : OrdMap κ α) : OrdMap κ α :=
  ⟨m.rows.filter p, m.ascending.filter p⟩

@[simp] theorem rows_filter (p : κ × α → Bool) (m : OrdMap κ α) :
    (m.filter p).rows = m.rows.filter p := rfl

section Lookups

variable [BEq κ]

def get? (key : κ) (m : OrdMap κ α) : Option α := m.rows.lookup key

def contains (key : κ) (m : OrdMap κ α) : Bool := (m.get? key).isSome

def erase (key : κ) (m : OrdMap κ α) : OrdMap κ α := m.filter fun p => p.1 != key

end Lookups

variable [TransOrd κ] [LawfulEqOrd κ]

/-- Store a value under a key, replacing an earlier one. -/
def put (key : κ) (value : α) (m : OrdMap κ α) : OrdMap κ α :=
  ⟨putRow key value m.rows, m.ascending.putRow key value⟩

/-- The table of these pairs; of two with one key the later counts. -/
def ofList (pairs : List (κ × α)) : OrdMap κ α :=
  pairs.foldl (fun m p => m.put p.1 p.2) ∅

/-! ## Looking up after storing -/

variable [DecidableEq κ]

theorem get?_put_self (key : κ) (value : α) (m : OrdMap κ α) :
    (m.put key value).get? key = some value := by
  show (putRow key value m.rows).lookup key = some value
  induction m.rows with
  | nil => simp [putRow]
  | cons p rest ih =>
    obtain ⟨k, v⟩ := p
    unfold putRow
    split
    · simp
    · simp
    · next hgt =>
      have hne : (key == k) = false := beq_eq_false_iff_ne.mpr fun heq => by
        simp [heq, ReflCmp.compare_self] at hgt
      rw [List.lookup_cons, hne, ih]

theorem get?_put_of_ne {key other : κ} (h : other ≠ key) (value : α) (m : OrdMap κ α) :
    (m.put key value).get? other = m.get? other := by
  show (putRow key value m.rows).lookup other = m.rows.lookup other
  have hne : (other == key) = false := beq_eq_false_iff_ne.mpr h
  induction m.rows with
  | nil => rw [putRow, List.lookup_cons, hne]
  | cons p rest ih =>
    obtain ⟨k, v⟩ := p
    unfold putRow
    split
    · rw [List.lookup_cons, hne]
    · next heq =>
      obtain rfl := LawfulEqOrd.eq_of_compare heq
      rw [List.lookup_cons, List.lookup_cons, hne]
    · rw [List.lookup_cons, List.lookup_cons, ih]

theorem get?_put (key other : κ) (value : α) (m : OrdMap κ α) :
    (m.put key value).get? other = if other = key then some value else m.get? other := by
  split
  · next h => rw [h, get?_put_self]
  · next h => rw [get?_put_of_ne h]

end OrdMap

end DoubleEntry
