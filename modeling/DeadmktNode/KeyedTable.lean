/-
# Tables with a primary key

A table is a list of rows, in the order of their insertion, of which no two have the same key.
Inserting a row replaces the one with its key and puts it last; an update changes the row of a
key and leaves its key.  A query gives the rows with a property, in an order.
-/
import Mathlib.Data.List.Nodup

/-- Rows of which no two have the same key. -/
structure KeyedTable {α κ : Type*} (key : α → κ) where
  rows : List α
  nodup : (rows.map key).Nodup

namespace KeyedTable

variable {α κ : Type*} {key : α → κ}

def empty : KeyedTable key where
  rows := []
  nodup := List.nodup_nil

/-- The rows with a property, in an order. -/
def select (t : KeyedTable key) (p : α → Bool) (le : α → α → Bool) : List α :=
  (t.rows.filter p).mergeSort le

variable [DecidableEq κ]

/-- The row of a key. -/
def find? (t : KeyedTable key) (k : κ) : Option α := t.rows.find? (fun r => key r = k)

/-- `INSERT OR REPLACE`. -/
def insertOrReplace (t : KeyedTable key) (r : α) : KeyedTable key where
  rows := t.rows.filter (fun r' => key r' ≠ key r) ++ [r]
  nodup := by
    have hrest : ((t.rows.filter (fun r' => key r' ≠ key r)).map key).Nodup :=
      t.nodup.sublist (List.filter_sublist.map key)
    rw [List.map_append, List.map_singleton, ← List.concat_eq_append]
    refine hrest.concat fun hmem => ?_
    obtain ⟨r', hr', hkey⟩ := List.mem_map.mp hmem
    exact of_decide_eq_true (List.mem_filter.mp hr').2 hkey

/-- `UPDATE` of the row of a key. -/
def update (t : KeyedTable key) (k : κ) (f : α → α) (hf : ∀ r, key (f r) = key r) :
    KeyedTable key where
  rows := t.rows.map (fun r => if key r = k then f r else r)
  nodup := by
    have hkey : (key ∘ fun r => if key r = k then f r else r) = key := by
      funext r
      show key (if key r = k then f r else r) = key r
      split_ifs
      · exact hf r
      · rfl
    rw [List.map_map, hkey]
    exact t.nodup

/-! ## What a table holds -/

section

variable {t : KeyedTable key} {r r' : α} {k k' : κ}

theorem key_of_find? (h : t.find? k = some r) : key r = k := by
  have hfound := List.find?_some (p := fun r => decide (key r = k)) h
  exact of_decide_eq_true hfound

/-- The row of a key is the one row that has it. -/
theorem find?_eq_some_iff : t.find? k = some r ↔ r ∈ t.rows ∧ key r = k := by
  constructor
  · intro h
    exact ⟨List.mem_of_find?_eq_some h, key_of_find? h⟩
  · rintro ⟨hr, rfl⟩
    cases hfind : t.find? (key r) with
    | none => simpa using List.find?_eq_none.mp hfind r hr
    | some r' =>
        rw [List.inj_on_of_nodup_map t.nodup (List.mem_of_find?_eq_some hfind) hr
          (key_of_find? hfind)]

/-- A query gives the rows with the property. -/
theorem mem_select {p : α → Bool} {le : α → α → Bool} :
    r ∈ t.select p le ↔ t.find? (key r) = some r ∧ p r = true := by
  rw [select, List.mem_mergeSort, List.mem_filter, find?_eq_some_iff, and_iff_left rfl]

theorem mem_insertOrReplace :
    r' ∈ (t.insertOrReplace r).rows ↔ r' ∈ t.rows ∧ key r' ≠ key r ∨ r' = r := by
  show r' ∈ t.rows.filter (fun r' => key r' ≠ key r) ++ [r] ↔ _
  rw [List.mem_append, List.mem_filter, List.mem_singleton, decide_eq_true_eq]

/-- An inserted row is the row of its key, -/
theorem find?_insertOrReplace_self : (t.insertOrReplace r).find? (key r) = some r :=
  find?_eq_some_iff.mpr ⟨mem_insertOrReplace.mpr (.inr rfl), rfl⟩

/-- and the other keys keep their rows. -/
theorem find?_insertOrReplace_of_ne (hne : k ≠ key r) :
    (t.insertOrReplace r).find? k = t.find? k := by
  apply Option.ext
  intro r'
  rw [find?_eq_some_iff, find?_eq_some_iff, mem_insertOrReplace]
  constructor
  · rintro ⟨⟨hr', -⟩ | rfl, hkey⟩
    · exact ⟨hr', hkey⟩
    · exact absurd hkey.symm hne
  · rintro ⟨hr', rfl⟩
    exact ⟨.inl ⟨hr', hne⟩, rfl⟩

variable {f : α → α} {hf : ∀ r, key (f r) = key r}

/-- The rows of an updated table are the rows of the old one, updated. -/
theorem find?_update :
    (t.update k f hf).find? k' = (t.find? k').map fun r => if key r = k then f r else r := by
  have hkey : ((fun r => decide (key r = k')) ∘ fun r => if key r = k then f r else r)
      = fun r => decide (key r = k') := by
    funext r
    show decide (key (if key r = k then f r else r) = k') = _
    split_ifs
    · rw [hf]
    · rfl
  show (t.rows.map fun r => if key r = k then f r else r).find? _ = _
  rw [List.find?_map, hkey]
  rfl

/-- An update changes the row of its key, -/
theorem find?_update_self : (t.update k f hf).find? k = (t.find? k).map f := by
  rw [find?_update]
  apply Option.map_congr
  intro r hr
  rw [if_pos (key_of_find? hr)]

/-- and leaves the others alone. -/
theorem find?_update_of_ne (hne : k' ≠ k) : (t.update k f hf).find? k' = t.find? k' := by
  rw [find?_update]
  cases hfind : t.find? k' with
  | none => rfl
  | some r => rw [Option.map_some, if_neg fun hkey => hne ((key_of_find? hfind).symm.trans hkey)]

end

end KeyedTable
