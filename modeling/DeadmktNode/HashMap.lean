/-
# Hash maps

A hash map is an association list with pairwise distinct keys (`AList`).  The
order of its entries is the order in which the map is iterated: a statement that
has to hold for every iteration order quantifies over the permutations of the
entries.  This file adds the operations of a mutable map that `AList` lacks
(`values`, `upsert`, `modify`, `retain`, `mapValues`) with their lookup laws, the
sum of a measure over the stored values, and the invariant of two structures that
hold the same keys (`Mirrors`).
-/
import Mathlib.Data.List.AList
import Mathlib.Algebra.BigOperators.Group.List.Basic
import Mathlib.Algebra.GroupWithZero.Nat

open List

/-- A map from `κ` to `ν`. -/
abbrev HashMap (κ : Type*) (ν : Type*) := AList (fun _ : κ => ν)

namespace AList

variable {κ ν μ : Type*}

/-! ## Values -/

/-- The stored values, in iteration order. -/
def values (m : HashMap κ ν) : List ν := m.entries.map Sigma.snd

/-- The sum of `f` over the stored values. -/
def sumValues (m : HashMap κ ν) (f : ν → ℕ) : ℕ := (m.values.map f).sum

@[simp] theorem values_empty : (∅ : HashMap κ ν).values = [] := rfl

@[simp] theorem sumValues_empty (f : ν → ℕ) : (∅ : HashMap κ ν).sumValues f = 0 := rfl

variable [DecidableEq κ]

/-- A value is stored exactly when some key is bound to it. -/
theorem mem_values {m : HashMap κ ν} {v : ν} : v ∈ m.values ↔ ∃ k, m.lookup k = some v := by
  unfold values
  constructor
  · intro h
    obtain ⟨⟨k, w⟩, hmem, rfl⟩ := List.mem_map.mp h
    exact ⟨k, mem_lookup_iff.mpr hmem⟩
  · rintro ⟨k, hk⟩
    exact List.mem_map.mpr ⟨⟨k, v⟩, mem_lookup_iff.mp hk, rfl⟩

omit [DecidableEq κ] in
/-- Two maps with the same entries in another order have the same values in
another order. -/
theorem values_perm {m m' : HashMap κ ν} (h : m.entries ~ m'.entries) :
    m.values ~ m'.values := by
  unfold values
  exact h.map _

/-- Maps that agree on every key have the same entries, up to their order. -/
theorem entries_perm_of_lookup_eq {m m' : HashMap κ ν}
    (h : ∀ k, m.lookup k = m'.lookup k) : m.entries ~ m'.entries := by
  refine (List.perm_ext_iff_of_nodup m.nodupKeys.nodup m'.nodupKeys.nodup).mpr ?_
  rintro ⟨k, v⟩
  rw [← mem_lookup_iff, ← mem_lookup_iff, h k]

/-- Inserting a fresh key puts its value in front. -/
theorem values_insert_of_notMem {m : HashMap κ ν} {k : κ} (h : k ∉ m) (v : ν) :
    (m.insert k v).values = v :: m.values := by
  unfold values
  rw [entries_insert_of_notMem h]
  rfl

/-- The values of a map are those of one binding and those of the rest. -/
theorem values_perm_cons_erase {m : HashMap κ ν} {k : κ} {v : ν} (h : m.lookup k = some v) :
    m.values ~ v :: (m.erase k).values := by
  have hk : k ∉ m.erase k := by rw [mem_erase]; rintro ⟨hne, -⟩; exact hne rfl
  have hm : m.entries ~ ((m.erase k).insert k v).entries := by
    refine entries_perm_of_lookup_eq ?_
    intro j
    by_cases hj : j = k
    · subst hj; rw [h, lookup_insert]
    · rw [lookup_insert_ne hj, lookup_erase_ne hj]
  have := values_perm hm
  rwa [values_insert_of_notMem hk] at this

/-! ## Updating one entry -/

/-- Replace the value of `k` by `f` of it; nothing happens when `k` is unbound. -/
def modify (m : HashMap κ ν) (k : κ) (f : ν → ν) : HashMap κ ν :=
  match m.lookup k with
  | some v => m.insert k (f v)
  | none => m

/-- Replace the value of `k` by `f` of it, starting from `d` when `k` is unbound
(`entry(k).or_insert(d)` followed by a mutation). -/
def upsert (m : HashMap κ ν) (k : κ) (d : ν) (f : ν → ν) : HashMap κ ν :=
  m.insert k (f ((m.lookup k).getD d))

/-- The value found under `j` after an insertion at `k`. -/
theorem lookup_insert_ite (m : HashMap κ ν) (j k : κ) (v : ν) :
    (m.insert k v).lookup j = if j = k then some v else m.lookup j := by
  split_ifs with h
  · rw [h]
    exact lookup_insert _
  · exact lookup_insert_ne h

@[simp] theorem lookup_modify (m : HashMap κ ν) (k : κ) (f : ν → ν) :
    (m.modify k f).lookup k = (m.lookup k).map f := by
  unfold modify
  cases h : m.lookup k with
  | none => simp [h]
  | some v => simp

theorem lookup_modify_ne (m : HashMap κ ν) {j k : κ} (f : ν → ν) (h : j ≠ k) :
    (m.modify k f).lookup j = m.lookup j := by
  unfold modify
  cases m.lookup k with
  | none => rfl
  | some v => exact lookup_insert_ne h

@[simp] theorem lookup_upsert (m : HashMap κ ν) (k : κ) (d : ν) (f : ν → ν) :
    (m.upsert k d f).lookup k = some (f ((m.lookup k).getD d)) :=
  lookup_insert _

theorem lookup_upsert_ne (m : HashMap κ ν) {j k : κ} (d : ν) (f : ν → ν) (h : j ≠ k) :
    (m.upsert k d f).lookup j = m.lookup j :=
  lookup_insert_ne h

/-- The value found under `j` after an update at `k`, when unbound keys read `d`. -/
theorem getD_lookup_upsert (m : HashMap κ ν) (j k : κ) (d : ν) (f : ν → ν) :
    ((m.upsert k d f).lookup j).getD d
      = if j = k then f ((m.lookup k).getD d) else (m.lookup j).getD d := by
  by_cases h : j = k
  · subst h; simp
  · rw [lookup_upsert_ne _ _ _ h, if_neg h]

/-- A map filled from a list of keys. -/
theorem lookup_foldl_insert (f : κ → ν) (ks : List κ) (m : HashMap κ ν) (j : κ) :
    (ks.foldl (fun m k => m.insert k (f k)) m).lookup j
      = if j ∈ ks then some (f j) else m.lookup j := by
  induction ks generalizing m with
  | nil => simp
  | cons k ks ih =>
      rw [List.foldl_cons, ih]
      by_cases hks : j ∈ ks
      · rw [if_pos hks, if_pos (List.mem_cons_of_mem k hks)]
      · rw [if_neg hks]
        by_cases hj : j = k
        · subst hj
          rw [lookup_insert, if_pos List.mem_cons_self]
        · rw [lookup_insert_ne hj, if_neg (by simp [hj, hks])]

/-! ## Updating every entry -/

/-- Keep the entries that satisfy `p`. -/
def retain (m : HashMap κ ν) (p : κ → ν → Bool) : HashMap κ ν where
  entries := m.entries.filter (fun e => p e.1 e.2)
  nodupKeys := m.nodupKeys.sublist List.filter_sublist

/-- Apply `f` to every stored value. -/
def mapValues (m : HashMap κ ν) (f : ν → μ) : HashMap κ μ where
  entries := m.entries.map (fun e => ⟨e.1, f e.2⟩)
  nodupKeys := by
    have h : (m.entries.map (fun e => (⟨e.1, f e.2⟩ : Sigma fun _ : κ => μ))).keys = m.keys := by
      simp [List.keys, AList.keys, List.map_map, Function.comp_def]
    unfold List.NodupKeys
    rw [h]
    exact m.keys_nodup

/-- A key survives `retain` with its value exactly when the entry satisfies `p`. -/
theorem lookup_retain (m : HashMap κ ν) (p : κ → ν → Bool) (k : κ) :
    (m.retain p).lookup k = (m.lookup k).filter (p k) := by
  apply Option.ext
  intro v
  rw [Option.mem_def.symm, mem_lookup_iff]
  simp only [retain, List.mem_filter]
  rw [← mem_lookup_iff]
  simp [Option.filter_eq_some_iff]

@[simp] theorem lookup_mapValues (m : HashMap κ ν) (f : ν → μ) (k : κ) :
    (m.mapValues f).lookup k = (m.lookup k).map f := by
  apply Option.ext
  intro w
  rw [Option.mem_def.symm, mem_lookup_iff]
  simp only [mapValues, List.mem_map, Option.map_eq_some_iff]
  constructor
  · rintro ⟨⟨j, v⟩, hmem, heq⟩
    obtain ⟨rfl, hf⟩ := Sigma.mk.inj heq
    exact ⟨v, mem_lookup_iff.mpr hmem, eq_of_heq hf⟩
  · rintro ⟨v, hv, rfl⟩
    exact ⟨⟨k, v⟩, mem_lookup_iff.mp hv, rfl⟩

omit [DecidableEq κ] in
/-- `mapValues` keeps the keys, in their order. -/
@[simp] theorem keys_mapValues (m : HashMap κ ν) (f : ν → μ) :
    (m.mapValues f).keys = m.keys := by
  simp [mapValues, AList.keys, List.keys, List.map_map, Function.comp_def]

/-! ## Sums over the values -/

/-- Inserting a fresh key adds its measure. -/
theorem sumValues_insert_of_notMem {m : HashMap κ ν} {k : κ} (h : k ∉ m) (v : ν) (f : ν → ℕ) :
    (m.insert k v).sumValues f = f v + m.sumValues f := by
  unfold sumValues
  rw [values_insert_of_notMem h, List.map_cons, List.sum_cons]

/-- Erasing a bound key takes its measure away. -/
theorem sumValues_erase {m : HashMap κ ν} {k : κ} {v : ν} (h : m.lookup k = some v)
    (f : ν → ℕ) : m.sumValues f = f v + (m.erase k).sumValues f := by
  unfold sumValues
  rw [((values_perm_cons_erase h).map f).sum_eq, List.map_cons, List.sum_cons]

/-- A measure that is bounded by another one key by key is bounded by it in sum. -/
theorem sumValues_le_of_lookup {m : HashMap κ ν} {m' : HashMap κ μ} {f : ν → ℕ} {g : μ → ℕ}
    (h : ∀ k v, m.lookup k = some v → f v = 0 ∨ ∃ w, m'.lookup k = some w ∧ f v ≤ g w) :
    m.sumValues f ≤ m'.sumValues g := by
  induction m using AList.insertRec generalizing m' with
  | H0 => exact Nat.zero_le _
  | IH k v m hk ih =>
      rw [sumValues_insert_of_notMem hk]
      have hrest : ∀ j w, m.lookup j = some w → (AList.insert k v m).lookup j = some w := by
        intro j w hj
        have hjk : j ≠ k := by
          rintro rfl
          exact hk (AList.lookup_isSome.mp (by rw [hj]; rfl))
        rwa [lookup_insert_ne hjk]
      rcases h k v (lookup_insert m) with hzero | ⟨w, hw, hle⟩
      · rw [hzero, Nat.zero_add]
        exact ih fun j x hj => h j x (hrest j x hj)
      · rw [sumValues_erase hw g]
        refine Nat.add_le_add hle (ih fun j x hj => ?_)
        have hjk : j ≠ k := by
          rintro rfl
          exact hk (AList.lookup_isSome.mp (by rw [hj]; rfl))
        rw [lookup_erase_ne hjk]
        exact h j x (hrest j x hj)

/-! ## Maps mirrored by a family of maps -/

section

variable {τ : Type*} {index : HashMap κ ν} {parts : τ → HashMap κ μ} {place : κ → τ}

/-- The keys of `index` are the keys of the family `parts`, and a key is found in the part
that `place` gives it and in no other. -/
def Mirrors (index : HashMap κ ν) (parts : τ → HashMap κ μ) (place : κ → τ) : Prop :=
  ∀ k t, ((parts t).lookup k).isSome ↔ (index.lookup k).isSome ∧ t = place k

theorem isSome_lookup_insert (m : HashMap κ ν) (k j : κ) (v : ν) :
    ((m.insert k v).lookup j).isSome ↔ j = k ∨ (m.lookup j).isSome := by
  by_cases hj : j = k
  · subst hj
    simp
  · rw [lookup_insert_ne hj]
    simp [hj]

theorem isSome_lookup_erase (m : HashMap κ ν) (k j : κ) :
    ((m.erase k).lookup j).isSome ↔ j ≠ k ∧ (m.lookup j).isSome := by
  by_cases hj : j = k
  · subst hj
    simp
  · rw [lookup_erase_ne hj]
    simp [hj]

/-- A key is in the index exactly when it is in some part. -/
theorem Mirrors.isSome_iff (h : Mirrors index parts place) (k : κ) :
    (index.lookup k).isSome ↔ ∃ t, ((parts t).lookup k).isSome := by
  constructor
  · intro hk
    exact ⟨place k, (h k (place k)).mpr ⟨hk, rfl⟩⟩
  · rintro ⟨t, ht⟩
    exact ((h k t).mp ht).1

/-- A key of the index is in exactly one part. -/
theorem Mirrors.existsUnique (h : Mirrors index parts place) {k : κ}
    (hk : (index.lookup k).isSome) : ∃! t, ((parts t).lookup k).isSome := by
  refine ⟨place k, (h k (place k)).mpr ⟨hk, rfl⟩, ?_⟩
  intro t ht
  exact ((h k t).mp ht).2

/-- A key that enters the index and the part of its place. -/
theorem Mirrors.insert {parts' : τ → HashMap κ μ} {k : κ} (h : Mirrors index parts place) (v : ν)
    (w : μ) [∀ t, Decidable (t = place k)]
    (hparts : ∀ t, parts' t = if t = place k then (parts t).insert k w else parts t) :
    Mirrors (index.insert k v) parts' place := by
  intro j t
  rw [hparts t, isSome_lookup_insert]
  by_cases hj : j = k
  · subst hj
    split_ifs with ht
    · rw [isSome_lookup_insert]
      simp [ht]
    · simp only [true_or, true_and, ht, iff_false]
      intro hmem
      exact ht ((h j t).mp hmem).2
  · have hsame : ((if t = place k then (parts t).insert k w else parts t).lookup j).isSome
        ↔ ((parts t).lookup j).isSome := by
      split_ifs
      · rw [isSome_lookup_insert, or_iff_right hj]
      · exact Iff.rfl
    rw [hsame, h j t, or_iff_right hj]

/-- A key that leaves the index and every part. -/
theorem Mirrors.erase (h : Mirrors index parts place) (k : κ) :
    Mirrors (index.erase k) (fun t => (parts t).erase k) place := by
  intro j t
  rw [isSome_lookup_erase, isSome_lookup_erase, h j t, and_assoc]

/-- Only the keys count. -/
theorem Mirrors.congr {index' : HashMap κ ν} {parts' : τ → HashMap κ μ}
    (h : Mirrors index parts place)
    (hindex : ∀ k, (index'.lookup k).isSome ↔ (index.lookup k).isSome)
    (hparts : ∀ t, parts' t = parts t) : Mirrors index' parts' place := by
  intro j t
  rw [hparts, hindex]
  exact h j t

end

end AList

/-! ## Maps keyed by a field of the value -/

/-- A map in which every value is stored under its own key. -/
structure KeyedMap (κ ν : Type*) [DecidableEq κ] (key : ν → κ) where
  map : HashMap κ ν
  keyed : ∀ k v, map.lookup k = some v → key v = k

namespace KeyedMap

variable {κ ν : Type*} [DecidableEq κ] {key : ν → κ}

/-- The map without values. -/
def empty : KeyedMap κ ν key := ⟨∅, by simp⟩

/-- Store a value under its key, replacing the value that was there. -/
def insert (m : KeyedMap κ ν key) (v : ν) : KeyedMap κ ν key where
  map := m.map.insert (key v) v
  keyed := by
    intro k w h
    by_cases hk : k = key v
    · subst hk
      rw [AList.lookup_insert] at h
      rw [Option.some.inj h]
    · rw [AList.lookup_insert_ne hk] at h
      exact m.keyed k w h

/-- The map of the values of a list; a later value replaces an earlier one. -/
def ofList (vs : List ν) : KeyedMap κ ν key := vs.foldl insert empty

/-- The values of a keyed map have pairwise distinct keys. -/
theorem nodup_map_key_values (m : KeyedMap κ ν key) : (m.map.values.map key).Nodup := by
  have h : m.map.values.map key = m.map.keys := by
    unfold AList.values AList.keys List.keys
    rw [List.map_map]
    refine List.map_congr_left ?_
    rintro ⟨k, v⟩ he
    exact m.keyed k v (AList.mem_lookup_iff.mpr he)
  rw [h]
  exact m.map.keys_nodup

/-- Two keyed maps with the same values, as sets, have the same values in another
order. -/
theorem values_perm_of_mem_iff {m m' : KeyedMap κ ν key}
    (h : ∀ v, v ∈ m.map.values ↔ v ∈ m'.map.values) : m.map.values ~ m'.map.values := by
  refine (List.perm_ext_iff_of_nodup ?_ ?_).mpr h
  · exact m.nodup_map_key_values.of_map key
  · exact m'.nodup_map_key_values.of_map key

end KeyedMap
