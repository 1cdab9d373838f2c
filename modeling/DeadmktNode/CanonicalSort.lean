/-
# Sorting by a comparator

`sortBy cmp` is a stable sort by a comparator (Rust's `slice::sort_by`).  When the
comparator is transitive and oriented and the elements that it calls equal are
equal, the sorted list depends only on the multiset of the elements: every
permutation of the input gives the same output (`sortBy_eq_of_perm`).  Groups that are
concatenated in the order of their keys depend on the keys only where they are not empty
(`flatMap_eq_of_support`).
-/
import Mathlib.Data.List.Sort
import Mathlib.Data.List.Perm.Basic

open List

/-- Stable sort of `l` by the comparator `cmp`. -/
def sortBy {α : Type*} (cmp : α → α → Ordering) (l : List α) : List α :=
  l.insertionSort (fun a b => (cmp a b).isLE = true)

section

variable {α : Type*} (cmp : α → α → Ordering)

/-- Sorting permutes the list. -/
theorem sortBy_perm (l : List α) : sortBy cmp l ~ l := List.perm_insertionSort _ l

@[simp] theorem mem_sortBy {l : List α} {a : α} : a ∈ sortBy cmp l ↔ a ∈ l :=
  (sortBy_perm cmp l).mem_iff

@[simp] theorem sortBy_nil : sortBy cmp [] = [] := by simp [sortBy]

@[simp] theorem sortBy_singleton (a : α) : sortBy cmp [a] = [a] := by simp [sortBy]

variable [Std.TransCmp cmp]

/-- The sorted list is increasing. -/
theorem pairwise_sortBy (l : List α) :
    (sortBy cmp l).Pairwise (fun a b => (cmp a b).isLE) := by
  have htotal : Std.Total (fun a b => (cmp a b).isLE = true) := by
    refine ⟨fun a b => ?_⟩
    rw [@Std.OrientedCmp.eq_swap _ cmp _ b a]
    cases cmp a b <;> simp [Ordering.swap]
  have htrans : IsTrans α (fun a b => (cmp a b).isLE = true) :=
    ⟨fun _ _ _ hab hbc => Std.TransCmp.isLE_trans hab hbc⟩
  exact List.pairwise_insertionSort _ l

/-- **Sorting is canonical.**  If elements of `l` that compare equal are equal,
then every permutation of `l` sorts to the same list. -/
theorem sortBy_eq_of_perm {l l' : List α} (h : l ~ l')
    (hties : ∀ a ∈ l, ∀ b ∈ l, cmp a b = .eq → a = b) : sortBy cmp l = sortBy cmp l' := by
  have hperm : sortBy cmp l ~ sortBy cmp l' :=
    (sortBy_perm cmp l).trans (h.trans (sortBy_perm cmp l').symm)
  refine List.Perm.eq_of_pairwise ?_ (pairwise_sortBy cmp l) (pairwise_sortBy cmp l') hperm
  intro a b ha hb hab hba
  rw [mem_sortBy] at ha hb
  refine hties a ha b (h.mem_iff.mpr hb) ?_
  rw [@Std.OrientedCmp.eq_swap _ cmp] at hba
  revert hab hba
  cases cmp a b <;> simp [Ordering.swap]

/-- Distinct elements, of which no two compare equal, are sorted strictly. -/
theorem pairwise_lt_sortBy {l : List α} (hnodup : l.Nodup)
    (hties : ∀ a b, cmp a b = .eq → a = b) :
    (sortBy cmp l).Pairwise (fun a b => cmp a b = .lt) := by
  have hne := (sortBy_perm cmp l).nodup_iff.mpr hnodup
  refine (hne.and (pairwise_sortBy cmp l)).imp ?_
  rintro a b ⟨hab, hle⟩
  rw [Ordering.isLE_iff_eq_lt_or_eq_eq] at hle
  exact hle.resolve_right fun heq => hab (hties a b heq)

/-- Strictly increasing lists with the same elements are equal. -/
theorem eq_of_pairwise_lt {l l' : List α} (hl : l.Pairwise (fun a b => cmp a b = .lt))
    (hl' : l'.Pairwise (fun a b => cmp a b = .lt)) (h : ∀ a, a ∈ l ↔ a ∈ l') : l = l' := by
  have hirrefl : ∀ {l : List α}, l.Pairwise (fun a b => cmp a b = .lt) → l.Nodup := by
    intro l hl
    refine hl.imp ?_
    rintro a b hab rfl
    have hself : cmp a a = .eq := Std.ReflCmp.compare_self
    rw [hself] at hab
    cases hab
  refine List.Perm.eq_of_pairwise ?_ hl hl'
    ((List.perm_ext_iff_of_nodup (hirrefl hl) (hirrefl hl')).mpr h)
  intro a b _ _ hab hba
  rw [@Std.OrientedCmp.eq_swap _ cmp, hab] at hba
  cases hba

/-- Elements that contribute nothing can be left out of a concatenation. -/
theorem flatMap_filter_ne_nil {β : Type*} (f : α → List β) (l : List α) :
    (l.filter fun a => !(f a).isEmpty).flatMap f = l.flatMap f := by
  induction l with
  | nil => rfl
  | cons a l ih =>
      rw [List.flatMap_cons, List.filter_cons]
      by_cases h : f a = []
      · simp [h, ih]
      · simp [h, ih]

/-- **Groups in order.**  Concatenated along a strictly increasing list of keys, groups depend
on the list only where they are not empty. -/
theorem flatMap_eq_of_support {β : Type*} {f : α → List β} {l l' : List α}
    (hl : l.Pairwise (fun a b => cmp a b = .lt)) (hl' : l'.Pairwise (fun a b => cmp a b = .lt))
    (h : ∀ a, a ∉ l → f a = []) (h' : ∀ a, a ∉ l' → f a = []) : l.flatMap f = l'.flatMap f := by
  rw [← flatMap_filter_ne_nil f l, ← flatMap_filter_ne_nil f l']
  congr 1
  refine eq_of_pairwise_lt cmp (hl.filter _) (hl'.filter _) ?_
  intro a
  simp only [List.mem_filter, Bool.not_eq_true', List.isEmpty_eq_false_iff]
  refine and_congr_left fun hne => iff_of_true ?_ ?_
  · by_contra ha
    exact hne (h a ha)
  · by_contra ha
    exact hne (h' a ha)

end
