/-
# Delimited text

What stands between the last opening delimiter of a list and the first closing one after it,
and the segments of a list between separators.  A list that is put after another hides the
groups of the first if it has an opening delimiter of its own (`lastGroup_append_of_mem`), and
leaves them as they are if it has no delimiter (`lastGroup_append_of_notMem`).
-/
import Mathlib.Data.List.DropRight

variable {α : Type*} [DecidableEq α] {op cl : α} {l xs ys g : List α}

/-! ## Groups -/

/-- What follows the last separator. -/
theorem rtakeWhile_append_cons_ne (h : op ∉ ys) :
    (xs ++ op :: ys).rtakeWhile (· ≠ op) = ys := by
  induction ys using List.reverseRecOn with
  | nil => exact List.rtakeWhile_concat_neg _ _ _ (by simp)
  | append_singleton ys y ih =>
      rw [List.mem_append, List.mem_singleton, not_or] at h
      rw [← List.cons_append, ← List.append_assoc,
        List.rtakeWhile_concat_pos _ _ _ (by simpa using fun hy => h.2 hy.symm), ih h.1]

omit [DecidableEq α] in
/-- A member has a last occurrence. -/
theorem exists_eq_append_cons_last (h : op ∈ l) : ∃ xs ys, l = xs ++ op :: ys ∧ op ∉ ys := by
  obtain ⟨ys, xs, hsplit, hnot⟩ := List.eq_append_cons_of_mem (List.mem_reverse.mpr h)
  refine ⟨xs.reverse, ys.reverse, ?_, fun hmem => hnot (List.mem_reverse.mp hmem)⟩
  rw [← List.reverse_reverse l, hsplit]
  simp

/-- A character that does not occur differs from all. -/
theorem decide_ne_of_notMem (h : cl ∉ g) : ∀ c ∈ g, decide (c ≠ cl) = true :=
  fun _ hc => decide_eq_true (ne_of_mem_of_not_mem hc h)

/-- What comes before the first separator. -/
theorem takeWhile_append_cons_ne (h : cl ∉ g) :
    (g ++ cl :: ys).takeWhile (· ≠ cl) = g := by
  rw [List.takeWhile_append_of_pos (decide_ne_of_notMem h),
    List.takeWhile_cons_of_neg (by simp), List.append_nil]

/-- What stands between the last opening delimiter and the first closing one after it. -/
def lastGroup (op cl : α) (l : List α) : Option (List α) :=
  if op ∈ l then
    let rest := l.rtakeWhile (· ≠ op)
    if cl ∈ rest then some (rest.takeWhile (· ≠ cl)) else none
  else none

/-- Without an opening mark there is no group. -/
theorem lastGroup_of_notMem (h : op ∉ l) : lastGroup op cl l = none := if_neg h

/-- After the last opening delimiter only the rest matters. -/
theorem lastGroup_append_cons (h : op ∉ ys) :
    lastGroup op cl (xs ++ op :: ys) = if cl ∈ ys then some (ys.takeWhile (· ≠ cl)) else none := by
  rw [lastGroup, if_pos (by simp), rtakeWhile_append_cons_ne h]

/-- **The last group** is what stands between the last opening mark and the first closing one after
it. -/
theorem lastGroup_eq_some_iff :
    lastGroup op cl l = some g ↔
      ∃ before after, l = before ++ op :: (g ++ cl :: after) ∧ cl ∉ g ∧
        op ∉ g ++ cl :: after := by
  constructor
  · intro h
    have hmem : op ∈ l := by
      by_contra hnot
      rw [lastGroup_of_notMem hnot] at h
      cases h
    obtain ⟨before, rest, rfl, hnot⟩ := exists_eq_append_cons_last hmem
    rw [lastGroup_append_cons hnot] at h
    split_ifs at h with hcl
    obtain rfl := Option.some.inj h
    obtain ⟨g, after, rfl, hg⟩ := List.eq_append_cons_of_mem hcl
    rw [takeWhile_append_cons_ne hg]
    exact ⟨before, after, rfl, hg, hnot⟩
  · rintro ⟨before, after, rfl, hg, hnot⟩
    rw [lastGroup_append_cons hnot, if_pos (by simp), takeWhile_append_cons_ne hg]

/-- A list with an opening delimiter hides what stands before it. -/
theorem lastGroup_append_of_mem (h : op ∈ ys) :
    lastGroup op cl (xs ++ ys) = lastGroup op cl ys := by
  obtain ⟨before, rest, rfl, hnot⟩ := exists_eq_append_cons_last h
  rw [← List.append_assoc, lastGroup_append_cons hnot, lastGroup_append_cons hnot]

/-- A text without opening marks in front changes nothing. -/
theorem lastGroup_append_left_of_notMem (h : op ∉ xs) :
    lastGroup op cl (xs ++ ys) = lastGroup op cl ys := by
  by_cases hmem : op ∈ ys
  · exact lastGroup_append_of_mem hmem
  · rw [lastGroup_of_notMem hmem, lastGroup_of_notMem (by simp [hmem, h])]

/-- A list without delimiters neither opens nor closes a group. -/
theorem lastGroup_append_of_notMem (hop : op ∉ ys) (hcl : cl ∉ ys) :
    lastGroup op cl (xs ++ ys) = lastGroup op cl xs := by
  by_cases hmem : op ∈ xs
  · obtain ⟨before, rest, rfl, hnot⟩ := exists_eq_append_cons_last hmem
    have hboth : op ∉ rest ++ ys := by simp [hnot, hop]
    rw [List.append_assoc, List.cons_append, lastGroup_append_cons hboth,
      lastGroup_append_cons hnot]
    by_cases hrest : cl ∈ rest
    · rw [if_pos (List.mem_append_left _ hrest), if_pos hrest]
      obtain ⟨g, after, rfl, hg⟩ := List.eq_append_cons_of_mem hrest
      rw [List.append_assoc, List.cons_append, takeWhile_append_cons_ne hg,
        takeWhile_append_cons_ne hg]
    · rw [if_neg (by simp [hrest, hcl]), if_neg hrest]
  · rw [lastGroup_of_notMem hmem, lastGroup_of_notMem (by simp [hmem, hop])]

/-! ## Segments -/

/-- What is no separator stands in a segment. -/
theorem exists_mem_splitOn {a c : α} (h : c ∈ l) (hne : c ≠ a) : ∃ seg ∈ l.splitOn a, c ∈ seg := by
  induction l with
  | nil => exact absurd h List.not_mem_nil
  | cons x xs ih =>
      rw [List.splitOn_cons_eq_if_modifyHead]
      rcases List.mem_cons.mp h with rfl | hxs
      · rw [if_neg (by simpa using hne)]
        obtain ⟨seg, segs, hsegs⟩ := List.exists_cons_of_ne_nil (List.splitOn_ne_nil a xs)
        rw [hsegs]
        exact ⟨c :: seg, List.mem_cons_self, List.mem_cons_self⟩
      · obtain ⟨seg, hseg, hc⟩ := ih hxs
        split_ifs
        · exact ⟨seg, List.mem_cons_of_mem _ hseg, hc⟩
        · obtain ⟨seg₀, segs, hsegs⟩ := List.exists_cons_of_ne_nil (List.splitOn_ne_nil a xs)
          rw [hsegs] at hseg ⊢
          rcases List.mem_cons.mp hseg with rfl | hlater
          · exact ⟨x :: seg, List.mem_cons_self, List.mem_cons_of_mem _ hc⟩
          · exact ⟨seg, List.mem_cons_of_mem _ hlater, hc⟩

omit [DecidableEq α] in
/-- What has no separator stands on one side of a separator. -/
theorem infix_append_cons_iff {a : α} (h : a ∉ l) :
    l <:+: xs ++ a :: ys ↔ l <:+: xs ∨ l <:+: ys := by
  have hempty : ∀ {ys : List α}, l <+: a :: ys → l = [] := by
    intro ys hpre
    rcases List.prefix_cons_iff.mp hpre with hnil | ⟨t, rfl, -⟩
    · exact hnil
    · exact absurd List.mem_cons_self h
  constructor
  · intro hinfix
    rcases List.infix_append_iff.mp hinfix with hxs | hys | ⟨l₁, l₂, rfl, h₁, h₂⟩
    · exact .inl hxs
    · rcases List.infix_cons_iff.mp hys with hpre | hrest
      · rw [hempty hpre]
        exact .inl List.nil_infix
      · exact .inr hrest
    · rcases List.prefix_cons_iff.mp h₂ with rfl | ⟨t, rfl, -⟩
      · rw [List.append_nil]
        exact .inl h₁.isInfix
      · exact absurd (List.mem_append_right _ List.mem_cons_self) h
  · rintro (hxs | hys)
    · exact List.infix_append_of_infix_left hxs
    · exact List.infix_append_of_infix_right (List.infix_cons hys)
