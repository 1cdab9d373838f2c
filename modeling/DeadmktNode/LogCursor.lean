/-
# Reading a log with a cursor

A log has a list of entries at every height.  A system reads it with a cursor: a step may
raise the cursor, and of the entries in the range that the cursor passes it takes some, in
their order.  A run has taken every entry of its range exactly once if and only if every
step has taken all entries of its own range (`taken_perm_iff`).  A system that calls another
one takes it on by what its run takes (`run_taken`).
-/
import DeadmktNode.Runs
import Mathlib.Data.List.Range

/-! ## Ranges of a log -/

namespace Log

variable {ε : Type*} (log : ℕ → List ε)

/-- The entries from one height to another, both included. -/
def inclusive (a b : ℕ) : List ε := (List.range' a (b + 1 - a)).flatMap log

/-- The entries above `a`, up to `b`. -/
def between (a b : ℕ) : List ε := inclusive log (a + 1) b

@[simp] theorem between_self (a : ℕ) : between log a a = [] := by
  unfold between inclusive
  rw [Nat.sub_self, List.range'_zero, List.flatMap_nil]

/-- A range can be cut in two. -/
theorem between_append {a b c : ℕ} (hab : a ≤ b) (hbc : b ≤ c) :
    between log a b ++ between log b c = between log a c := by
  unfold between inclusive
  rw [← List.flatMap_append]
  congr 1
  have hstart : b + 1 = a + 1 + 1 * (b + 1 - (a + 1)) := by omega
  have hlength : c + 1 - (a + 1) = (b + 1 - (a + 1)) + (c + 1 - (b + 1)) := by omega
  rw [hlength, ← List.range'_append, ← hstart]

end Log

/-! ## Readers -/

namespace System

variable {σ ι ε : Type*} (S : System σ ι) (log : ℕ → List ε) (cursor : σ → ℕ)
  (out : σ → ι → List ε)

/-- What a run takes. -/
def taken (s : σ) (is : List ι) : List ε := (S.trace (fun s i => some (out s i)) s is).flatten

/-- A step takes some entries of the range that the cursor passes. -/
def Reads (s : σ) (i : ι) : Prop :=
  ∀ s', S.step s i = some s' → cursor s ≤ cursor s' ∧
    (out s i).Sublist (Log.between log (cursor s) (cursor s'))

/-- A step takes all of them. -/
def ReadsAll (s : σ) (i : ι) : Prop :=
  ∀ s', S.step s i = some s' → out s i = Log.between log (cursor s) (cursor s')

@[simp] theorem taken_nil (s : σ) : S.taken out s [] = [] := rfl

/-- What is taken from the first input on. -/
theorem taken_cons {s s' : σ} {i : ι} (h : S.step s i = some s') (is : List ι) :
    S.taken out s (i :: is) = out s i ++ S.taken out s' is := by
  unfold taken
  rw [S.trace_cons _ h, Option.toList_some, List.singleton_append, List.flatten_cons]

/-- What is taken in one run after another. -/
theorem taken_append {s s' : σ} {is : List ι} (h : S.run s is = some s') (js : List ι) :
    S.taken out s (is ++ js) = S.taken out s is ++ S.taken out s' js := by
  induction is generalizing s with
  | nil =>
      obtain rfl := Option.some.inj h
      rfl
  | cons i is ih =>
      obtain ⟨s₁, h₁, h₂⟩ := Option.bind_eq_some_iff.mp h
      rw [List.cons_append, S.taken_cons out h₁, S.taken_cons out h₁, ih h₂, List.append_assoc]

/-- What a run takes, seen through a filter. -/
theorem filterMap_taken {ω : Type*} (f : ε → Option ω) (s : σ) (is : List ι) :
    (S.taken out s is).filterMap f = S.taken (fun s i => (out s i).filterMap f) s is := by
  induction is generalizing s with
  | nil => rfl
  | cons i is ih =>
      unfold taken trace
      rw [Option.toList_some, Option.toList_some, List.flatten_append, List.flatten_append,
        List.filterMap_append, List.flatten_singleton, List.flatten_singleton]
      congr 1
      cases S.step s i with
      | none => rfl
      | some s' => exact ih s'

/-- **A part of a system.**  If every step takes a part of the state on as it is called, then a
run takes it on as all its steps call it. -/
theorem run_taken {τ κ : Type*} (T : System τ κ) (part : σ → τ) (calls : σ → ι → List κ)
    (hstep : ∀ s i s', S.step s i = some s' → T.run (part s) (calls s i) = some (part s'))
    {s s' : σ} {is : List ι} (hrun : S.run s is = some s') :
    T.run (part s) (S.taken calls s is) = some (part s') := by
  induction is generalizing s with
  | nil =>
      obtain rfl := Option.some.inj hrun
      rfl
  | cons i is ih =>
      obtain ⟨s₁, h₁, h₂⟩ := Option.bind_eq_some_iff.mp hrun
      rw [S.taken_cons calls h₁, run_append, hstep s i s₁ h₁]
      exact ih h₂

/-- Steps that take nothing. -/
theorem taken_eq_nil {s : σ} {is : List ι} (h : S.Follows (fun s i => out s i = []) s is)
    (hrun : (S.run s is).isSome) : S.taken out s is = [] := by
  induction is generalizing s with
  | nil => rfl
  | cons i is ih =>
      obtain ⟨s', hs'⟩ := Option.isSome_iff_exists.mp hrun
      obtain ⟨s₁, h₁, h₂⟩ := Option.bind_eq_some_iff.mp hs'
      rw [S.taken_cons out h₁, h.1, List.nil_append]
      exact ih (h.2 s₁ h₁) (by rw [h₂]; rfl)

/-- A run takes some entries of the range that its cursor passes, in their order. -/
theorem taken_sublist {s s' : σ} {is : List ι} (hreads : S.Follows (S.Reads log cursor out) s is)
    (hrun : S.run s is = some s') :
    cursor s ≤ cursor s' ∧
      (S.taken out s is).Sublist (Log.between log (cursor s) (cursor s')) := by
  induction is generalizing s with
  | nil =>
      obtain rfl := Option.some.inj hrun
      exact ⟨le_refl _, List.nil_sublist _⟩
  | cons i is ih =>
      obtain ⟨s₁, h₁, h₂⟩ := Option.bind_eq_some_iff.mp hrun
      obtain ⟨hle, hsub⟩ := hreads.1 s₁ h₁
      obtain ⟨hle', hsub'⟩ := ih (hreads.2 s₁ h₁) h₂
      refine ⟨hle.trans hle', ?_⟩
      rw [S.taken_cons out h₁, ← Log.between_append log hle hle']
      exact hsub.append hsub'

/-- **Reading everything.**  A run takes every entry of its range exactly once if and only if
each of its steps takes all entries of its own range. -/
theorem taken_perm_iff {s s' : σ} {is : List ι}
    (hreads : S.Follows (S.Reads log cursor out) s is) (hrun : S.run s is = some s') :
    (S.taken out s is).Perm (Log.between log (cursor s) (cursor s'))
      ↔ S.Follows (S.ReadsAll log cursor out) s is := by
  induction is generalizing s with
  | nil =>
      obtain rfl := Option.some.inj hrun
      rw [Log.between_self]
      exact iff_of_true (List.Perm.refl _) trivial
  | cons i is ih =>
      obtain ⟨s₁, h₁, h₂⟩ := Option.bind_eq_some_iff.mp hrun
      obtain ⟨hle, hsub⟩ := hreads.1 s₁ h₁
      obtain ⟨hle', hsub'⟩ := S.taken_sublist log cursor out (hreads.2 s₁ h₁) h₂
      rw [S.taken_cons out h₁, ← Log.between_append log hle hle', follows_cons]
      constructor
      · intro hperm
        -- neither part is longer than its range, so both are as long
        have hlen := hperm.length_eq
        rw [List.length_append, List.length_append] at hlen
        have hlen₁ := hsub.length_le
        have hlen₂ := hsub'.length_le
        have hall : out s i = Log.between log (cursor s) (cursor s₁) :=
          hsub.eq_of_length (by omega)
        have hrest : S.taken out s₁ is = Log.between log (cursor s₁) (cursor s') :=
          hsub'.eq_of_length (by omega)
        have hfollows := (ih (hreads.2 s₁ h₁) h₂).mp (hrest ▸ List.Perm.refl _)
        constructor
        · intro t ht
          obtain rfl := Option.some.inj (h₁.symm.trans ht)
          exact hall
        · intro t ht
          obtain rfl := Option.some.inj (h₁.symm.trans ht)
          exact hfollows
      · rintro ⟨hall, hfollows⟩
        rw [hall s₁ h₁]
        exact ((ih (hreads.2 s₁ h₁) h₂).mpr (hfollows s₁ h₁)).append_left _

end System
