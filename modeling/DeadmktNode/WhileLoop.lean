/-
# Loops with output

A `while` loop over a state `σ` that appends to an output list is the iteration of a
step function: `none` leaves the loop, `some (s, o)` goes on in state `s` after
emitting `o`.  A measure that every step decreases makes the loop total.

The rules of this file reduce a property of the whole output to one of a single step:
`outputs_induction` (the induction principle), `outputs_forall` (an invariant of the
state that every emission satisfies), `outputs_history` (an invariant of the state and of
what was emitted so far), `sum_outputs_le` (emissions paid from a potential),
`outputs_ascend` (emissions labelled by a position that every step raises), `outputs_map` (a
loop that records more than another) and `outputs_refines` (a loop on other states).
-/
import Mathlib.Algebra.BigOperators.Group.List.Basic
import Mathlib.Algebra.GroupWithZero.Nat
import Mathlib.Algebra.Order.BigOperators.Group.List
import Mathlib.Data.List.Basic

/-- A loop body together with a measure that it decreases. -/
structure WhileLoop (σ ω : Type*) where
  step : σ → Option (σ × Option ω)
  measure : σ → ℕ
  decreases : ∀ {s s' o}, step s = some (s', o) → measure s' < measure s

namespace WhileLoop

variable {σ ω ω' : Type*}

/-- Everything that the loop emits from state `s`. -/
def outputs (L : WhileLoop σ ω) (s : σ) : List ω :=
  match _h : L.step s with
  | none => []
  | some (s', o) => o.toList ++ L.outputs s'
termination_by L.measure s
decreasing_by exact L.decreases _h

theorem outputs_of_none (L : WhileLoop σ ω) {s : σ} (h : L.step s = none) :
    L.outputs s = [] := by
  rw [outputs]
  split
  · rfl
  · rename_i heq
    rw [h] at heq
    simp at heq

theorem outputs_of_some (L : WhileLoop σ ω) {s s' : σ} {o : Option ω}
    (h : L.step s = some (s', o)) : L.outputs s = o.toList ++ L.outputs s' := by
  conv_lhs => rw [outputs]
  split
  · rename_i heq
    rw [h] at heq
    simp at heq
  · rename_i heq
    rw [h] at heq
    obtain ⟨rfl, rfl⟩ := Prod.mk.inj (Option.some.inj heq)
    rfl

/-- **Induction over a loop.**  A relation between states and outputs that holds when
the loop ends, and that one step hands on, holds of the whole run. -/
theorem outputs_induction (L : WhileLoop σ ω) {P : σ → List ω → Prop}
    (hend : ∀ s, L.step s = none → P s [])
    (hstep : ∀ s s' o os, L.step s = some (s', o) → P s' os → P s (o.toList ++ os)) (s : σ) :
    P s (L.outputs s) := by
  induction hn : L.measure s using Nat.strong_induction_on generalizing s with
  | _ n ih =>
      cases h : L.step s with
      | none =>
          rw [L.outputs_of_none h]
          exact hend s h
      | some p =>
          obtain ⟨s', o⟩ := p
          rw [L.outputs_of_some h]
          exact hstep s s' o _ h (ih (L.measure s') (hn ▸ L.decreases h) s' rfl)

/-- If every step from a state of the invariant `I` stays in `I` and emits only `Q`,
then everything that is emitted is `Q`. -/
theorem outputs_forall (L : WhileLoop σ ω) {I : σ → Prop} {Q : ω → Prop}
    (hstep : ∀ s s' o, I s → L.step s = some (s', o) → I s' ∧ ∀ x ∈ o, Q x)
    {s : σ} (hs : I s) : ∀ x ∈ L.outputs s, Q x := by
  refine L.outputs_induction (P := fun s os => I s → ∀ x ∈ os, Q x) ?_ ?_ s hs
  · intro s _ _ x hx
    simp at hx
  · intro s s' o os h ih hI x hx
    obtain ⟨hI', hQ⟩ := hstep s s' o hI h
    rcases List.mem_append.mp hx with hx | hx
    · exact hQ x (Option.mem_toList.mp hx)
    · exact ih hI' x hx

/-- **Loops with a history.**  What relates the emissions so far to the state, and is
preserved when a step appends its own, relates all emissions to a state in which the loop
ends. -/
theorem outputs_history (L : WhileLoop σ ω) {I : List ω → σ → Prop}
    (hstep : ∀ past s s' o, I past s → L.step s = some (s', o) → I (past ++ o.toList) s')
    {past : List ω} {s : σ} (hs : I past s) :
    ∃ s', L.step s' = none ∧ I (past ++ L.outputs s) s' := by
  refine L.outputs_induction
    (P := fun s os => ∀ past, I past s → ∃ s', L.step s' = none ∧ I (past ++ os) s')
    ?_ ?_ s past hs
  · intro s h past hI
    exact ⟨s, h, by rwa [List.append_nil]⟩
  · intro s s' o os h ih past hI
    rw [← List.append_assoc]
    exact ih _ (hstep past s s' o hI h)

/-- **Potential argument.**  If every step pays for what it emits out of a potential,
then the emissions of the whole run cost at most the initial potential. -/
theorem sum_outputs_le (L : WhileLoop σ ω) (cost : ω → ℕ) (potential : σ → ℕ)
    (hstep : ∀ s s' o, L.step s = some (s', o) →
      (o.toList.map cost).sum + potential s' ≤ potential s) (s : σ) :
    ((L.outputs s).map cost).sum ≤ potential s := by
  refine L.outputs_induction (P := fun s os => (os.map cost).sum ≤ potential s) ?_ ?_ s
  · intro s _
    simp
  · intro s s' o os h ih
    have := hstep s s' o h
    rw [List.map_append, List.sum_append]
    omega

/-- **Ascending emissions.**  If every step raises the position of the state and emits only
what stands at the position that it leaves, then the positions of the emissions ascend
strictly. -/
theorem outputs_ascend {α : Type*} [Preorder α] (L : WhileLoop σ ω) {key : σ → α} {pos : ω → α}
    (hstep : ∀ s s' o, L.step s = some (s', o) → key s < key s' ∧ ∀ x ∈ o, pos x = key s)
    (s : σ) : ((L.outputs s).map pos).Pairwise (· < ·) := by
  refine (L.outputs_induction
    (P := fun s os => (os.map pos).Pairwise (· < ·) ∧ ∀ x ∈ os, key s ≤ pos x) ?_ ?_ s).1
  · intro s _
    exact ⟨List.Pairwise.nil, fun x hx => by cases hx⟩
  · rintro s s' o os h ⟨hsorted, habove⟩
    obtain ⟨hlt, hat⟩ := hstep s s' o h
    have hlater : ∀ x ∈ os, key s < pos x := fun x hx => hlt.trans_le (habove x hx)
    cases o with
    | none => exact ⟨hsorted, fun x hx => (hlater x hx).le⟩
    | some x =>
        have hx : pos x = key s := hat x rfl
        refine ⟨List.pairwise_cons.mpr ⟨?_, hsorted⟩, ?_⟩
        · rw [hx]
          exact List.forall_mem_map.mpr hlater
        · refine List.forall_mem_cons.mpr ⟨hx.ge, fun y hy => (hlater y hy).le⟩

/-- A loop whose steps emit the images of the emissions of another one. -/
theorem outputs_map (L : WhileLoop σ ω) (L' : WhileLoop σ ω') (f : ω → ω')
    (hstep : ∀ s, L'.step s = (L.step s).map (fun p => (p.1, p.2.map f))) (s : σ) :
    L'.outputs s = (L.outputs s).map f := by
  refine L.outputs_induction (P := fun s os => L'.outputs s = os.map f) ?_ ?_ s
  · intro s h
    rw [L'.outputs_of_none (by rw [hstep, h]; rfl)]
    rfl
  · intro s s' o os h ih
    have h' : L'.step s = some (s', o.map f) := by rw [hstep, h]; rfl
    rw [L'.outputs_of_some h', ih, List.map_append]
    cases o <;> rfl

/-! ## The states that a loop passes through -/

/-- The states of the loop from `s` on, `s` among them. -/
def states (L : WhileLoop σ ω) (s : σ) : List σ :=
  match _h : L.step s with
  | none => [s]
  | some (s', _) => s :: L.states s'
termination_by L.measure s
decreasing_by exact L.decreases _h

theorem states_of_some (L : WhileLoop σ ω) {s s' : σ} {o : Option ω}
    (h : L.step s = some (s', o)) : L.states s = s :: L.states s' := by
  conv_lhs => rw [states]
  split
  · rename_i heq
    rw [h] at heq
    simp at heq
  · rename_i heq
    rw [h] at heq
    obtain ⟨rfl, rfl⟩ := Prod.mk.inj (Option.some.inj heq)
    rfl

theorem states_of_none (L : WhileLoop σ ω) {s : σ} (h : L.step s = none) :
    L.states s = [s] := by
  rw [states]
  split
  · rfl
  · rename_i heq
    rw [h] at heq
    simp at heq

/-- The states of a loop are its first state alone, or that and those after one step. -/
theorem states_cases (L : WhileLoop σ ω) (s : σ) :
    (L.step s = none ∧ L.states s = [s]) ∨
      ∃ s' o, L.step s = some (s', o) ∧ L.states s = s :: L.states s' := by
  cases h : L.step s with
  | none => exact .inl ⟨rfl, L.states_of_none h⟩
  | some p => exact .inr ⟨p.1, p.2, rfl, L.states_of_some h⟩

/-! ## Refinement -/

/-- **Refinement of loops.**  If `g` maps the states of `L` to those of `L'` so that their
steps agree, the two loops emit the same. -/
theorem outputs_refines {σ' : Type*} (L : WhileLoop σ ω) (L' : WhileLoop σ' ω) (g : σ → σ')
    (hstep : ∀ s, L'.step (g s) = (L.step s).map (fun p => (g p.1, p.2))) (s : σ) :
    L.outputs s = L'.outputs (g s) := by
  refine L.outputs_induction (P := fun s os => os = L'.outputs (g s)) ?_ ?_ s
  · intro s h
    have h' : L'.step (g s) = none := by rw [hstep, h]; rfl
    rw [L'.outputs_of_none h']
  · intro s s' o os h ih
    have h' : L'.step (g s) = some (g s', o) := by rw [hstep, h]; rfl
    rw [L'.outputs_of_some h', ih]

/-- A loop that refines another one passes through the same states, read by `g`. -/
theorem states_refines {σ' : Type*} (L : WhileLoop σ ω) (L' : WhileLoop σ' ω) (g : σ → σ')
    (hstep : ∀ s, L'.step (g s) = (L.step s).map (fun p => (g p.1, p.2))) (s : σ) :
    L'.states (g s) = (L.states s).map g := by
  induction hn : L.measure s using Nat.strong_induction_on generalizing s with
  | _ n ih =>
      cases h : L.step s with
      | none =>
          have h' : L'.step (g s) = none := by rw [hstep, h]; rfl
          rw [L.states_of_none h, L'.states_of_none h']
          rfl
      | some p =>
          obtain ⟨s', o⟩ := p
          have h' : L'.step (g s) = some (g s', o) := by rw [hstep, h]; rfl
          rw [L.states_of_some h, L'.states_of_some h',
            ih (L.measure s') (hn ▸ L.decreases h) s' rfl]
          rfl

end WhileLoop
