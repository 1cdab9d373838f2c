/-
# Runs of a system

A system takes inputs one after another: `step s i` is its state after input `i` in
state `s`, or `none` when the step cannot be taken (the program stops there).  A run is
a list of inputs; `Follows` says that every step of a run meets a condition on the
state before it.  An invariant that every such step preserves holds after the run
(`run_invariant`).  Two runs of which the second leaves some inputs out stay related
exactly as long as the inputs left out do not matter (`rel_run_filter_iff`); they show the
same if every input left out spares what is still to come (`trace_filter`).
-/
import Mathlib.Data.List.Basic

/-- What no step of a fold changes, the fold leaves alone. -/
theorem foldl_preserves {α β ι : Type*} {f : β → ι → β} {V : β → α}
    (h : ∀ s i, V (f s i) = V s) (is : List ι) (s : β) : V (is.foldl f s) = V s := by
  induction is generalizing s with
  | nil => rfl
  | cons i is ih => rw [List.foldl_cons, ih, h]

/-! ## What still stands -/

/-- An entry of the kind `on` that no later entry of the kind `off` takes back. -/
def Standing {α : Type*} (on off : α → Prop) (l : List α) : Prop :=
  ∃ before a after, l = before ++ a :: after ∧ on a ∧ ∀ b ∈ after, ¬ off b

section

variable {α β : Type*} {on off : α → Prop} {l : List α} {a : α}

/-- Nothing stands at first. -/
theorem not_standing_nil : ¬ Standing on off [] := by
  rintro ⟨before, a, after, h, -⟩
  simp at h

/-- What stands in a list is its head or stands in the rest. -/
theorem standing_cons :
    Standing on off (a :: l) ↔ (on a ∧ ∀ b ∈ l, ¬ off b) ∨ Standing on off l := by
  constructor
  · rintro ⟨before, b, after, h, hon, hoff⟩
    cases before with
    | nil =>
        obtain ⟨rfl, rfl⟩ := List.cons.inj h
        exact .inl ⟨hon, hoff⟩
    | cons c before =>
        obtain ⟨rfl, rfl⟩ := List.cons.inj h
        exact .inr ⟨before, b, after, rfl, hon, hoff⟩
  · rintro (⟨hon, hoff⟩ | ⟨before, b, after, rfl, hon, hoff⟩)
    · exact ⟨[], a, l, rfl, hon, hoff⟩
    · exact ⟨a :: before, b, after, rfl, hon, hoff⟩

/-- A last entry stands itself, or leaves standing what it does not take back. -/
theorem standing_snoc :
    Standing on off (l ++ [a]) ↔ on a ∨ (Standing on off l ∧ ¬ off a) := by
  induction l with
  | nil => simp [standing_cons, not_standing_nil]
  | cons b l ih =>
      rw [List.cons_append, standing_cons, standing_cons, ih]
      simp only [List.mem_append, List.mem_singleton, or_imp, forall_and, forall_eq]
      tauto

/-- Standing in a mapped list. -/
theorem standing_map {f : β → α} {l : List β} :
    Standing on off (l.map f) ↔ Standing (fun b => on (f b)) (fun b => off (f b)) l := by
  induction l with
  | nil => exact iff_of_false not_standing_nil not_standing_nil
  | cons b l ih => rw [List.map_cons, standing_cons, standing_cons, ih, List.forall_mem_map]

instance decidableStanding [DecidablePred on] [DecidablePred off] :
    (l : List α) → Decidable (Standing on off l)
  | [] => isFalse not_standing_nil
  | _ :: l =>
      have : Decidable (Standing on off l) := decidableStanding l
      decidable_of_iff _ standing_cons.symm

end

/-- A system with states `σ` and inputs `ι`. -/
structure System (σ ι : Type*) where
  step : σ → ι → Option σ

namespace System

variable {σ ι : Type*}

/-- The state after a list of inputs, if every step can be taken. -/
def run (S : System σ ι) : σ → List ι → Option σ
  | s, [] => some s
  | s, i :: is => (S.step s i).bind (fun s' => S.run s' is)

/-- Every step of the run from `s` meets the condition `C`. -/
def Follows (S : System σ ι) (C : σ → ι → Prop) : σ → List ι → Prop
  | _, [] => True
  | s, i :: is => C s i ∧ ∀ s', S.step s i = some s' → S.Follows C s' is

variable (S : System σ ι)

@[simp] theorem run_nil (s : σ) : S.run s [] = some s := rfl

/-- A run from its first input. -/
theorem run_cons (s : σ) (i : ι) (is : List ι) :
    S.run s (i :: is) = (S.step s i).bind (fun s' => S.run s' is) := rfl

/-- A run can be cut in two. -/
theorem run_append (s : σ) (is js : List ι) :
    S.run s (is ++ js) = (S.run s is).bind (fun s' => S.run s' js) := by
  induction is generalizing s with
  | nil => rfl
  | cons i is ih =>
      rw [List.cons_append, run_cons, run_cons, Option.bind_assoc]
      congr 1
      funext s'
      exact ih s'

/-- The state after a run that can be taken. -/
theorem run_eq_some_getD {s d : σ} {is : List ι} (h : (S.run s is).isSome) :
    S.run s is = some ((S.run s is).getD d) := by
  obtain ⟨s', hs'⟩ := Option.isSome_iff_exists.mp h
  rw [hs']
  rfl

/-- A condition on the first input and on the rest. -/
theorem follows_cons {C : σ → ι → Prop} {s : σ} {i : ι} {is : List ι} :
    S.Follows C s (i :: is) ↔ C s i ∧ ∀ s', S.step s i = some s' → S.Follows C s' is := Iff.rfl

/-- A condition on the inputs alone. -/
theorem follows_of_forall {P : ι → Prop} {is : List ι} (h : ∀ i ∈ is, P i) (s : σ) :
    S.Follows (fun _ i => P i) s is := by
  induction is generalizing s with
  | nil => trivial
  | cons i is ih =>
      exact ⟨h i List.mem_cons_self,
        fun s' _ => ih (fun j hj => h j (List.mem_cons_of_mem _ hj)) s'⟩

/-- A run meets a condition if its two parts do. -/
theorem follows_append {C : σ → ι → Prop} {s : σ} {is js : List ι} :
    S.Follows C s (is ++ js) ↔
      S.Follows C s is ∧ ∀ s', S.run s is = some s' → S.Follows C s' js := by
  induction is generalizing s with
  | nil => simp [Follows]
  | cons i is ih =>
      rw [List.cons_append, follows_cons, follows_cons, and_assoc, run_cons]
      refine and_congr_right fun _ => ?_
      cases S.step s i with
      | none => simp
      | some s₁ => simp [ih]

/-- A run meets a condition if the step after every prefix does. -/
theorem follows_iff_forall_prefix {C : σ → ι → Prop} {s : σ} {is : List ι} :
    S.Follows C s is ↔
      ∀ js i, js ++ [i] <+: is → ∀ s', S.run s js = some s' → C s' i := by
  induction is generalizing s with
  | nil =>
      refine iff_of_true trivial fun js i hjs => ?_
      simp at hjs
  | cons j is ih =>
      rw [follows_cons]
      constructor
      · rintro ⟨hj, hrest⟩ js i hjs s' hs'
        cases js with
        | nil =>
            obtain rfl := (List.cons_prefix_cons.mp hjs).1
            obtain rfl := Option.some.inj hs'
            exact hj
        | cons k js =>
            obtain ⟨rfl, hjs'⟩ := List.cons_prefix_cons.mp hjs
            obtain ⟨s₁, h₁, h₂⟩ := Option.bind_eq_some_iff.mp hs'
            exact ih.mp (hrest s₁ h₁) js i hjs' s' h₂
      · intro h
        refine ⟨h [] j (List.cons_prefix_cons.mpr ⟨rfl, List.nil_prefix⟩) s rfl, fun s₁ h₁ => ?_⟩
        refine ih.mpr fun js i hjs s' hs' => ?_
        refine h (j :: js) i (List.cons_prefix_cons.mpr ⟨rfl, hjs⟩) s' ?_
        rw [run_cons, h₁]
        exact hs'

/-- Check a decidable condition along a run. -/
def checkFollows (C : σ → ι → Prop) [∀ s i, Decidable (C s i)] : σ → List ι → Bool
  | _, [] => true
  | s, i :: is =>
      decide (C s i) &&
        match S.step s i with
        | none => true
        | some s' => checkFollows C s' is

/-- The check decides the condition. -/
theorem checkFollows_eq_true_iff {C : σ → ι → Prop} [∀ s i, Decidable (C s i)] {s : σ}
    {is : List ι} : S.checkFollows C s is = true ↔ S.Follows C s is := by
  induction is generalizing s with
  | nil => simp [checkFollows, Follows]
  | cons i is ih =>
      rw [checkFollows, follows_cons, Bool.and_eq_true, decide_eq_true_eq]
      cases h : S.step s i with
      | none => simp
      | some s' => simp [ih]

instance {C : σ → ι → Prop} [∀ s i, Decidable (C s i)] (s : σ) (is : List ι) :
    Decidable (S.Follows C s is) :=
  decidable_of_iff (S.checkFollows C s is = true) S.checkFollows_eq_true_iff

/-- Two conditions that hold along a run hold together along it. -/
theorem Follows.and {C D : σ → ι → Prop} {s : σ} {is : List ι} (hC : S.Follows C s is)
    (hD : S.Follows D s is) : S.Follows (fun s i => C s i ∧ D s i) s is := by
  induction is generalizing s with
  | nil => trivial
  | cons i is ih =>
      exact ⟨⟨hC.1, hD.1⟩, fun s' hs' => ih (hC.2 s' hs') (hD.2 s' hs')⟩

/-- **Invariants of runs.**  What one step preserves under the condition `C`, a run
whose steps all meet `C` preserves. -/
theorem run_invariant {C : σ → ι → Prop} {I : σ → Prop}
    (hstep : ∀ s i s', I s → C s i → S.step s i = some s' → I s')
    {s s' : σ} {is : List ι} (hs : I s) (hC : S.Follows C s is) (h : S.run s is = some s') :
    I s' := by
  induction is generalizing s with
  | nil =>
      obtain rfl := Option.some.inj h
      exact hs
  | cons i is ih =>
      obtain ⟨s₁, h₁, h₂⟩ := Option.bind_eq_some_iff.mp h
      exact ih (hstep s i s₁ hs hC.1 h₁) (hC.2 s₁ h₁) h₂

/-- **Invariants with a history.**  What relates the inputs so far to the state, and is
preserved when a step appends its input, relates all inputs to the state after the run. -/
theorem run_history {I : List ι → σ → Prop}
    (hstep : ∀ past s i s', I past s → S.step s i = some s' → I (past ++ [i]) s')
    {past is : List ι} {s s' : σ} (hs : I past s) (h : S.run s is = some s') :
    I (past ++ is) s' := by
  induction is generalizing past s with
  | nil =>
      obtain rfl := Option.some.inj h
      rwa [List.append_nil]
  | cons i is ih =>
      obtain ⟨s₁, h₁, h₂⟩ := Option.bind_eq_some_iff.mp h
      rw [List.append_cons]
      exact ih (hstep past s i s₁ hs h₁) h₂

/-- Where an entry stands in a history that the last step made one longer. -/
theorem snoc_eq_append_cons_iff {past before after : List ι} {i j : ι} :
    past ++ [i] = before ++ j :: after ↔
      (after = [] ∧ past = before ∧ i = j) ∨
        ∃ rest, after = rest ++ [i] ∧ past = before ++ j :: rest := by
  constructor
  · intro h
    rcases List.eq_nil_or_concat after with rfl | ⟨rest, k, rfl⟩
    · obtain ⟨rfl, hij⟩ := List.append_inj' h rfl
      exact .inl ⟨rfl, rfl, (List.cons.inj hij).1⟩
    · right
      rw [List.concat_eq_append, ← List.cons_append, ← List.append_assoc] at h
      obtain ⟨hpast, hik⟩ := List.append_inj' h rfl
      obtain rfl := (List.cons.inj hik).1
      exact ⟨rest, List.concat_eq_append, hpast⟩
  · rintro (⟨rfl, rfl, rfl⟩ | ⟨rest, rfl, rfl⟩)
    · rfl
    · rw [List.append_assoc, List.cons_append]

/-- An input that shows nothing. -/
theorem filterMap_snoc_none {κ : Type*} {f : ι → Option κ} {past : List ι} {i : ι}
    (h : f i = none) : (past ++ [i]).filterMap f = past.filterMap f := by
  rw [List.filterMap_append, List.filterMap_cons_none h, List.filterMap_nil, List.append_nil]

/-- An input that shows something. -/
theorem filterMap_snoc_some {κ : Type*} {f : ι → Option κ} {past : List ι} {i : ι} {k : κ}
    (h : f i = some k) : (past ++ [i]).filterMap f = past.filterMap f ++ [k] := by
  rw [List.filterMap_append, List.filterMap_cons_some h, List.filterMap_nil]

/-- What the invariant and the condition of a step give holds at every step of the run. -/
theorem follows_of_invariant {C D : σ → ι → Prop} {I : σ → Prop}
    (hstep : ∀ s i s', I s → C s i → S.step s i = some s' → I s')
    (himp : ∀ s i, I s → C s i → D s i)
    {s : σ} {is : List ι} (hs : I s) (hC : S.Follows C s is) : S.Follows D s is := by
  induction is generalizing s with
  | nil => trivial
  | cons i is ih =>
      obtain ⟨hi, hrest⟩ := hC
      exact ⟨himp s i hs hi, fun s' hs' => ih (hstep s i s' hs hi hs') (hrest s' hs')⟩

/-- Two conditions that agree at every step of a run hold along it together. -/
theorem follows_congr {A C D : σ → ι → Prop} {s s' : σ} {is : List ι} (hA : S.Follows A s is)
    (hrun : S.run s is = some s')
    (hcongr : ∀ s i, A s i → (∃ s', S.step s i = some s') → (C s i ↔ D s i)) :
    S.Follows C s is ↔ S.Follows D s is := by
  induction is generalizing s with
  | nil => exact Iff.rfl
  | cons i is ih =>
      obtain ⟨s₁, h₁, h₂⟩ := Option.bind_eq_some_iff.mp hrun
      rw [follows_cons, follows_cons, hcongr s i hA.1 ⟨s₁, h₁⟩]
      refine and_congr_right fun _ => forall₂_congr fun s₂ hs₂ => ?_
      obtain rfl := Option.some.inj (h₁.symm.trans hs₂)
      exact ih (hA.2 s₁ h₁) h₂

/-! ## Traces -/

/-- The prefixes of a non-empty list are the empty list and those that start with its
head. -/
theorem forall_prefix_cons {Q : List ι → Prop} {i : ι} {is : List ι} :
    (∀ js, js <+: i :: is → Q js) ↔ Q [] ∧ ∀ js, js <+: is → Q (i :: js) := by
  constructor
  · intro h
    exact ⟨h [] List.nil_prefix, fun js hjs => h _ (List.cons_prefix_cons.mpr ⟨rfl, hjs⟩)⟩
  · rintro ⟨hnil, hcons⟩ js hjs
    cases js with
    | nil => exact hnil
    | cons j js =>
        obtain ⟨rfl, hjs'⟩ := List.cons_prefix_cons.mp hjs
        exact hcons js hjs'

/-- What a run shows: every step shows at most one observation, given by `out`. -/
def trace {ω : Type*} (out : σ → ι → Option ω) : σ → List ι → List ω
  | _, [] => []
  | s, i :: is => (out s i).toList ++
      match S.step s i with
      | none => []
      | some s' => trace out s' is

section

variable {ω : Type*} (out : σ → ι → Option ω)

@[simp] theorem trace_nil (s : σ) : S.trace out s [] = [] := rfl

/-- A trace from its first input. -/
theorem trace_cons {s s' : σ} {i : ι} (h : S.step s i = some s') (is : List ι) :
    S.trace out s (i :: is) = (out s i).toList ++ S.trace out s' is := by
  rw [trace, h]

/-- A run that shows its inputs shows the list of them. -/
theorem trace_inputs {s s' : σ} {is : List ι} (h : S.run s is = some s') :
    S.trace (fun _ i => some i) s is = is := by
  induction is generalizing s with
  | nil => rfl
  | cons i is ih =>
      obtain ⟨s₁, h₁, h₂⟩ := Option.bind_eq_some_iff.mp h
      rw [S.trace_cons _ h₁, ih h₂, Option.toList_some, List.singleton_append]

/-- **History variables.**  A part of the state that changes only as `f` says, by the
observation of the step, is the fold of `f` over the trace. -/
theorem foldl_trace {β : Type*} {V : σ → β} {f : β → ω → β}
    (hstep : ∀ s i s', S.step s i = some s' → V s' = (out s i).toList.foldl f (V s))
    {s s' : σ} {is : List ι} (h : S.run s is = some s') :
    V s' = (S.trace out s is).foldl f (V s) := by
  induction is generalizing s with
  | nil =>
      obtain rfl := Option.some.inj h
      rfl
  | cons i is ih =>
      obtain ⟨s₁, h₁, h₂⟩ := Option.bind_eq_some_iff.mp h
      rw [S.trace_cons out h₁, List.foldl_append, ← hstep s i s₁ h₁, ih h₂]

/-- **Invariants with what was shown.**  What relates the observations so far to the state,
and is preserved when a step under the condition `C` appends its observation, relates all of
them to the state after a run whose steps all meet `C`. -/
theorem trace_history_of_follows {C : σ → ι → Prop} {I : List ω → σ → Prop}
    (hstep : ∀ shown s i s', I shown s → C s i → S.step s i = some s' →
      I (shown ++ (out s i).toList) s')
    {shown : List ω} {s s' : σ} {is : List ι} (hs : I shown s) (hC : S.Follows C s is)
    (h : S.run s is = some s') : I (shown ++ S.trace out s is) s' := by
  induction is generalizing shown s with
  | nil =>
      obtain rfl := Option.some.inj h
      rwa [trace_nil, List.append_nil]
  | cons i is ih =>
      obtain ⟨s₁, h₁, h₂⟩ := Option.bind_eq_some_iff.mp h
      rw [S.trace_cons out h₁, ← List.append_assoc]
      exact ih (hstep shown s i s₁ hs hC.1 h₁) (hC.2 s₁ h₁) h₂

/-- The same for what every step preserves. -/
theorem trace_history {I : List ω → σ → Prop}
    (hstep : ∀ shown s i s', I shown s → S.step s i = some s' → I (shown ++ (out s i).toList) s')
    {shown : List ω} {s s' : σ} {is : List ι} (hs : I shown s) (h : S.run s is = some s') :
    I (shown ++ S.trace out s is) s' :=
  S.trace_history_of_follows out (C := fun _ _ => True)
    (fun shown s i s' hI _ => hstep shown s i s' hI) hs
    (S.follows_of_forall (P := fun _ => True) (fun _ _ => trivial) s) h

/-- At every point of the run from `s`, what was shown so far and the state satisfy `P`. -/
def Throughout (P : List ω → σ → Prop) (shown : List ω) (s : σ) (is : List ι) : Prop :=
  ∀ js, js <+: is → ∀ s', S.run s js = some s' → P (shown ++ S.trace out s js) s'

/-- Every step of the run from `s` meets the condition `C`, which may depend on what was shown
before. -/
def FollowsSince (C : List ω → σ → ι → Prop) : List ω → σ → List ι → Prop
  | _, _, [] => True
  | shown, s, i :: is => C shown s i ∧
      ∀ s', S.step s i = some s' → FollowsSince C (shown ++ (out s i).toList) s' is

/-- Check a decidable condition along a run. -/
def checkFollowsSince (C : List ω → σ → ι → Prop) [∀ shown s i, Decidable (C shown s i)] :
    List ω → σ → List ι → Bool
  | _, _, [] => true
  | shown, s, i :: is =>
      decide (C shown s i) &&
        match S.step s i with
        | none => true
        | some s' => checkFollowsSince C (shown ++ (out s i).toList) s' is

/-- The check decides the condition with what was shown. -/
theorem checkFollowsSince_eq_true_iff {C : List ω → σ → ι → Prop}
    [∀ shown s i, Decidable (C shown s i)] {shown : List ω} {s : σ} {is : List ι} :
    S.checkFollowsSince out C shown s is = true ↔ S.FollowsSince out C shown s is := by
  induction is generalizing shown s with
  | nil => simp [checkFollowsSince, FollowsSince]
  | cons i is ih =>
      rw [checkFollowsSince, FollowsSince, Bool.and_eq_true, decide_eq_true_eq]
      cases h : S.step s i with
      | none => simp
      | some s' => simp [ih]

instance {C : List ω → σ → ι → Prop} [∀ shown s i, Decidable (C shown s i)] (shown : List ω)
    (s : σ) (is : List ι) : Decidable (S.FollowsSince out C shown s is) :=
  decidable_of_iff (S.checkFollowsSince out C shown s is = true)
    (S.checkFollowsSince_eq_true_iff out)

/-- Such a condition on the first input and on the rest. -/
theorem followsSince_cons {C : List ω → σ → ι → Prop} {shown : List ω} {s s' : σ} {i : ι}
    {is : List ι} (h : S.step s i = some s') :
    S.FollowsSince out C shown s (i :: is) ↔
      C shown s i ∧ S.FollowsSince out C (shown ++ (out s i).toList) s' is := by
  refine and_congr_right fun _ => ⟨fun hrest => hrest s' h, fun hrest s₁ h₁ => ?_⟩
  obtain rfl := Option.some.inj (h.symm.trans h₁)
  exact hrest

/-- A condition that does not look at what was shown. -/
theorem followsSince_const {C : σ → ι → Prop} {shown : List ω} {s : σ} {is : List ι} :
    S.FollowsSince out (fun _ => C) shown s is ↔ S.Follows C s is := by
  induction is generalizing shown s with
  | nil => exact Iff.rfl
  | cons i is ih =>
      rw [FollowsSince, follows_cons]
      exact and_congr_right fun _ => forall₂_congr fun s' _ => ih

/-- **Exact conditions.**  `J` is preserved by every step, and after a step `P` holds exactly
if the step met `C`.  Then `P` holds throughout a run if and only if all its steps meet
`C`. -/
theorem throughout_iff_followsSince {J P : List ω → σ → Prop} {C : List ω → σ → ι → Prop}
    (hJ : ∀ shown s i s', J shown s → S.step s i = some s' → J (shown ++ (out s i).toList) s')
    (hP : ∀ shown s i s', J shown s → P shown s → S.step s i = some s' →
      (P (shown ++ (out s i).toList) s' ↔ C shown s i))
    {shown : List ω} {s s' : σ} {is : List ι} (hs : J shown s) (hPs : P shown s)
    (hrun : S.run s is = some s') :
    S.Throughout out P shown s is ↔ S.FollowsSince out C shown s is := by
  have hnil : ∀ {shown : List ω} {s : σ}, P shown s →
      ∀ s', S.run s [] = some s' → P (shown ++ S.trace out s []) s' := by
    intro shown s h s' hs'
    obtain rfl := Option.some.inj hs'
    rwa [trace_nil, List.append_nil]
  induction is generalizing shown s with
  | nil =>
      refine iff_of_true ?_ trivial
      intro js hjs
      rw [List.prefix_nil.mp hjs]
      exact hnil hPs
  | cons i is ih =>
      obtain ⟨s₁, h₁, h₂⟩ := Option.bind_eq_some_iff.mp hrun
      -- a prefix is empty, or the first step and a prefix of the rest
      have hcons : S.Throughout out P shown s (i :: is) ↔
          S.Throughout out P (shown ++ (out s i).toList) s₁ is := by
        rw [Throughout, forall_prefix_cons, and_iff_right (hnil hPs), Throughout]
        refine forall₂_congr fun js _ => ?_
        rw [run_cons, h₁, Option.bind_some, S.trace_cons out h₁, List.append_assoc]
      rw [hcons, S.followsSince_cons out h₁]
      constructor
      · intro h
        have hP₁ : P (shown ++ (out s i).toList) s₁ := by
          have := h [] List.nil_prefix s₁ rfl
          rwa [trace_nil, List.append_nil] at this
        exact ⟨(hP shown s i s₁ hs hPs h₁).mp hP₁, (ih (hJ shown s i s₁ hs h₁) hP₁ h₂).mp h⟩
      · rintro ⟨hC, hrest⟩
        have hP₁ := (hP shown s i s₁ hs hPs h₁).mpr hC
        exact (ih (hJ shown s i s₁ hs h₁) hP₁ h₂).mpr hrest

/-- The same for a condition on the state and the input alone. -/
theorem throughout_iff {J P : List ω → σ → Prop} {C : σ → ι → Prop}
    (hJ : ∀ shown s i s', J shown s → S.step s i = some s' → J (shown ++ (out s i).toList) s')
    (hP : ∀ shown s i s', J shown s → P shown s → S.step s i = some s' →
      (P (shown ++ (out s i).toList) s' ↔ C s i))
    {shown : List ω} {s s' : σ} {is : List ι} (hs : J shown s) (hPs : P shown s)
    (hrun : S.run s is = some s') :
    S.Throughout out P shown s is ↔ S.Follows C s is :=
  (S.throughout_iff_followsSince out hJ hP hs hPs hrun).trans (S.followsSince_const out)

end

/-- `P` holds in every state of the run from `s`. -/
def Always (P : σ → Prop) (s : σ) (is : List ι) : Prop :=
  ∀ js, js <+: is → ∀ s', S.run s js = some s' → P s'

/-- **Exact conditions** for a property of the states. -/
theorem always_iff {J P : σ → Prop} {C : σ → ι → Prop}
    (hJ : ∀ s i s', J s → S.step s i = some s' → J s')
    (hP : ∀ s i s', J s → P s → S.step s i = some s' → (P s' ↔ C s i))
    {s s' : σ} {is : List ι} (hs : J s) (hPs : P s) (hrun : S.run s is = some s') :
    S.Always P s is ↔ S.Follows C s is := by
  have h : S.Throughout (fun _ _ => (none : Option Unit)) (fun _ => P) [] s is
      ↔ S.Follows C s is :=
    S.throughout_iff _ (J := fun _ => J) (fun _ => hJ) (fun _ => hP) hs hPs hrun
  exact h

/-! ## Two runs -/

/-- The same system with its inputs read through `f`. -/
def comap {κ : Type*} (f : κ → ι) : System σ κ where
  step s k := S.step s (f k)

/-- A run on renamed inputs. -/
theorem run_comap {κ : Type*} (f : κ → ι) (s : σ) (ks : List κ) :
    (S.comap f).run s ks = S.run s (ks.map f) := by
  induction ks generalizing s with
  | nil => rfl
  | cons k ks ih =>
      rw [List.map_cons, run_cons, run_cons]
      exact congrArg _ (funext ih)

/-- Related options are both present or both absent. -/
theorem rel_cases {R : σ → σ → Prop} {o o' : Option σ} (h : Option.Rel R o o') :
    (∃ s s', o = some s ∧ o' = some s' ∧ R s s') ∨ (o = none ∧ o' = none) := by
  cases h with
  | some h => exact .inl ⟨_, _, rfl, rfl, h⟩
  | none => exact .inr ⟨rfl, rfl⟩

/-- **Leaving inputs out.**  One run takes all inputs, a second one only those that
satisfy `keep`.  `R` relates the two as long as they agree, and inputs that are kept
preserve it.  An input left out under `C` preserves it too; one left out against `C`
makes the runs observably different.  Then the runs look the same at every point if and
only if all inputs that are left out meet `C`. -/
theorem rel_run_filter_iff (keep : ι → Bool) {P : ι → Prop} {R O : σ → σ → Prop}
    {C : σ → ι → Prop} (hobs : ∀ s s', R s s' → O s s')
    (hkeep : ∀ s s' i, P i → keep i = true → R s s' →
      Option.Rel R (S.step s i) (S.step s' i))
    (hdrop : ∀ s s' i, P i → keep i = false → R s s' → C s i →
      ∃ s₁, S.step s i = some s₁ ∧ R s₁ s')
    (hbreak : ∀ s s' i, P i → keep i = false → R s s' → ¬ C s i →
      ¬ Option.Rel O (S.step s i) (some s'))
    {s s' : σ} (h : R s s') {is : List ι} (hP : ∀ i ∈ is, P i) :
    (∀ js, js <+: is → Option.Rel O (S.run s js) (S.run s' (js.filter keep))) ↔
      S.Follows (fun s i => keep i = false → C s i) s is := by
  induction is generalizing s s' with
  | nil =>
      refine iff_of_true ?_ trivial
      intro js hjs
      rw [List.prefix_nil.mp hjs]
      exact .some (hobs s s' h)
  | cons i is ih =>
      have hi := hP i List.mem_cons_self
      have hrest : ∀ j ∈ is, P j := fun j hj => hP j (List.mem_cons_of_mem _ hj)
      have hnil : Option.Rel O (S.run s []) (S.run s' ([].filter keep)) := .some (hobs s s' h)
      rw [forall_prefix_cons, follows_cons, and_iff_right hnil]
      cases hk : keep i with
      | true =>
          simp only [List.filter_cons_of_pos hk, run_cons, Bool.true_eq_false,
            IsEmpty.forall_iff, true_and]
          -- both runs take the input, or it stops both
          obtain ⟨s₁, s₁', h₁, h₁', hR₁⟩ | ⟨h₁, h₁'⟩ := rel_cases (hkeep s s' i hi hk h)
          · rw [h₁, h₁']
            simp only [Option.bind_some, Option.some.injEq, forall_eq']
            exact ih hR₁ hrest
          · rw [h₁, h₁']
            exact iff_of_true (fun _ _ => .none) (by simp)
      | false =>
          have hf : ∀ js, (i :: js).filter keep = js.filter keep :=
            fun js => List.filter_cons_of_neg (by rw [hk]; exact Bool.false_ne_true)
          simp only [hf, run_cons, forall_const]
          by_cases hC : C s i
          · obtain ⟨s₁, hs₁, hR₁⟩ := hdrop s s' i hi hk h hC
            rw [hs₁]
            simp only [hC, true_and, Option.bind_some, Option.some.injEq, forall_eq']
            exact ih hR₁ hrest
          · refine iff_of_false ?_ fun hfol => hC hfol.1
            intro hall
            refine hbreak s s' i hi hk h hC ?_
            have := hall [] List.nil_prefix
            rwa [List.filter_nil, run_nil,
              show (S.step s i).bind (fun s₁ => S.run s₁ []) = S.step s i from
                Option.bind_fun_some (S.step s i)] at this

/-! ## Looking ahead -/

/-- Every step of the run from `s` meets the condition `C`, which may depend on the inputs
that are still to come. -/
def FollowsAhead (S : System σ ι) (C : σ → ι → List ι → Prop) : σ → List ι → Prop
  | _, [] => True
  | s, i :: is => C s i is ∧ ∀ s', S.step s i = some s' → S.FollowsAhead C s' is

/-- Check a decidable condition along a run. -/
def checkFollowsAhead (C : σ → ι → List ι → Prop) [∀ s i is, Decidable (C s i is)] :
    σ → List ι → Bool
  | _, [] => true
  | s, i :: is =>
      decide (C s i is) &&
        match S.step s i with
        | none => true
        | some s' => checkFollowsAhead C s' is

/-- The check decides the condition with what is to come. -/
theorem checkFollowsAhead_eq_true_iff {C : σ → ι → List ι → Prop}
    [∀ s i is, Decidable (C s i is)] {s : σ} {is : List ι} :
    S.checkFollowsAhead C s is = true ↔ S.FollowsAhead C s is := by
  induction is generalizing s with
  | nil => simp [checkFollowsAhead, FollowsAhead]
  | cons i is ih =>
      rw [checkFollowsAhead, FollowsAhead, Bool.and_eq_true, decide_eq_true_eq]
      cases h : S.step s i with
      | none => simp
      | some s' => simp [ih]

instance {C : σ → ι → List ι → Prop} [∀ s i is, Decidable (C s i is)] (s : σ) (is : List ι) :
    Decidable (S.FollowsAhead C s is) :=
  decidable_of_iff (S.checkFollowsAhead C s is = true) S.checkFollowsAhead_eq_true_iff

/-- **Noninterference.**  One run takes all inputs, a second one only those that satisfy
`keep`.  `R` relates their states for the inputs that are still to come.  An input that is
kept shows the same in related states and leads to related states; one that is left out shows
nothing and leaves the states related.  Then the two runs show the same. -/
theorem trace_filter {ω : Type*} (out : σ → ι → Option ω) (keep : ι → Bool)
    {R : List ι → σ → σ → Prop} {C : σ → ι → List ι → Prop}
    (hkeep : ∀ s s' i is, keep i = true → C s i is → R (i :: is) s s' →
      out s i = out s' i ∧ Option.Rel (R is) (S.step s i) (S.step s' i))
    (hdrop : ∀ s s' i is, keep i = false → C s i is → R (i :: is) s s' →
      out s i = none ∧ ∃ s₁, S.step s i = some s₁ ∧ R is s₁ s')
    {s s' : σ} {is : List ι} (h : R is s s') (hC : S.FollowsAhead C s is) :
    S.trace out s is = S.trace out s' (is.filter keep) := by
  induction is generalizing s s' with
  | nil => rfl
  | cons i is ih =>
      obtain ⟨hi, hrest⟩ := hC
      cases hk : keep i with
      | true =>
          obtain ⟨hout, hrel⟩ := hkeep s s' i is hk hi h
          rw [List.filter_cons_of_pos hk, trace, trace, hout]
          obtain ⟨s₁, s₁', h₁, h₁', hR₁⟩ | ⟨h₁, h₁'⟩ := rel_cases hrel
          · rw [h₁, h₁']
            exact congrArg _ (ih hR₁ (hrest s₁ h₁))
          · rw [h₁, h₁']
      | false =>
          obtain ⟨hout, s₁, h₁, hR₁⟩ := hdrop s s' i is hk hi h
          rw [List.filter_cons_of_neg (by rw [hk]; exact Bool.false_ne_true), S.trace_cons out h₁,
            hout, Option.toList_none, List.nil_append]
          exact ih hR₁ (hrest s₁ h₁)

end System
