/-
# Programs with a state that may fail

A program reads and writes a state and ends with a value or with an error; what it did before an
error stays done.  `Triple P x Q E` says of a program `x` that it leads from the states with `P`
to a value and a state with `Q`, or to an error and a state with `E`.  There is one rule for each
way to put programs together, and one to run a program on a part of a larger state
(`Triple.onPart`).  What every ending keeps is stated as `Keeps`.
-/
import Mathlib.Tactic.SplitIfs

variable {ε ε' σ τ α β : Type}

/-- With other errors a value stays a value. -/
theorem mapError_eq_ok_iff {f : ε → ε'} {e : Except ε α} {a : α} :
    e.mapError f = .ok a ↔ e = .ok a := by
  cases e with
  | error e => exact iff_of_false nofun nofun
  | ok b => simp [Except.mapError]

/-- A value comes from a value. -/
theorem bind_eq_ok_iff {e : Except ε α} {f : α → Except ε β} {b : β} :
    e.bind f = .ok b ↔ ∃ a, e = .ok a ∧ f a = .ok b := by
  cases e with
  | error e => exact iff_of_false nofun nofun
  | ok a => exact ⟨fun h => ⟨a, rfl, h⟩, fun ⟨_, ha, h⟩ => Except.ok.inj ha ▸ h⟩

/-- Run a program: its ending and the state after it. -/
def execOn (x : ExceptT ε (StateM σ) α) (s : σ) : Except ε α × σ := x.run.run s

/-- Run a program on a part of the state, with other errors. -/
def onPart (get : σ → τ) (put : τ → σ → σ) (err : ε → ε') (x : ExceptT ε (StateM τ) α) :
    ExceptT ε' (StateM σ) α :=
  fun s => ((execOn x (get s)).1.mapError err, put (execOn x (get s)).2 s)

/-- An ending with a value satisfies `Q`, an ending with an error satisfies `E`. -/
def Ends (Q : α → σ → Prop) (E : ε → σ → Prop) : Except ε α × σ → Prop
  | (.ok a, s) => Q a s
  | (.error e, s) => E e s

/-- What holds of the state after every ending. -/
theorem Ends.state {P : σ → Prop} {result : Except ε α × σ}
    (h : Ends (fun _ => P) (fun _ => P) result) : P result.2 := by
  rcases result with ⟨_ | _, s⟩
  · exact h
  · exact h

/-- From the states with `P`, the program ends as `Q` and `E` say. -/
def Triple (P : σ → Prop) (x : ExceptT ε (StateM σ) α) (Q : α → σ → Prop) (E : ε → σ → Prop) :
    Prop :=
  ∀ s, P s → Ends Q E (execOn x s)

/-- The program keeps a property of the state, however it ends. -/
def Keeps (P : σ → Prop) (x : ExceptT ε (StateM σ) α) : Prop :=
  Triple P x (fun _ => P) fun _ => P

variable {P P' : σ → Prop} {Q Q' : α → σ → Prop} {R : β → σ → Prop} {E E' : ε → σ → Prop}
  {x : ExceptT ε (StateM σ) α} {f : α → ExceptT ε (StateM σ) β}

namespace Triple

/-- From less to more: a stronger condition before, weaker ones after. -/
theorem mono (h : Triple P' x Q' E') (hpre : ∀ s, P s → P' s) (hok : ∀ a s, Q' a s → Q a s)
    (herr : ∀ e s, E' e s → E e s) : Triple P x Q E := by
  intro s hs
  have hend := h s (hpre s hs)
  revert hend
  rcases execOn x s with ⟨_ | _, s'⟩
  · exact herr _ _
  · exact hok _ _

/-- A stronger condition before. -/
theorem pre (h : Triple P' x Q E) (hpre : ∀ s, P s → P' s) : Triple P x Q E :=
  h.mono hpre (fun _ _ h => h) fun _ _ h => h

theorem post (h : Triple P x Q' E) (hok : ∀ a s, Q' a s → Q a s) : Triple P x Q E :=
  h.mono (fun _ h => h) hok fun _ _ h => h

/-- Every program ends somehow. -/
theorem ends (P : σ → Prop) (x : ExceptT ε (StateM σ) α) :
    Triple P x (fun _ _ => True) fun _ _ => True := by
  intro s _
  rcases execOn x s with ⟨_ | _, s'⟩ <;> exact trivial

/-- A value leaves the state as it is. -/
theorem pure (a : α) : Triple (Q a) (pure a : ExceptT ε (StateM σ) α) Q E :=
  fun _ h => h

/-- So does an error. -/
theorem throw (e : ε) : Triple (E e) (throw e : ExceptT ε (StateM σ) α) Q E :=
  fun _ h => h

/-- Of two programs, the second starts where the first one ends with a value. -/
theorem bind (hx : Triple P x Q E) (hf : ∀ a, Triple (Q a) (f a) R E) :
    Triple P (x >>= f) R E := by
  intro s hs
  have hend := hx s hs
  have hrun : execOn (x >>= f) s = match execOn x s with
      | (.ok a, s') => execOn (f a) s'
      | (.error e, s') => (.error e, s') := by
    unfold execOn
    rw [ExceptT.run_bind, StateT.run_bind]
    rcases x.run.run s with ⟨_ | _, s'⟩ <;> rfl
  rw [hrun]
  revert hend
  rcases execOn x s with ⟨_ | a, s'⟩
  · exact id
  · exact hf a s'

/-- Reading gives the state. -/
theorem get : Triple P (get : ExceptT ε (StateM σ) σ) (fun a s => a = s ∧ P s) E :=
  fun _ h => ⟨rfl, h⟩

/-- A change of the state has to bring what is wanted after it. -/
theorem modify (g : σ → σ) :
    Triple (fun s => P (g s)) (modify g : ExceptT ε (StateM σ) Unit) (fun _ => P) E :=
  fun _ h => h

/-- Each branch knows its case. -/
theorem ite {c : Prop} [Decidable c] {y : ExceptT ε (StateM σ) α}
    (hthen : c → Triple P x Q E) (helse : ¬ c → Triple P y Q E) :
    Triple P (if c then x else y) Q E := by
  split_ifs with h
  · exact hthen h
  · exact helse h

/-- A condition that something exists. -/
theorem of_exists {ι : Type} {A : ι → σ → Prop} (h : ∀ i, Triple (A i) x Q E) :
    Triple (fun s => ∃ i, A i s) x Q E :=
  fun s ⟨i, hi⟩ => h i s hi

/-- A program on a part of the state changes this part only. -/
theorem onPart {get : σ → τ} {put : τ → σ → σ} {err : ε' → ε} {y : ExceptT ε' (StateM τ) α}
    {A : τ → Prop} {B : α → τ → Prop} {F : ε' → τ → Prop} (hy : Triple A y B F)
    (hpre : ∀ s, P s → A (get s)) (hok : ∀ a s t, P s → B a t → Q a (put t s))
    (herr : ∀ e s t, P s → F e t → E (err e) (put t s)) :
    Triple P (onPart get put err y) Q E := by
  intro s hs
  have hend := hy (get s) (hpre s hs)
  show Ends Q E ((execOn y (get s)).1.mapError err, put (execOn y (get s)).2 s)
  revert hend
  rcases execOn y (get s) with ⟨_ | a, t⟩
  · exact herr _ s t hs
  · exact hok a s t hs

end Triple

/-! ## What every ending keeps -/

namespace Keeps

theorem pure (a : α) : Keeps P (pure a : ExceptT ε (StateM σ) α) := fun _ h => h

theorem throw (e : ε) : Keeps P (throw e : ExceptT ε (StateM σ) α) := fun _ h => h

/-- Two programs keep what each of them keeps. -/
theorem bind (hx : Keeps P x) (hf : ∀ a, Keeps P (f a)) : Keeps P (x >>= f) := Triple.bind hx hf

/-- What a program keeps is there for the next one, and where it fails. -/
theorem andThen (hx : Keeps P x) (herr : ∀ e s, P s → E e s) (hf : ∀ a, Triple P (f a) R E) :
    Triple P (x >>= f) R E :=
  Triple.bind (hx.mono (fun _ h => h) (fun _ _ h => h) fun e s h => herr e s h) hf

theorem ite {c : Prop} [Decidable c] {y : ExceptT ε (StateM σ) α} (hthen : Keeps P x)
    (helse : Keeps P y) : Keeps P (if c then x else y) :=
  Triple.ite (fun _ => hthen) fun _ => helse

/-- A program that reads the state first keeps what it keeps for every state. -/
theorem of_get {g : σ → ExceptT ε (StateM σ) β} (h : ∀ s, Keeps P (g s)) :
    Keeps P (MonadState.get >>= g) :=
  Triple.bind Triple.get fun a => (h a).pre fun _ hs => hs.2

/-- A change keeps what it is shown to keep. -/
theorem modify {g : σ → σ} (h : ∀ s, P s → P (g s)) :
    Keeps P (modify g : ExceptT ε (StateM σ) Unit) :=
  h

end Keeps
