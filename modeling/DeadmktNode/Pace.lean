/-
# Numberings that change pace

Heights are numbered in runs of one length.  A new pace takes over at a number that the old one
has yet to reach or has just reached, from the first height that the old one gives that number.
Then the numbering as a whole begins with the first number, never decreases and skips no number,
however often the pace changes.
-/
import Mathlib.Order.Bounds.Defs
import Mathlib.Order.Interval.Set.Defs
import Mathlib.Data.List.Chain

/-- From `start` on, runs of `length` heights share a number; the first number is `first`. -/
structure Pace where
  start : ℕ
  first : ℕ
  length : ℕ
  length_pos : 0 < length

namespace Pace

/-- The number of a height. -/
def number (p : Pace) (h : ℕ) : ℕ := p.first + (h - p.start) / p.length

theorem number_start (p : Pace) : p.number p.start = p.first := by
  rw [number, Nat.sub_self, Nat.zero_div, Nat.add_zero]

theorem number_mono (p : Pace) {h h' : ℕ} (hle : h ≤ h') : p.number h ≤ p.number h' :=
  Nat.add_le_add_left (Nat.div_le_div_right (Nat.sub_le_sub_right hle _)) _

/-- One height further is at most one number further. -/
theorem number_succ_le (p : Pace) (h : ℕ) : p.number (h + 1) ≤ p.number h + 1 := by
  have hlength := p.length_pos
  have hle : (h + 1 - p.start) / p.length ≤ (h - p.start + p.length) / p.length :=
    Nat.div_le_div_right (by omega)
  rw [Nat.add_div_right _ hlength] at hle
  unfold number
  omega

/-! ## Runs -/

/-- The first height of a number. -/
def runStart (p : Pace) (n : ℕ) : ℕ := p.start + (n - p.first) * p.length

/-- The place of a height in its run. -/
def place (p : Pace) (h : ℕ) : ℕ := (h - p.start) % p.length

theorem place_lt (p : Pace) (h : ℕ) : p.place h < p.length := Nat.mod_lt _ p.length_pos

theorem first_le_number (p : Pace) (h : ℕ) : p.first ≤ p.number h := Nat.le_add_right _ _

theorem runStart_number_add_place (p : Pace) {h : ℕ} (hh : p.start ≤ h) :
    p.runStart (p.number h) + p.place h = h := by
  have hdiv := Nat.div_add_mod' (h - p.start) p.length
  rw [runStart, number, place, Nat.add_sub_cancel_left]
  omega

/-- A number and a place determine the height. -/
theorem number_eq_and_place_eq_iff (p : Pace) {h n i : ℕ} (hh : p.start ≤ h) (hn : p.first ≤ n)
    (hi : i < p.length) : p.number h = n ∧ p.place h = i ↔ h = p.runStart n + i := by
  constructor
  · rintro ⟨rfl, rfl⟩
    exact (p.runStart_number_add_place hh).symm
  · rintro rfl
    have hsince : p.runStart n + i - p.start = i + p.length * (n - p.first) := by
      rw [runStart, Nat.mul_comm]
      omega
    constructor
    · rw [number, hsince, Nat.add_mul_div_left _ _ p.length_pos, Nat.div_eq_of_lt hi]
      omega
    · rw [place, hsince, Nat.add_mul_mod_self_left, Nat.mod_eq_of_lt hi]

/-- The heights of a number that have their place in an interval are an interval. -/
theorem number_eq_and_place_mem_iff (p : Pace) {h n a b : ℕ} (hh : p.start ≤ h)
    (hn : p.first ≤ n) (hb : b ≤ p.length) :
    p.number h = n ∧ p.place h ∈ Set.Ico a b ↔
      h ∈ Set.Ico (p.runStart n + a) (p.runStart n + b) := by
  rw [Set.mem_Ico, Set.mem_Ico]
  constructor
  · rintro ⟨rfl, hplace⟩
    have hrun := p.runStart_number_add_place hh
    omega
  · rintro ⟨hleft, hright⟩
    obtain ⟨hnumber, hplace⟩ := (p.number_eq_and_place_eq_iff hh hn
      (i := h - p.runStart n) (by omega)).mpr (by omega)
    omega

/-- One height further is one place further, or the first place of the next run. -/
theorem place_succ (p : Pace) {h : ℕ} (hh : p.start ≤ h) :
    p.place (h + 1) = if p.place h + 1 = p.length then 0 else p.place h + 1 := by
  have hlt := p.place_lt h
  have hrun := p.runStart_number_add_place hh
  split_ifs with hlast
  · refine ((p.number_eq_and_place_eq_iff (n := p.number h + 1) (Nat.le_succ_of_le hh)
      (Nat.le_succ_of_le (p.first_le_number h)) p.length_pos).mpr ?_).2
    have hnext : p.runStart (p.number h + 1) = p.runStart (p.number h) + p.length := by
      have hfirst := p.first_le_number h
      rw [runStart, runStart, Nat.succ_sub hfirst, Nat.succ_mul]
      omega
    omega
  · exact ((p.number_eq_and_place_eq_iff (Nat.le_succ_of_le hh) (p.first_le_number h)
      (by omega)).mpr (by omega)).2

/-! ## Taking over -/

/-- `q` takes over from `p` at its first number. -/
structure Follows (p q : Pace) : Prop where
  first_le : p.first ≤ q.first
  start_eq : q.start = p.start + (q.first - p.first) * p.length

section

variable {p q : Pace} (hfollows : Follows p q)

include hfollows

theorem Follows.start_le : p.start ≤ q.start := by
  rw [hfollows.start_eq]
  exact Nat.le_add_right _ _

theorem Follows.number_start : p.number q.start = q.first := by
  rw [number, hfollows.start_eq, Nat.add_sub_cancel_left, Nat.mul_div_cancel _ p.length_pos]
  have := hfollows.first_le
  omega

/-- Before the takeover the old pace has smaller numbers. -/
theorem Follows.number_lt {h : ℕ} (hlt : h < q.start) : p.number h < q.first ∨ h < p.start := by
  rcases Nat.lt_or_ge h p.start with hbefore | hafter
  · exact .inr hbefore
  · left
    have hstart := hfollows.start_eq
    have hdiv : (h - p.start) / p.length < q.first - p.first :=
      (Nat.div_lt_iff_lt_mul p.length_pos).mpr (by omega)
    exact Nat.add_lt_of_lt_sub' hdiv

/-- A pace takes over at the first height that the old one gives its first number. -/
theorem Follows.isLeast_start : IsLeast {h | p.start ≤ h ∧ p.number h = q.first} q.start := by
  refine ⟨⟨hfollows.start_le, hfollows.number_start⟩, ?_⟩
  rintro h ⟨hafter, hnumber⟩
  by_contra hlt
  rcases hfollows.number_lt (Nat.not_le.mp hlt) with hless | hbefore
  · omega
  · omega

/-- A pace that takes over at once begins with the same number. -/
theorem Follows.first_eq (hstart : q.start = p.start) : q.first = p.first := by
  rw [← hfollows.number_start, hstart, Pace.number_start]

end

/-! ## The numbering as a whole -/

/-- The last pace that has started. -/
def current (ps : List Pace) (h : ℕ) : Option Pace := (ps.filter (fun p => p.start ≤ h)).getLast?

theorem filter_started {p : Pace} {h : ℕ} (hp : p.start ≤ h) (ps : List Pace) :
    (p :: ps).filter (fun p => p.start ≤ h) = p :: ps.filter (fun p => p.start ≤ h) :=
  List.filter_cons_of_pos (decide_eq_true hp)

/-- The number that it gives. -/
def numberAt (ps : List Pace) (h : ℕ) : Option ℕ := (current ps h).map (fun p => p.number h)

/-- Each pace takes over from the one before. -/
abbrev Chained (ps : List Pace) : Prop := ps.IsChain Follows

theorem Chained.start_le {p : Pace} {ps : List Pace} (hchain : Chained (p :: ps)) :
    ∀ q ∈ ps, p.start ≤ q.start := by
  induction ps generalizing p with
  | nil => exact fun q hq => absurd hq List.not_mem_nil
  | cons r ps ih =>
      obtain ⟨hfollows, hchain⟩ := List.isChain_cons_cons.mp hchain
      intro q hq
      rcases List.mem_cons.mp hq with rfl | hq
      · exact hfollows.start_le
      · exact hfollows.start_le.trans (ih hchain q hq)

/-- Before the next pace starts the first one numbers. -/
theorem numberAt_of_lt {p q : Pace} {ps : List Pace} (hchain : Chained (p :: q :: ps)) {h : ℕ}
    (hp : p.start ≤ h) (hq : h < q.start) : numberAt (p :: q :: ps) h = some (p.number h) := by
  have hnone : (q :: ps).filter (fun p => p.start ≤ h) = [] := by
    rw [List.filter_eq_nil_iff]
    intro r hr
    have hle : q.start ≤ r.start := by
      rcases List.mem_cons.mp hr with rfl | hr
      · exact le_refl _
      · exact Chained.start_le (List.isChain_cons_cons.mp hchain).2 r hr
    rw [decide_eq_true_eq]
    omega
  rw [numberAt, current, filter_started hp, hnone]
  rfl

/-- From the next start on, the first pace is forgotten. -/
theorem numberAt_of_le {p q : Pace} {ps : List Pace} {h : ℕ} (hq : q.start ≤ h) :
    numberAt (p :: q :: ps) h = numberAt (q :: ps) h := by
  have hne : (q :: ps).filter (fun p => p.start ≤ h) ≠ [] := by
    rw [filter_started hq]
    exact List.cons_ne_nil _ _
  unfold numberAt current
  rw [List.filter_cons]
  split_ifs
  · rw [List.getLast?_cons_of_ne_nil hne]
  · rfl

/-- **First number.** -/
theorem numberAt_start {p : Pace} {ps : List Pace} (hchain : Chained (p :: ps)) :
    numberAt (p :: ps) p.start = some p.first := by
  induction ps generalizing p with
  | nil =>
      rw [numberAt, current, filter_started (le_refl _)]
      exact congrArg some p.number_start
  | cons q ps ih =>
      obtain ⟨hfollows, hrest⟩ := List.isChain_cons_cons.mp hchain
      rcases Nat.lt_or_ge p.start q.start with hlt | hge
      · rw [numberAt_of_lt hchain (le_refl _) hlt, p.number_start]
      · -- the next pace takes over at once
        have hstart : q.start = p.start := Nat.le_antisymm hge hfollows.start_le
        rw [numberAt_of_le hge, ← hstart, ih hrest, hfollows.first_eq hstart]

/-- From its start on every height has a number. -/
theorem exists_numberAt {p : Pace} (ps : List Pace) {h : ℕ} (hp : p.start ≤ h) :
    ∃ n, numberAt (p :: ps) h = some n := by
  have hne : (p :: ps).filter (fun p => p.start ≤ h) ≠ [] := by
    rw [filter_started hp]
    exact List.cons_ne_nil _ _
  rw [numberAt, current, List.getLast?_eq_some_getLast hne]
  exact ⟨_, rfl⟩

/-- **One height further.**  The number stays or goes up by one, also where the pace changes. -/
theorem numberAt_succ {p : Pace} {ps : List Pace} (hchain : Chained (p :: ps)) {h n n' : ℕ}
    (hp : p.start ≤ h) (hn : numberAt (p :: ps) h = some n)
    (hn' : numberAt (p :: ps) (h + 1) = some n') : n ≤ n' ∧ n' ≤ n + 1 := by
  induction ps generalizing p with
  | nil =>
      rw [numberAt, current, filter_started hp] at hn
      rw [numberAt, current, filter_started (Nat.le_succ_of_le hp)] at hn'
      obtain rfl : p.number h = n := Option.some.inj hn
      obtain rfl : p.number (h + 1) = n' := Option.some.inj hn'
      exact ⟨p.number_mono (Nat.le_succ h), p.number_succ_le h⟩
  | cons q ps ih =>
      obtain ⟨hfollows, hrest⟩ := List.isChain_cons_cons.mp hchain
      rcases Nat.lt_or_ge h q.start with hlt | hge
      · rw [numberAt_of_lt hchain hp hlt] at hn
        obtain rfl := Option.some.inj hn
        -- at its start the next pace still agrees with the old one
        have hnext : p.number (h + 1) = n' := by
          rcases Nat.lt_or_ge (h + 1) q.start with hlt' | hge'
          · rw [numberAt_of_lt hchain (Nat.le_succ_of_le hp) hlt'] at hn'
            exact Option.some.inj hn'
          · have hstart : h + 1 = q.start := by omega
            rw [numberAt_of_le hge', hstart, numberAt_start hrest] at hn'
            rw [hstart, hfollows.number_start]
            exact Option.some.inj hn'
        rw [← hnext]
        exact ⟨p.number_mono (Nat.le_succ h), p.number_succ_le h⟩
      · rw [numberAt_of_le hge] at hn
        rw [numberAt_of_le (Nat.le_succ_of_le hge)] at hn'
        exact ih hrest hge hn hn'

/-- **Monotonicity.** -/
theorem numberAt_mono {p : Pace} {ps : List Pace} (hchain : Chained (p :: ps)) {h h' n n' : ℕ}
    (hp : p.start ≤ h) (hle : h ≤ h') (hn : numberAt (p :: ps) h = some n)
    (hn' : numberAt (p :: ps) h' = some n') : n ≤ n' := by
  induction h', hle using Nat.le_induction generalizing n' with
  | base =>
      rw [hn] at hn'
      exact (Option.some.inj hn').le
  | succ k hk ih =>
      obtain ⟨m, hm⟩ := exists_numberAt ps (hp.trans hk)
      exact (ih hm).trans (numberAt_succ hchain (hp.trans hk) hm hn').1

end Pace
