/-
# Sequence numbers of the node's account

Three tasks submit transactions from one account.  The settlement worker and the token worker
(and auto-claim, which does the same once) take `tx_lock`; the settlement worker keeps the next
number to itself when it gives the lock back.  Heartbeat and reactivate of the main loop take no
lock.  The chain accepts what is submitted and includes it later, in the order of the numbers;
the number that it answers with counts what it has included.

No number is used twice exactly if every task submits with a fresh number: at its last fetch
nothing was waiting for inclusion, and since then no other task has submitted
(`TxState.accepted_nodup_iff`).
-/
import DeadmktNode.Runs
import Mathlib.Data.List.Nodup
import Mathlib.Data.List.Range

/-- The tasks that submit transactions. -/
inductive TxTask where
  | settlement
  | token
  | main
deriving DecidableEq, Repr

/-- Who holds `tx_lock`. -/
inductive TxLock where
  | free
  /-- the settlement worker, with the number that it submits with, once it has one -/
  | settlement (seq : Option ℕ)
  /-- the token worker, with the number that it submits with, once it has one -/
  | token (seq : Option ℕ)
  /-- the token worker, waiting for the inclusion of its transaction -/
  | waiting (seq : ℕ)
deriving DecidableEq, Repr

structure TxState where
  /-- the sequence number of the account on the chain -/
  included : ℕ
  /-- the numbers of all transactions that were accepted from the account -/
  accepted : List ℕ
  /-- `next_seq` of the settlement worker -/
  nextSeq : Option ℕ
  lock : TxLock
  /-- the number fetched by heartbeat or reactivate -/
  main : Option ℕ
deriving DecidableEq, Repr

/-- What a task or the chain does next. -/
inductive TxStep where
  /-- the chain includes the transaction with the next number -/
  | inclusion
  | settleLock
  | settleFetch
  | settleSubmit
  | settleFail
  | tokenLock
  | tokenFetch
  | tokenSubmit
  /-- the transaction was included -/
  | tokenDone
  /-- it was not in half a minute -/
  | tokenTimeout
  | tokenFail
  | mainFetch
  | mainSubmit
  | mainFail
deriving DecidableEq, Repr

/-- What the account sees of a step. -/
inductive TxEvent where
  /-- a task fetches the number; was there nothing waiting for inclusion? -/
  | fetched (task : TxTask) (quiet : Bool)
  | submitted (task : TxTask)
deriving DecidableEq, Repr

namespace TxState

/-- The node at start-up; the account has `n` transactions, all included. -/
def start (n : ℕ) : TxState := ⟨n, List.range n, none, .free, none⟩

/-- The chain accepts a transaction. -/
def accept (n : TxState) (seq : ℕ) : TxState := { n with accepted := n.accepted ++ [seq] }

/-- The state after a step, if it can be taken. -/
def step (n : TxState) : TxStep → Option TxState
  | .inclusion =>
      if n.included ∈ n.accepted then some { n with included := n.included + 1 } else none
  -- the settlement worker: it fetches only when it has no `next_seq` of its own
  | .settleLock =>
      match n.lock with
      | .free => some { n with lock := .settlement n.nextSeq }
      | _ => none
  | .settleFetch =>
      match n.lock with
      | .settlement none => some { n with lock := .settlement (some n.included) }
      | _ => none
  | .settleSubmit =>
      match n.lock with
      | .settlement (some seq) =>
          some { n.accept seq with nextSeq := some (seq + 1), lock := .free }
      | _ => none
  | .settleFail =>
      match n.lock with
      | .settlement _ => some { n with nextSeq := none, lock := .free }
      | _ => none
  -- the token worker fetches every time, and holds the lock while it waits
  | .tokenLock =>
      match n.lock with
      | .free => some { n with lock := .token none }
      | _ => none
  | .tokenFetch =>
      match n.lock with
      | .token none => some { n with lock := .token (some n.included) }
      | _ => none
  | .tokenSubmit =>
      match n.lock with
      | .token (some seq) => some { n.accept seq with lock := .waiting seq }
      | _ => none
  | .tokenDone =>
      match n.lock with
      | .waiting seq => if seq < n.included then some { n with lock := .free } else none
      | _ => none
  | .tokenTimeout =>
      match n.lock with
      | .waiting _ => some { n with lock := .free }
      | _ => none
  | .tokenFail =>
      match n.lock with
      | .token _ => some { n with lock := .free }
      | _ => none
  -- heartbeats and reactivation go without the lock
  | .mainFetch =>
      match n.main with
      | none => some { n with main := some n.included }
      | some _ => none
  | .mainSubmit =>
      match n.main with
      | some seq => some { n.accept seq with main := none }
      | none => none
  | .mainFail =>
      match n.main with
      | some _ => some { n with main := none }
      | none => none

def system : System TxState TxStep := ⟨step⟩

/-- The task that submits in a step. -/
def submitter : TxStep → Option TxTask
  | .settleSubmit => some .settlement
  | .tokenSubmit => some .token
  | .mainSubmit => some .main
  | _ => none

/-- The task that fetches in a step. -/
def fetcher : TxStep → Option TxTask
  | .settleFetch => some .settlement
  | .tokenFetch => some .token
  | .mainFetch => some .main
  | _ => none

def event (n : TxState) (i : TxStep) : Option TxEvent :=
  ((fetcher i).map fun t => .fetched t (n.included = n.accepted.length)).or
    ((submitter i).map .submitted)

/-- The number that a task has and may submit with. -/
def held (n : TxState) : TxTask → Option ℕ
  | .settlement =>
      match n.lock with
      | .settlement seq => seq
      | _ => n.nextSeq
  | .token =>
      match n.lock with
      | .token seq => seq
      | _ => none
  | .main => n.main

/-! ## Fresh numbers -/

/-- A fetch gives a fresh number if nothing was waiting; a submission of another task makes it
stale. -/
def refresh (t : TxTask) (fresh : Bool) : TxEvent → Bool
  | .fetched u quiet => if u = t then quiet else fresh
  | .submitted u => if u = t then fresh else false

/-- At the last fetch of the task nothing was waiting for inclusion, and since then no other
task has submitted. -/
def Fresh (events : List TxEvent) (t : TxTask) : Bool := events.foldl (refresh t) false

/-- A task that submits has a fresh number. -/
def SubmitsFresh (events : List TxEvent) (_ : TxState) (i : TxStep) : Prop :=
  ∀ t, submitter i = some t → Fresh events t = true

instance (events : List TxEvent) (n : TxState) (i : TxStep) :
    Decidable (SubmitsFresh events n i) :=
  match h : submitter i with
  | none => isTrue fun t ht => by rw [h] at ht; cases ht
  | some t => decidable_of_iff (Fresh events t = true)
      ⟨fun hf u hu => Option.some.inj (h.symm.trans hu) ▸ hf, fun hall => hall t h⟩

theorem fresh_snoc (events : List TxEvent) (e : TxEvent) (t : TxTask) :
    Fresh (events ++ [e]) t = refresh t (Fresh events t) e := by
  unfold Fresh
  rw [List.foldl_append]
  rfl

/-! ## What one step does -/

/-- A task that does not submit leaves the numbers alone, drops one or fetches one; one that
submits uses its own, and the settlement worker counts on from it. -/
theorem step_cases {n n' : TxState} {i : TxStep} (h : n.step i = some n') :
    (n.event i = none ∧ n'.accepted = n.accepted ∧
        (n'.included = n.included ∨ n.included ∈ n.accepted ∧ n'.included = n.included + 1) ∧
        ∀ t, n'.held t = n.held t ∨ n'.held t = none) ∨
      (∃ t, submitter i = none ∧
        n.event i = some (.fetched t (n.included = n.accepted.length)) ∧
        n'.accepted = n.accepted ∧ n'.included = n.included ∧
        n'.held t = some n.included ∧ ∀ u, u ≠ t → n'.held u = n.held u) ∨
      (∃ t seq, submitter i = some t ∧ n.event i = some (.submitted t) ∧ n.held t = some seq ∧
        n'.accepted = n.accepted ++ [seq] ∧ n'.included = n.included ∧
        (n'.held t = none ∨ n'.held t = some (seq + 1)) ∧
        ∀ u, u ≠ t → n'.held u = n.held u) := by
  unfold step at h
  cases i with
  | inclusion =>
      dsimp only at h
      split_ifs at h with haccepted
      obtain rfl := Option.some.inj h
      exact .inl ⟨rfl, rfl, .inr ⟨haccepted, rfl⟩, fun t => .inl (by cases t <;> rfl)⟩
  -- locks and failures: a number may be given up
  | settleLock | tokenLock | settleFail | tokenTimeout | tokenFail | mainFail =>
      dsimp only at h
      split at h <;> cases h
      rename_i heq
      exact .inl ⟨rfl, rfl, .inl rfl, fun t => by cases t <;> simp [held, heq]⟩
  | tokenDone =>
      dsimp only at h
      split at h
      · rename_i heq
        split_ifs at h
        obtain rfl := Option.some.inj h
        exact .inl ⟨rfl, rfl, .inl rfl, fun t => .inl (by cases t <;> simp [held, heq])⟩
      · cases h
  -- fetches
  | settleFetch =>
      dsimp only at h
      split at h <;> cases h
      rename_i heq
      refine .inr (.inl ⟨.settlement, rfl, rfl, rfl, rfl, rfl, fun u hu => ?_⟩)
      cases u <;> simp_all [held]
  | tokenFetch =>
      dsimp only at h
      split at h <;> cases h
      rename_i heq
      refine .inr (.inl ⟨.token, rfl, rfl, rfl, rfl, rfl, fun u hu => ?_⟩)
      cases u <;> simp_all [held]
  | mainFetch =>
      dsimp only at h
      split at h <;> cases h
      refine .inr (.inl ⟨.main, rfl, rfl, rfl, rfl, rfl, fun u hu => ?_⟩)
      cases u <;> simp_all [held]
  -- submissions: the worker goes on with the next number, the others drop theirs
  | settleSubmit =>
      dsimp only at h
      split at h <;> cases h
      rename_i seq heq
      refine .inr (.inr ⟨.settlement, seq, rfl, rfl, by simp [held, heq], rfl, rfl, .inr rfl,
        fun u hu => ?_⟩)
      cases u <;> simp_all [held, accept]
  | tokenSubmit =>
      dsimp only at h
      split at h <;> cases h
      rename_i seq heq
      refine .inr (.inr ⟨.token, seq, rfl, rfl, by simp [held, heq], rfl, rfl, .inl rfl,
        fun u hu => ?_⟩)
      cases u <;> simp_all [held, accept]
  | mainSubmit =>
      dsimp only at h
      split at h <;> cases h
      rename_i seq heq
      refine .inr (.inr ⟨.main, seq, rfl, rfl, heq, rfl, rfl, .inl rfl, fun u hu => ?_⟩)
      cases u <;> simp_all [held, accept]

/-! ## The invariant -/

/-- Which numbers are accepted, which a task can have, and when it is the next one. -/
structure Numbered (events : List TxEvent) (n : TxState) : Prop where
  included : ∀ k < n.included, k ∈ n.accepted
  held : ∀ t seq, n.held t = some seq → ∀ k < seq, k ∈ n.accepted
  ordered : n.accepted.Nodup → n.accepted = List.range n.accepted.length
  /-- a number is fresh exactly if it is the next one -/
  fresh : n.accepted.Nodup → ∀ t seq, n.held t = some seq →
    seq ≤ n.accepted.length ∧ (Fresh events t = true ↔ seq = n.accepted.length)

theorem numbered_start (k : ℕ) : Numbered [] (start k) where
  included j hj := List.mem_range.mpr hj
  held t seq h := by cases t <;> cases h
  ordered _ := by rw [start, List.length_range]
  fresh _ t seq h := by cases t <;> cases h

section

variable {events : List TxEvent} {n n' : TxState} {i : TxStep}

/-- What is below a list without gaps and repetitions is at most its length. -/
theorem le_length_of_below {as : List ℕ} (h : as = List.range as.length) {k : ℕ}
    (hbelow : ∀ j < k, j ∈ as) : k ≤ as.length := by
  by_contra hlt
  have := hbelow as.length (by omega)
  rw [h, List.mem_range, List.length_range] at this
  omega

/-- One more number makes no repetition exactly if it is the next one. -/
theorem nodup_snoc_iff {as : List ℕ} (h : as = List.range as.length) {seq : ℕ}
    (hle : seq ≤ as.length) : (as ++ [seq]).Nodup ↔ seq = as.length := by
  have hnodup : as.Nodup := h ▸ List.nodup_range
  rw [List.nodup_append]
  constructor
  · rintro ⟨-, -, hdisjoint⟩
    by_contra hne
    have hmem : seq ∈ as := by
      rw [h, List.mem_range]
      omega
    exact hdisjoint seq hmem seq List.mem_cons_self rfl
  · rintro rfl
    refine ⟨hnodup, List.nodup_singleton _, fun a ha b hb => ?_⟩
    rw [h, List.mem_range] at ha
    rw [List.mem_singleton] at hb
    omega

/-- A step without a fetch or a submission: no task gets a number. -/
theorem Numbered.quiet (h : Numbered events n) (haccepted : n'.accepted = n.accepted)
    (hincluded : n'.included = n.included ∨
      n.included ∈ n.accepted ∧ n'.included = n.included + 1)
    (hheld : ∀ t, n'.held t = n.held t ∨ n'.held t = none) : Numbered events n' := by
  have hold : ∀ {t seq}, n'.held t = some seq → n.held t = some seq := by
    intro t seq hseq
    rcases hheld t with hsame | hnone
    · rwa [hsame] at hseq
    · rw [hnone] at hseq
      cases hseq
  constructor
  · intro k hk
    rw [haccepted]
    rcases hincluded with hsame | ⟨hmem, hsucc⟩
    · exact h.included k (hsame ▸ hk)
    · rcases Nat.lt_succ_iff_lt_or_eq.mp (hsucc ▸ hk) with hlt | rfl
      · exact h.included k hlt
      · exact hmem
  · intro t seq hseq
    rw [haccepted]
    exact h.held t seq (hold hseq)
  · rw [haccepted]
    exact h.ordered
  · rw [haccepted]
    exact fun hnodup t seq hseq => h.fresh hnodup t seq (hold hseq)

/-- A fetch: the number is fresh if everything that was accepted is included. -/
theorem Numbered.fetched (h : Numbered events n) {t : TxTask}
    (haccepted : n'.accepted = n.accepted) (hincluded : n'.included = n.included)
    (ht : n'.held t = some n.included) (hother : ∀ u, u ≠ t → n'.held u = n.held u) :
    Numbered (events ++ [.fetched t (n.included = n.accepted.length)]) n' := by
  constructor
  · rw [haccepted, hincluded]
    exact h.included
  · intro u seq hseq
    rw [haccepted]
    by_cases hu : u = t
    · rw [hu, ht] at hseq
      obtain rfl := Option.some.inj hseq
      exact h.included
    · rw [hother u hu] at hseq
      exact h.held u seq hseq
  · rw [haccepted]
    exact h.ordered
  · rw [haccepted]
    intro hnodup u seq hseq
    rw [fresh_snoc]
    by_cases hu : u = t
    · subst hu
      rw [ht] at hseq
      obtain rfl := Option.some.inj hseq
      rw [refresh, if_pos rfl, decide_eq_true_eq]
      exact ⟨le_length_of_below (h.ordered hnodup) h.included, Iff.rfl⟩
    · rw [hother u hu] at hseq
      rw [refresh, if_neg (Ne.symm hu)]
      exact h.fresh hnodup u seq hseq

/-- A submission without a repetition used the next number. -/
theorem Numbered.next_of_nodup (h : Numbered events n) {t : TxTask} {seq : ℕ}
    (ht : n.held t = some seq) (hnodup : (n.accepted ++ [seq]).Nodup) :
    n.accepted.Nodup ∧ seq = n.accepted.length := by
  have hold : n.accepted.Nodup := (List.nodup_append.mp hnodup).1
  have hle := (h.fresh hold t seq ht).1
  exact ⟨hold, (nodup_snoc_iff (h.ordered hold) hle).mp hnodup⟩

/-- A submission: the number of the task is used, and stale for all others. -/
theorem Numbered.submitted (h : Numbered events n) {t : TxTask} {seq : ℕ}
    (ht : n.held t = some seq) (haccepted : n'.accepted = n.accepted ++ [seq])
    (hincluded : n'.included = n.included)
    (hafter : n'.held t = none ∨ n'.held t = some (seq + 1))
    (hother : ∀ u, u ≠ t → n'.held u = n.held u) :
    Numbered (events ++ [.submitted t]) n' := by
  have hmem : ∀ {k}, k ∈ n.accepted → k ∈ n'.accepted := by
    intro k hk
    rw [haccepted]
    exact List.mem_append_left _ hk
  -- what the task keeps is the number that follows
  have hkept : ∀ {seq'}, n'.held t = some seq' → seq' = seq + 1 := by
    intro seq' hseq'
    rcases hafter with hnone | hsucc
    · rw [hnone] at hseq'
      cases hseq'
    · rw [hsucc] at hseq'
      exact (Option.some.inj hseq').symm
  constructor
  · intro k hk
    exact hmem (h.included k (hincluded ▸ hk))
  · intro u seq' hseq' k hk
    by_cases hu : u = t
    · rw [hu] at hseq'
      rw [hkept hseq'] at hk
      rcases Nat.lt_succ_iff_lt_or_eq.mp hk with hlt | rfl
      · exact hmem (h.held t seq ht k hlt)
      · rw [haccepted]
        exact List.mem_append_right _ List.mem_cons_self
    · rw [hother u hu] at hseq'
      exact hmem (h.held u seq' hseq' k hk)
  · intro hnodup
    obtain ⟨hold, hseq⟩ := h.next_of_nodup ht (haccepted ▸ hnodup)
    rw [haccepted, List.length_append, List.length_singleton, List.range_succ,
      ← h.ordered hold, hseq]
  · intro hnodup u seq' hseq'
    obtain ⟨hold, hseq⟩ := h.next_of_nodup ht (haccepted ▸ hnodup)
    rw [fresh_snoc, haccepted, List.length_append, List.length_singleton]
    by_cases hu : u = t
    · subst hu
      have hsucc := hkept hseq'
      have hfresh := (h.fresh hold u seq ht).2.mpr hseq
      rw [refresh, if_pos rfl]
      exact ⟨by omega, iff_of_true hfresh (by omega)⟩
    · rw [hother u hu] at hseq'
      have hle := (h.fresh hold u seq' hseq').1
      rw [refresh, if_neg (Ne.symm hu)]
      exact ⟨by omega, iff_of_false Bool.false_ne_true (by omega)⟩

/-- **Step.**  Every step preserves the invariant. -/
theorem Numbered.step (h : Numbered events n) (hstep : n.step i = some n') :
    Numbered (events ++ (n.event i).toList) n' := by
  rcases step_cases hstep with ⟨hevent, haccepted, hincluded, hheld⟩
    | ⟨t, -, hevent, haccepted, hincluded, ht, hother⟩
    | ⟨t, seq, -, hevent, ht, haccepted, hincluded, hafter, hother⟩
  · rw [hevent, Option.toList_none, List.append_nil]
    exact h.quiet haccepted hincluded hheld
  · rw [hevent, Option.toList_some]
    exact h.fetched haccepted hincluded ht hother
  · rw [hevent, Option.toList_some]
    exact h.submitted ht haccepted hincluded hafter hother

/-- After a step no number is used twice exactly if a task that submitted had a fresh one. -/
theorem nodup_step_iff (h : Numbered events n) (hnodup : n.accepted.Nodup)
    (hstep : n.step i = some n') : n'.accepted.Nodup ↔ SubmitsFresh events n i := by
  have hquiet : submitter i = none → n'.accepted = n.accepted →
      (n'.accepted.Nodup ↔ SubmitsFresh events n i) := by
    intro hnone haccepted
    rw [haccepted]
    refine iff_of_true hnodup fun t ht => ?_
    rw [hnone] at ht
    cases ht
  rcases step_cases hstep with ⟨hevent, haccepted, -, -⟩ | ⟨t, hnone, -, haccepted, -⟩
    | ⟨t, seq, hsubmits, -, ht, haccepted, -⟩
  · refine hquiet ?_ haccepted
    unfold event at hevent
    cases hsubmits : submitter i with
    | none => rfl
    | some t => rw [hsubmits] at hevent; cases i <;> cases hevent
  · exact hquiet hnone haccepted
  · obtain ⟨hle, hfresh⟩ := h.fresh hnodup t seq ht
    rw [haccepted, nodup_snoc_iff (h.ordered hnodup) hle, ← hfresh]
    constructor
    · intro hf u hu
      rw [hsubmits] at hu
      obtain rfl := Option.some.inj hu
      exact hf
    · intro hall
      exact hall t hsubmits

end

/-- **Sequence numbers.**  In a run of the tasks and the chain no number is used twice, at any
point, if and only if every task that submits has a fresh number. -/
theorem accepted_nodup_iff (k : ℕ) {is : List TxStep} {n : TxState}
    (hrun : system.run (start k) is = some n) :
    system.Always (fun n' => n'.accepted.Nodup) (start k) is
      ↔ system.FollowsSince event SubmitsFresh [] (start k) is :=
  system.throughout_iff_followsSince event (fun _ _ _ _ h hstep => h.step hstep)
    (fun _ _ _ _ h hnodup hstep => nodup_step_iff h hnodup hstep) (numbered_start k)
    List.nodup_range hrun

/-! ## Collisions -/

/-- The settlement worker caches the number that the token worker then uses. -/
def cachedCollision : List TxStep :=
  [.settleLock, .settleFetch, .settleSubmit, .inclusion,
    .tokenLock, .tokenFetch, .tokenSubmit, .inclusion, .tokenDone, .settleLock, .settleSubmit]

/-- Reactivate follows on a heartbeat that is not yet included. -/
def heartbeatCollision : List TxStep := [.mainFetch, .mainSubmit, .mainFetch, .mainSubmit]

/-- The main loop submits between the fetch and the submission of the lock's holder. -/
def locklessCollision : List TxStep :=
  [.tokenLock, .tokenFetch, .mainFetch, .mainSubmit, .tokenSubmit]

theorem numbers_are_reused :
    ¬ system.Always (fun n' => n'.accepted.Nodup) (start 5) cachedCollision ∧
      ¬ system.Always (fun n' => n'.accepted.Nodup) (start 5) heartbeatCollision ∧
      ¬ system.Always (fun n' => n'.accepted.Nodup) (start 5) locklessCollision := by
  refine ⟨fun h => ?_, fun h => ?_, fun h => ?_⟩
  · exact absurd (h _ (List.prefix_refl _) _ rfl) (by decide)
  · exact absurd (h _ (List.prefix_refl _) _ rfl) (by decide)
  · exact absurd (h _ (List.prefix_refl _) _ rfl) (by decide)

/-- Two settlements in a row, their inclusion, and a token action: no number is used twice. -/
theorem settlements_then_token :
    system.Always (fun n' => n'.accepted.Nodup) (start 5)
      [.settleLock, .settleFetch, .settleSubmit, .settleLock, .settleSubmit, .inclusion,
        .inclusion, .tokenLock, .tokenFetch, .tokenSubmit, .inclusion, .tokenDone] :=
  (accepted_nodup_iff 5 rfl).mpr (by decide)

end TxState
