/-
# Reveal safety of the validation crate

The validator over its whole life: the messages of one batch, a reset, the messages of the
next.  Beside it runs the log of the messages that were accepted since the last reset.
`RevealSafe` relates log and validator: what is stored belongs to the batch and was accepted,
a hash is revealed exactly when a reveal of it is in the log, and every reveal in the log has
its commit before it.  Every call preserves it (`RevealSafe.message`, `revealSafe_reset`), so
it holds at all times.
-/
import DeadmktNode.CommitEvidence

namespace GossipValidation

/-! ## Calls -/

/-- A message, or the start of a new batch. -/
inductive Call where
  | message (i : GossipValidator.Input)
  | reset (newContext : ValidationContext)

/-- The accepted messages since the last reset, after one more call that was accepted. -/
def Call.record (log : List GossipValidator.Input) : Call → List GossipValidator.Input
  | .message i => log ++ [i]
  | .reset _ => []

namespace GossipValidator

/-- The hash of the order that a message reveals. -/
def Input.revealedHash [Externals] : Input → Option Hash32
  | .reveal r => some (orderHash r.order)
  | _ => none

/-- The hash that a message commits to. -/
def Input.committedHash : Input → Option Hash32
  | .commit c => some c.hash
  | _ => none

variable {P R B : Type} [Externals] [PubkeyProvider P] [RegistrationProvider R]
  [BlockedProvider B]

/-- Is the answer to the message that it is accepted? -/
def accepts (v : GossipValidator P R B) : Input → Bool
  | .commit c => (v.validateCommit c).any fun a => a.1 = .accepted
  | .reveal r => (v.validateReveal r).any fun a => a.1 = .accepted
  | .batchComplete m => (v.validateBatchComplete m).any fun a => a.1 = .accepted

/-- The validator after a call. -/
def call (v : GossipValidator P R B) : Call → Option (GossipValidator P R B)
  | .message i => v.step i
  | .reset newContext => some (v.resetForNewBatch newContext)

/-- A call that is accepted; a reset always is. -/
def accepted (v : GossipValidator P R B) : Call → Option Call
  | .message i => if v.accepts i then some (.message i) else none
  | .reset newContext => some (.reset newContext)

/-- The validator from its creation on. -/
def lifetime : System (GossipValidator P R B) Call := ⟨call⟩

/-- The messages that were accepted since the last reset, in order. -/
def acceptedSinceReset (v : GossipValidator P R B) (calls : List Call) : List Input :=
  (lifetime.trace accepted v calls).foldl Call.record []

/-! ## What one message does -/

section

variable {v v' : GossipValidator P R B} {i : Input}

/-- A message stores an authentic commit, marks a reveal that is waited for, or touches only
quotas and `BatchComplete`s. -/
theorem step_cases (h : v.step i = some v') :
    (∃ c, i = .commit c ∧ v.accepts i = true ∧ v.toSettings.Authentic c ∧
        v.pendingCommits.lookup c.hash = none ∧
        v' = { v with
          quotaTracker := v.tracked c
          pendingCommits := v.pendingCommits.insert c.hash
            (CommitRecord.mk c.batchId c.poolId c.hash c.nftId c.signature false) }) ∨
      (∃ r, i = .reveal r ∧ v.accepts i = true ∧ v.toSettings.AuthenticReveal r ∧
        v.Awaits r.order.nftId (orderHash r.order) ∧ v' = v.markRevealed (orderHash r.order)) ∨
      ((v.accepts i = false ∨ ∃ m, i = .batchComplete m) ∧
        ∃ tracker seen, v' = { v with quotaTracker := tracker, batchCompleteSeen := seen }) := by
  cases i with
  | commit c =>
      obtain ⟨a, ha, rfl⟩ := Option.map_eq_some_iff.mp h
      have haccepts : v.accepts (.commit c) = decide (a.1 = .accepted) := by
        rw [accepts, ha, Option.any_some]
      rcases validateCommit_cases ha with ⟨hauth, rfl⟩ | ⟨-, hsame, reason, hreason⟩
      · rw [recordCommit_eq] at haccepts ⊢
        -- granted but a duplicate, accepted, over quota
        split_ifs at haccepts ⊢ with hquota hpending
        · exact .inr (.inr ⟨.inl haccepts, _, _, rfl⟩)
        · exact .inl ⟨c, rfl, haccepts, hauth, Option.not_isSome_iff_eq_none.mp hpending, rfl⟩
        · exact .inr (.inr ⟨.inl haccepts, _, _, rfl⟩)
      · rw [hreason] at haccepts
        exact .inr (.inr ⟨.inl haccepts, _, _, hsame⟩)
  | reveal r =>
      obtain ⟨a, ha, rfl⟩ := Option.map_eq_some_iff.mp h
      have haccepts : v.accepts (.reveal r) = decide (a.1 = .accepted) := by
        rw [accepts, ha, Option.any_some]
      rcases validateReveal_cases ha with ⟨hauth, hawaits, rfl⟩ | ⟨-, hrefused, hsame⟩
      · exact .inr (.inl ⟨r, rfl, haccepts, hauth, hawaits, rfl⟩)
      · exact .inr (.inr ⟨.inl (haccepts.trans (decide_eq_false hrefused)), _, _, hsame⟩)
  | batchComplete m =>
      obtain ⟨a, ha, rfl⟩ := Option.map_eq_some_iff.mp h
      obtain ⟨seen, hseen⟩ := validateBatchComplete_frame ha
      exact .inr (.inr ⟨.inr ⟨m, rfl⟩, _, seen, hseen⟩)

end

/-! ## The invariant -/

/-- A log of accepted messages and the validator after them. -/
structure RevealSafe (log : List Input) (v : GossipValidator P R B) : Prop where
  /-- only committed hashes are revealed -/
  known : ∀ hash ∈ v.revealedHashes, hash ∈ v.pendingCommits
  /-- every record is that of its hash, of this batch and pool, and was accepted -/
  stored : ∀ hash commit, v.pendingCommits.lookup hash = some commit →
    commit.hash = hash ∧ commit.batchId = v.context.currentBatchId ∧
      commit.poolId = v.context.myPoolId ∧
      .commit ⟨commit.batchId, commit.poolId, commit.hash, commit.nftId, commit.signature⟩ ∈ log
  flagged : ∀ hash commit, v.pendingCommits.lookup hash = some commit →
    (commit.revealed = true ↔ hash ∈ v.revealedHashes)
  /-- every accepted commit is authentic, and its hash is held -/
  commits : ∀ c, .commit c ∈ log → v.toSettings.Authentic c ∧ c.hash ∈ v.pendingCommits
  /-- every accepted reveal is signed and has the commit of its NFT before it -/
  committed : ∀ before r after, log = before ++ .reveal r :: after →
    v.toSettings.AuthenticReveal r ∧
      ∃ c, .commit c ∈ before ∧ c.nftId = r.order.nftId ∧ c.hash = orderHash r.order
  revealed : ∀ hash, hash ∈ v.revealedHashes ↔ hash ∈ log.filterMap Input.revealedHash
  /-- no hash is accepted twice -/
  once : (log.filterMap Input.revealedHash).Nodup ∧ (log.filterMap Input.committedHash).Nodup

section

variable {log : List Input} {v v' : GossipValidator P R B}

theorem revealSafe_nil {s : Settings P R B} {tracker : CommitQuotaTracker}
    {seen : Finset (UInt64 × Bytes)} :
    RevealSafe [] { s with
      pendingCommits := ∅
      quotaTracker := tracker
      revealedHashes := ∅
      batchCompleteSeen := seen : GossipValidator P R B } where
  known hash h := absurd h (Finset.notMem_empty hash)
  stored _ _ h := by cases h
  flagged _ _ h := by cases h
  commits _ h := absurd h List.not_mem_nil
  committed before r after h := by cases before <;> cases h
  revealed hash := by simp
  once := ⟨List.nodup_nil, List.nodup_nil⟩

/-- Quotas and `BatchComplete`s do not matter. -/
theorem RevealSafe.frame (h : RevealSafe log v) (tracker : CommitQuotaTracker)
    (seen : Finset (UInt64 × Bytes)) :
    RevealSafe log { v with quotaTracker := tracker, batchCompleteSeen := seen } :=
  ⟨h.known, h.stored, h.flagged, h.commits, h.committed, h.revealed, h.once⟩

/-- What holds of every reveal in the log stays true when no reveal is added. -/
theorem RevealSafe.committed_snoc (h : RevealSafe log v) {i : Input} (hi : ∀ r, i ≠ .reveal r)
    (before : List Input) (r : Reveal) (after : List Input)
    (hsplit : log ++ [i] = before ++ .reveal r :: after) :
    v.toSettings.AuthenticReveal r ∧
      ∃ c, .commit c ∈ before ∧ c.nftId = r.order.nftId ∧ c.hash = orderHash r.order := by
  rcases System.snoc_eq_append_cons_iff.mp hsplit with ⟨-, -, hlast⟩ | ⟨rest, -, hlog⟩
  · exact absurd hlast (hi r)
  · exact h.committed before r rest hlog

theorem RevealSafe.batchComplete (h : RevealSafe log v) (m : BatchComplete) :
    RevealSafe (log ++ [.batchComplete m]) v where
  known := h.known
  stored hash commit hcommit := by
    obtain ⟨hhash, hbatch, hpool, hmem⟩ := h.stored hash commit hcommit
    exact ⟨hhash, hbatch, hpool, List.mem_append_left _ hmem⟩
  flagged := h.flagged
  commits c hc := by
    apply h.commits c
    simpa using hc
  committed := h.committed_snoc fun r hr => by cases hr
  revealed hash := by
    rw [System.filterMap_snoc_none (by rfl)]
    exact h.revealed hash
  once := by
    rw [System.filterMap_snoc_none (by rfl), System.filterMap_snoc_none (by rfl)]
    exact h.once

/-- An accepted commit. -/
theorem RevealSafe.commit (h : RevealSafe log v) {c : Commit} (hauth : v.toSettings.Authentic c)
    (hfree : v.pendingCommits.lookup c.hash = none) (tracker : CommitQuotaTracker) :
    RevealSafe (log ++ [.commit c]) { v with
      quotaTracker := tracker
      pendingCommits := v.pendingCommits.insert c.hash
        (CommitRecord.mk c.batchId c.poolId c.hash c.nftId c.signature false) } := by
  have hnew : c.hash ∉ v.pendingCommits := AList.lookup_eq_none.mp hfree
  refine ⟨?known, ?stored, ?flagged, ?commits, ?committed, ?revealed, ?once⟩
  case known =>
    intro hash hrevealed
    exact (AList.mem_insert _).mpr (.inr (h.known hash hrevealed))
  case stored =>
    intro hash commit hcommit
    by_cases hhash : hash = c.hash
    · subst hhash
      obtain rfl := Option.some.inj ((AList.lookup_insert _).symm.trans hcommit)
      exact ⟨rfl, hauth.1, hauth.2.1, List.mem_append_right _ List.mem_cons_self⟩
    · obtain ⟨hstored, hbatch, hpool, hmem⟩ :=
        h.stored hash commit ((AList.lookup_insert_ne hhash).symm.trans hcommit)
      exact ⟨hstored, hbatch, hpool, List.mem_append_left _ hmem⟩
  case flagged =>
    intro hash commit hcommit
    by_cases hhash : hash = c.hash
    · subst hhash
      obtain rfl := Option.some.inj ((AList.lookup_insert _).symm.trans hcommit)
      exact iff_of_false Bool.false_ne_true fun hrevealed => hnew (h.known _ hrevealed)
    · exact h.flagged hash commit ((AList.lookup_insert_ne hhash).symm.trans hcommit)
  case commits =>
    intro c' hc'
    rcases List.mem_append.mp hc' with hold | hlast
    · obtain ⟨hauth', hheld⟩ := h.commits c' hold
      exact ⟨hauth', (AList.mem_insert _).mpr (.inr hheld)⟩
    · obtain rfl := Input.commit.inj (List.mem_singleton.mp hlast)
      exact ⟨hauth, (AList.mem_insert _).mpr (.inl rfl)⟩
  case committed => exact h.committed_snoc fun r hr => by cases hr
  case revealed =>
    intro hash
    rw [System.filterMap_snoc_none (by rfl)]
    exact h.revealed hash
  case once =>
    rw [System.filterMap_snoc_none (by rfl), System.filterMap_snoc_some (by rfl)]
    refine ⟨h.once.1, List.Nodup.append h.once.2 (List.nodup_singleton _) ?_⟩
    -- the hash was free, so no commit for it is in the log
    rw [List.disjoint_singleton]
    intro hmem
    obtain ⟨i, hi, hhash⟩ := List.mem_filterMap.mp hmem
    cases i with
    | commit c' => exact hnew (Option.some.inj hhash ▸ (h.commits c' hi).2)
    | reveal r => cases hhash
    | batchComplete m => cases hhash

omit [RegistrationProvider R] [BlockedProvider B] [PubkeyProvider P] [Externals] in
/-- Marking a reveal changes the flag of its record. -/
theorem lookup_markRevealed (v : GossipValidator P R B) (hash k : Hash32) :
    (v.markRevealed hash).pendingCommits.lookup k
      = (v.pendingCommits.lookup k).map fun commit =>
        { commit with revealed := commit.revealed || decide (k = hash) } := by
  show (v.pendingCommits.modify hash _).lookup k = _
  by_cases hk : k = hash
  · subst hk
    simp [AList.lookup_modify]
  · simp [AList.lookup_modify_ne _ _ hk, hk]

/-- An accepted reveal. -/
theorem RevealSafe.reveal (h : RevealSafe log v) {r : Reveal}
    (hauth : v.toSettings.AuthenticReveal r)
    (hawaits : v.Awaits r.order.nftId (orderHash r.order)) :
    RevealSafe (log ++ [.reveal r]) (v.markRevealed (orderHash r.order)) := by
  obtain ⟨⟨pending, hpending, hnft⟩, hfresh⟩ := hawaits.imp Option.map_eq_some_iff.mp id
  have hmem : ∀ k, k ∈ (v.markRevealed (orderHash r.order)).pendingCommits
      ↔ k ∈ v.pendingCommits := by
    intro k
    rw [← AList.lookup_isSome, ← AList.lookup_isSome, lookup_markRevealed, Option.isSome_map]
  have hlog : (log ++ [Input.reveal r]).filterMap Input.revealedHash
      = log.filterMap Input.revealedHash ++ [orderHash r.order] := System.filterMap_snoc_some rfl
  refine ⟨?known, ?stored, ?flagged, ?commits, ?committed, ?revealed, ?once⟩
  case known =>
    intro hash hrevealed
    rw [hmem]
    -- the commit of the new hash is the pending one
    rcases Finset.mem_insert.mp hrevealed with rfl | hold
    · exact AList.lookup_isSome.mp (Option.isSome_iff_exists.mpr ⟨pending, hpending⟩)
    · exact h.known hash hold
  case stored =>
    intro hash commit hcommit
    rw [lookup_markRevealed] at hcommit
    obtain ⟨old, hold, rfl⟩ := Option.map_eq_some_iff.mp hcommit
    obtain ⟨hstored, hbatch, hpool, hlogged⟩ := h.stored hash old hold
    exact ⟨hstored, hbatch, hpool, List.mem_append_left _ hlogged⟩
  case flagged =>
    intro hash commit hcommit
    rw [lookup_markRevealed] at hcommit
    obtain ⟨old, hold, rfl⟩ := Option.map_eq_some_iff.mp hcommit
    show (old.revealed || decide (hash = orderHash r.order)) = true
      ↔ hash ∈ insert (orderHash r.order) v.revealedHashes
    rw [Bool.or_eq_true, decide_eq_true_eq, h.flagged hash old hold, Finset.mem_insert]
    exact or_comm
  case commits =>
    intro c hc
    rcases List.mem_append.mp hc with hold | hlast
    · obtain ⟨hauth', hheld⟩ := h.commits c hold
      exact ⟨hauth', (hmem _).mpr hheld⟩
    · cases List.mem_singleton.mp hlast
  case committed =>
    intro before r' after hsplit
    rcases System.snoc_eq_append_cons_iff.mp hsplit with ⟨-, rfl, hlast⟩ | ⟨rest, -, hlog⟩
    · -- the commit that was waiting is the one of this reveal
      obtain rfl := Input.reveal.inj hlast
      obtain ⟨hstored, -, -, hlogged⟩ := h.stored _ pending hpending
      exact ⟨hauth, _, hlogged, hnft, hstored⟩
    · exact h.committed before r' rest hlog
  case revealed =>
    intro hash
    rw [hlog, List.mem_append, List.mem_singleton, ← h.revealed hash]
    exact Finset.mem_insert.trans or_comm
  case once =>
    -- the hash was not revealed before, so it occurs once
    rw [hlog, System.filterMap_snoc_none (by rfl)]
    refine ⟨List.Nodup.append h.once.1 (List.nodup_singleton _) ?_, h.once.2⟩
    rw [List.disjoint_singleton, ← h.revealed]
    exact hfresh

/-- **Step.**  A message that is accepted joins the log; any other leaves it. -/
theorem RevealSafe.message (h : RevealSafe log v) {i : Input} (hstep : v.step i = some v') :
    RevealSafe (if v.accepts i then log ++ [i] else log) v' := by
  rcases step_cases hstep with ⟨c, rfl, haccepts, hauth, hfree, rfl⟩
    | ⟨r, rfl, haccepts, hauth, hawaits, rfl⟩ | ⟨hquiet, tracker, seen, rfl⟩
  · rw [if_pos haccepts]
    exact h.commit hauth hfree _
  · rw [if_pos haccepts]
    exact h.reveal hauth hawaits
  · apply RevealSafe.frame
    split_ifs with haccepts
    · rcases hquiet with hrefused | ⟨m, rfl⟩
      · rw [hrefused] at haccepts
        cases haccepts
      · exact h.batchComplete m
    · exact h

/-- **Run.**  From its creation on the validator is safe for the messages that it accepted
since the last reset. -/
theorem revealSafe_of_run (pubkeys : P) (registration : R) (blocked : B)
    (context : ValidationContext) {calls : List Call}
    (hrun : lifetime.run (new pubkeys registration blocked context) calls = some v) :
    RevealSafe (acceptedSinceReset (new pubkeys registration blocked context) calls) v := by
  have hnew : RevealSafe (List.foldl Call.record [] [])
      (new pubkeys registration blocked context) := revealSafe_nil
  -- the history is that of all accepted calls; the log is what is left after the last reset
  refine lifetime.trace_history accepted
    (I := fun shown v => RevealSafe (shown.foldl Call.record []) v) ?_ hnew hrun
  intro shown s c s' hs hstep
  cases c with
  | message i =>
      have hmessage := hs.message (i := i) hstep
      rw [List.foldl_append]
      show RevealSafe ((if s.accepts i then some (Call.message i) else none).toList.foldl _ _) s'
      split_ifs at hmessage ⊢ with haccepts
      · exact hmessage
      · exact hmessage
  | reset newContext =>
      obtain rfl := Option.some.inj hstep
      rw [List.foldl_append]
      exact revealSafe_nil

end

end GossipValidator

/-! ## The sample buy -/

namespace GossipValidator

section

attribute [local instance] commitExternals

/-- A reset, then the reveal of the sample buy: too early, after its commit, and once more. -/
def sampleCalls : List Call :=
  let reveal := Call.message (.reveal ⟨7, 0, sampleBuy, buySignature⟩)
  [.reset ⟨7, 0, 1, 3⟩, reveal, .message (.commit buyCommit), reveal, reveal]

theorem revealSafe_sampleCalls :
    acceptedSinceReset (sampleValidator 3) sampleCalls
        = [.commit buyCommit, .reveal ⟨7, 0, sampleBuy, buySignature⟩] ∧
      RevealSafe (acceptedSinceReset (sampleValidator 3) sampleCalls)
        ((lifetime.run (sampleValidator 3) sampleCalls).getD (sampleValidator 3)) := by
  refine ⟨by decide +kernel, revealSafe_of_run _ _ _ _ (System.run_eq_some_getD _ ?_)⟩
  decide +kernel

end

end GossipValidator

end GossipValidation
