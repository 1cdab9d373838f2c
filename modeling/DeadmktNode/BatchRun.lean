/-
# A batch from its start

The calls that a batch receives between its start and the next one, with the phases moving
forward only.  What the maps, the flags and the matches of a batch have to do with each other
is one invariant of the state (`BatchState.Consistent`): commits are stored while nothing is
revealed, reveals before anything is matched, and matching runs once, on reveals that do not
change any more.  Two runs with the same reveals and markets compute the same matches,
provided that they are runs of one batch and pool and that both of them were matched or none
(`BatchState.batch_consistent`).
-/
import DeadmktNode.MatchingOrder
import DeadmktNode.Runs

open List

def Phase.rank : Phase → ℕ
  | .commit => 0
  | .reveal => 1
  | .match => 2
  | .swap => 3

/-- The calls that change a batch. -/
inductive BatchOp where
  | addCommit (batchId poolId : UInt64) (hash : Hash32) (nftId : UInt64) (signature : Bytes)
  | addReveal (order : Order) (signature : Bytes)
  | createOwnCommit (secret : SigningKey) (order : Order)
  | transitionTo (phase : Phase)
deriving DecidableEq

namespace BatchState

section

variable [Externals]

/-- The state after a call; one that fails changes nothing. -/
def apply (s : BatchState) : BatchOp → BatchState
  | .addCommit batchId poolId hash nftId signature =>
      match s.addCommit batchId poolId hash nftId signature with
      | .ok s' => s'
      | .error _ => s
  | .addReveal order signature =>
      match s.addReveal order signature with
      | .ok s' => s'
      | .error _ => s
  | .createOwnCommit secret order => (s.createOwnCommit secret order).1
  | .transitionTo phase => s.transitionTo phase

def system : System BatchState BatchOp where
  step s op := some (s.apply op)

/-- Phases only move forward. -/
def Forward (s : BatchState) : BatchOp → Prop
  | .transitionTo phase => s.phase.rank ≤ phase.rank
  | _ => True

omit [Externals] in
instance (s : BatchState) (op : BatchOp) : Decidable (s.Forward op) := by
  cases op <;> unfold Forward <;> infer_instance

/-- A batch at its start: new, or after a reset, in the commit phase. -/
def Starts (batchId poolId : UInt64) (configs : List MarketConfig) (s : BatchState) : Prop :=
  (∃ params, s = new batchId poolId .commit params configs) ∨
    ∃ s₀ : BatchState, s = s₀.resetForNewBatch batchId poolId .commit configs

/-! ## What one call does -/

/-- A commit is stored in the commit phase. -/
theorem apply_addCommit (s : BatchState) (batchId poolId : UInt64) (hash : Hash32)
    (nftId : UInt64) (signature : Bytes) :
    (s.phase = .commit ∧ s.apply (.addCommit batchId poolId hash nftId signature)
        = { s with
            commits := s.commits.insert hash ⟨batchId, poolId, hash, nftId, signature, false⟩ }) ∨
      s.apply (.addCommit batchId poolId hash nftId signature) = s := by
  unfold apply addCommit
  by_cases hphase : s.phase = .commit
  · left
    simp [hphase]
  · right
    simp [hphase]

/-- A reveal is stored in the reveal phase, under the commit of its hash. -/
theorem apply_addReveal (s : BatchState) (order : Order) (signature : Bytes) :
    (∃ c, s.phase = .reveal ∧ s.commits.lookup (orderHash order) = some c ∧
        s.apply (.addReveal order signature)
          = { s with
              commits := s.commits.insert (orderHash order) { c with revealed := true }
              reveals := s.reveals.insert ⟨order, signature, orderHash order⟩ }) ∨
      s.apply (.addReveal order signature) = s := by
  unfold apply addReveal
  by_cases hphase : s.phase = .reveal
  · cases hc : s.commits.lookup (orderHash order) with
    | none =>
        right
        simp [hphase, hc]
    | some c =>
        left
        exact ⟨c, hphase, rfl, by simp [hphase, hc]⟩
  · right
    simp [hphase]

/-- Entering MATCH for the first time computes the matches; any other transition changes the
phase alone. -/
theorem transitionTo_cases (s : BatchState) (phase : Phase) :
    (phase = .match ∧ s.matched = false ∧ s.transitionTo phase
        = { s with
            phase := .match
            computedMatches := runMatching s.matchingInput
            matched := true }) ∨
      ((phase = .match → s.matched = true) ∧ s.transitionTo phase = { s with phase := phase }) := by
  by_cases hphase : phase = .match
  · subst hphase
    cases hmatched : s.matched with
    | false =>
        left
        refine ⟨rfl, rfl, ?_⟩
        simp [transitionTo, runMatchingOnce, hmatched, matchingInput]
    | true =>
        right
        simp [transitionTo, hmatched]
  · right
    simp [transitionTo, hphase]

/-- What a call does to the phase, the mark and the reveals: a transition sets the phase, and
the mark if it goes to MATCH; any other call leaves both, and the reveals outside of REVEAL. -/
theorem apply_cases (s : BatchState) (op : BatchOp) :
    (∃ phase, op = .transitionTo phase ∧ (s.apply op).phase = phase ∧
        ((s.apply op).matched = true ↔ s.matched = true ∨ phase = .match) ∧
        (s.apply op).reveals = s.reveals) ∨
      (∀ phase, op ≠ .transitionTo phase) ∧ (s.apply op).phase = s.phase ∧
        (s.apply op).matched = s.matched ∧
        (s.phase ≠ .reveal → (s.apply op).reveals = s.reveals) := by
  cases op with
  | addCommit b p hash nftId signature =>
      refine .inr ⟨nofun, ?_⟩
      rcases s.apply_addCommit b p hash nftId signature with ⟨-, heq⟩ | heq
      · rw [heq]
        exact ⟨rfl, rfl, fun _ => rfl⟩
      · rw [heq]
        exact ⟨rfl, rfl, fun _ => rfl⟩
  | addReveal order signature =>
      refine .inr ⟨nofun, ?_⟩
      rcases s.apply_addReveal order signature with ⟨c, hreveal, -, heq⟩ | heq
      · rw [heq]
        exact ⟨rfl, rfl, fun hphase => absurd hreveal hphase⟩
      · rw [heq]
        exact ⟨rfl, rfl, fun _ => rfl⟩
  | createOwnCommit secret order => exact .inr ⟨nofun, rfl, rfl, fun _ => rfl⟩
  | transitionTo phase =>
      refine .inl ⟨phase, rfl, ?_⟩
      rcases s.transitionTo_cases phase with ⟨rfl, -, heq⟩ | ⟨hmatched, heq⟩
      · rw [show s.apply (.transitionTo .match) = _ from heq]
        exact ⟨rfl, iff_of_true rfl (.inr rfl), rfl⟩
      · rw [show s.apply (.transitionTo phase) = _ from heq]
        exact ⟨rfl, ⟨.inl, fun h => h.elim id hmatched⟩, rfl⟩

/-! ## The invariant -/

/-- The maps, the flags and the matches of a batch of the given batch, pool and markets. -/
structure Consistent (batchId poolId : UInt64) (configs : List MarketConfig)
    (s : BatchState) : Prop where
  batch : s.batchId = batchId
  pool : s.poolId = poolId
  markets : s.marketConfigs = .ofList configs
  /-- reveals stand under their hash, which was committed -/
  committed : ∀ hash r, s.reveals.map.lookup hash = some r →
    hash = orderHash r.order ∧ (s.commits.lookup hash).isSome
  flagged : ∀ hash c, s.commits.lookup hash = some c →
    (c.revealed = true ↔ (s.reveals.map.lookup hash).isSome)
  unrevealed : s.phase = .commit → ∀ hash, s.reveals.map.lookup hash = none
  waiting : s.matched = false → s.computedMatches = []
  /-- the reveals that were matched are the reveals -/
  settled : s.matched = true → s.computedMatches = runMatching s.matchingInput ∧
    Phase.match.rank ≤ s.phase.rank

variable {batchId poolId : UInt64} {configs : List MarketConfig} {s : BatchState}

theorem Starts.consistent (h : Starts batchId poolId configs s) :
    Consistent batchId poolId configs s := by
  rcases h with ⟨params, rfl⟩ | ⟨s₀, rfl⟩
  · exact ⟨rfl, rfl, rfl, by simp [new, KeyedMap.empty], by simp [new],
      by simp [new, KeyedMap.empty], fun _ => rfl, fun h => absurd h Bool.false_ne_true⟩
  · exact ⟨rfl, rfl, rfl, by simp [resetForNewBatch, KeyedMap.empty], by simp [resetForNewBatch],
      by simp [resetForNewBatch, KeyedMap.empty], fun _ => rfl,
      fun h => absurd h Bool.false_ne_true⟩

/-- A commit comes before every reveal. -/
theorem Consistent.addCommit (h : Consistent batchId poolId configs s) (hphase : s.phase = .commit)
    {c : CommitRecord} (hc : c.revealed = false) :
    Consistent batchId poolId configs { s with commits := s.commits.insert c.hash c } := by
  have hnone := h.unrevealed hphase
  refine { h with committed := fun hash r hr => ?_, flagged := fun hash c' hc' => ?_ }
  · rw [hnone hash] at hr
    cases hr
  · rw [show (s.reveals.map.lookup hash) = none from hnone hash]
    by_cases hhash : hash = c.hash
    · subst hhash
      rw [AList.lookup_insert] at hc'
      rw [← Option.some.inj hc', hc]
      simp
    · rw [AList.lookup_insert_ne hhash] at hc'
      rw [h.flagged hash c' hc', hnone hash]

/-- A reveal marks the commit of its hash. -/
theorem Consistent.addReveal (h : Consistent batchId poolId configs s) (hphase : s.phase = .reveal)
    {order : Order} {signature : Bytes} {c : CommitRecord} :
    Consistent batchId poolId configs { s with
      commits := s.commits.insert (orderHash order) { c with revealed := true }
      reveals := s.reveals.insert ⟨order, signature, orderHash order⟩ } := by
  have hinsert : (s.reveals.insert ⟨order, signature, orderHash order⟩).map
      = s.reveals.map.insert (orderHash order) ⟨order, signature, orderHash order⟩ := rfl
  refine { h with
    committed := fun hash r hr => ?_
    flagged := fun hash c' hc' => ?_
    unrevealed := fun hcommit => ?_
    settled := fun hmatched => ?_ }
  · by_cases hhash : hash = orderHash order
    · subst hhash
      rw [hinsert, AList.lookup_insert] at hr
      obtain rfl := Option.some.inj hr
      exact ⟨rfl, by rw [AList.lookup_insert]; rfl⟩
    · rw [hinsert, AList.lookup_insert_ne hhash] at hr
      rw [AList.lookup_insert_ne hhash]
      exact h.committed hash r hr
  · by_cases hhash : hash = orderHash order
    · subst hhash
      rw [AList.lookup_insert] at hc'
      rw [← Option.some.inj hc', hinsert, AList.lookup_insert]
      exact iff_of_true rfl rfl
    · rw [AList.lookup_insert_ne hhash] at hc'
      rw [hinsert, AList.lookup_insert_ne hhash]
      exact h.flagged hash c' hc'
  · rw [show s.phase = .commit from hcommit] at hphase
    cases hphase
  · -- nothing is revealed after MATCH
    have hrank := (h.settled hmatched).2
    rw [hphase] at hrank
    exact absurd hrank (by decide)

/-- Every call keeps the batch consistent, as long as phases move forward. -/
theorem Consistent.apply (h : Consistent batchId poolId configs s) (op : BatchOp)
    (hforward : s.Forward op) : Consistent batchId poolId configs (s.apply op) := by
  cases op with
  | addCommit b p hash nftId signature =>
      rcases s.apply_addCommit b p hash nftId signature with ⟨hphase, heq⟩ | heq
      · rw [heq]
        exact h.addCommit hphase (c := ⟨b, p, hash, nftId, signature, false⟩) rfl
      · rw [heq]
        exact h
  | addReveal order signature =>
      rcases s.apply_addReveal order signature with ⟨c, hphase, -, heq⟩ | heq
      · rw [heq]
        exact h.addReveal hphase
      · rw [heq]
        exact h
  | createOwnCommit secret order => exact { h with }
  | transitionTo phase =>
      have hrank : s.phase.rank ≤ phase.rank := hforward
      have hcommit : phase = .commit → s.phase = .commit := by
        rintro rfl
        cases hs : s.phase <;> rw [hs] at hrank <;> first | rfl | exact absurd hrank (by decide)
      rcases s.transitionTo_cases phase with ⟨rfl, hmatched, heq⟩ | ⟨hmatched, heq⟩
      · rw [show s.apply (.transitionTo .match) = _ from heq]
        exact { h with
          unrevealed := fun hphase => nomatch hphase
          waiting := fun hfalse => nomatch hfalse
          settled := fun _ => ⟨rfl, le_refl _⟩ }
      · rw [show s.apply (.transitionTo phase) = _ from heq]
        exact { h with
          unrevealed := fun hphase => h.unrevealed (hcommit hphase)
          settled := fun htrue => ⟨(h.settled htrue).1, (h.settled htrue).2.trans hrank⟩ }

/-! ## Matching runs once -/

/-- A batch is matched exactly by a transition to MATCH. -/
theorem matched_apply (s : BatchState) (op : BatchOp) :
    (s.apply op).matched = true ↔ s.matched = true ∨ op = .transitionTo .match := by
  rcases s.apply_cases op with ⟨phase, rfl, -, hmatched, -⟩ | ⟨hother, -, hmatched, -⟩
  · rw [hmatched, BatchOp.transitionTo.injEq]
  · rw [hmatched]
    exact (or_iff_left (hother .match)).symm

/-- Along a run, too. -/
theorem matched_iff {start : BatchState} {ops : List BatchOp}
    (hstart : Starts batchId poolId configs start) (hrun : system.run start ops = some s) :
    s.matched = true ↔ .transitionTo .match ∈ ops := by
  have h : s.matched = true ↔ .transitionTo .match ∈ [] ++ ops := by
    refine system.run_history (I := fun past (s : BatchState) =>
      s.matched = true ↔ BatchOp.transitionTo .match ∈ past) ?_ ?_ hrun
    · rintro past s op s' h ⟨⟩
      rw [matched_apply, h, List.mem_append, List.mem_singleton, eq_comm (a := op)]
    · rcases hstart with ⟨params, rfl⟩ | ⟨s₀, rfl⟩
      · simp [new]
      · simp [resetForNewBatch]
  rwa [List.nil_append] at h

/-- From MATCH on the reveals stay what they are. -/
theorem reveals_apply (hphase : Phase.match.rank ≤ s.phase.rank) (op : BatchOp) :
    (s.apply op).reveals = s.reveals := by
  rcases s.apply_cases op with ⟨phase, -, -, -, hreveals⟩ | ⟨-, -, -, hreveals⟩
  · exact hreveals
  · apply hreveals
    intro hreveal
    rw [hreveal] at hphase
    exact absurd hphase (by decide)

/-- Calls move the phase forward. -/
theorem rank_apply (op : BatchOp) (hforward : s.Forward op) :
    s.phase.rank ≤ (s.apply op).phase.rank := by
  rcases s.apply_cases op with ⟨phase, rfl, hphase, -⟩ | ⟨-, hphase, -⟩
  · rw [hphase]
    exact hforward
  · rw [hphase]

/-! ## Whole runs -/

/-- What is revealed when MATCH begins is revealed at the end. -/
theorem reveals_run {s' : BatchState} {ops : List BatchOp}
    (hphase : Phase.match.rank ≤ s.phase.rank) (hforward : system.Follows Forward s ops)
    (hrun : system.run s ops = some s') : s'.reveals = s.reveals := by
  have h : s'.reveals = s.reveals ∧ Phase.match.rank ≤ s'.phase.rank := by
    refine system.run_invariant (I := fun (t : BatchState) =>
      t.reveals = s.reveals ∧ Phase.match.rank ≤ t.phase.rank) ?_ ⟨rfl, hphase⟩ hforward hrun
    rintro t op t' ⟨hreveals, hrank⟩ hop ⟨⟩
    exact ⟨(reveals_apply hrank op).trans hreveals, hrank.trans (rank_apply op hop)⟩
  exact h.1

/-- Every run from the start of a batch is consistent. -/
theorem consistent_of_run {start : BatchState} {ops : List BatchOp}
    (hstart : Starts batchId poolId configs start) (hforward : system.Follows Forward start ops)
    (hrun : system.run start ops = some s) : Consistent batchId poolId configs s := by
  refine system.run_invariant ?_ hstart.consistent hforward hrun
  rintro t op t' ht hop ⟨⟩
  exact ht.apply op hop

/-- What is held when a run first enters MATCH is held at its end. -/
theorem reveals_of_first_match {start m : BatchState} {before after : List BatchOp}
    (hstart : Starts batchId poolId configs start)
    (hforward : system.Follows Forward start (before ++ .transitionTo .match :: after))
    (hrun : system.run start (before ++ .transitionTo .match :: after) = some s)
    (hbefore : .transitionTo .match ∉ before) (hm : system.run start before = some m) :
    s.reveals = m.reveals := by
  -- the run goes on from the state that enters MATCH
  rw [system.run_append, hm, Option.bind_some] at hrun
  rw [system.follows_append] at hforward
  obtain ⟨hop, hafter⟩ := hforward.2 m hm
  have hmbefore : m.matched = false := by
    rw [Bool.eq_false_iff, Ne, matched_iff hstart hm]
    exact hbefore
  obtain ⟨hphase, hsame⟩ : (m.apply (.transitionTo .match)).phase = .match ∧
      (m.apply (.transitionTo .match)).reveals = m.reveals := by
    rcases m.transitionTo_cases .match with ⟨-, -, heq⟩ | ⟨htrue, -⟩
    · rw [show m.apply (.transitionTo .match) = _ from heq]
      exact ⟨rfl, rfl⟩
    · rw [htrue rfl] at hmbefore
      cases hmbefore
  have hrank : Phase.match.rank ≤ (m.apply (.transitionTo .match)).phase.rank := by
    rw [hphase]
  rw [reveals_run hrank (hafter _ rfl) hrun, hsame]

/-- Matched reveals give the matches in whatever order the maps list them. -/
theorem Consistent.computedMatches_eq (h : Consistent batchId poolId configs s)
    (hmatched : s.matched = true) {reveals : List RevealedOrder} {markets : List MarketConfig}
    (hreveals : reveals ~ s.reveals.map.values) (hmarkets : markets ~ s.marketConfigs.map.values) :
    s.computedMatches = runMatching ⟨batchId, poolId, reveals, markets⟩ := by
  rw [(h.settled hmatched).1, matchingInput, h.batch, h.pool]
  exact runMatching_perm _ _ hreveals.symm
    (eq_of_nodup_orderHash s.reveals.nodup_map_key_values)
    (lookup_marketMap_perm s.marketConfigs.nodup_map_key_values hmarkets.symm)

end

/-- Two keyed maps with the same bindings list the same values. -/
theorem values_perm_of_lookup_eq {κ ν : Type*} [DecidableEq κ] {key : ν → κ}
    {m m' : KeyedMap κ ν key} (h : ∀ k, m.map.lookup k = m'.map.lookup k) :
    m.map.values ~ m'.map.values := by
  refine KeyedMap.values_perm_of_mem_iff fun v => ?_
  rw [AList.mem_values, AList.mem_values]
  simp only [h]

/-- **A batch is consistent.**  In a run from the start of a batch whose phases only move
forward, reveals stand under their hash, which was committed; a commit is marked exactly when
it is revealed; the matches are empty before MATCH and from then on those of the reveals that
were held then; and two runs of one batch and pool with the same reveals and markets have the
same matches if both went through MATCH or none. -/
theorem batch_consistent [Externals] {batchId poolId : UInt64} {configs : List MarketConfig}
    {start s : BatchState} {ops : List BatchOp} (hstart : Starts batchId poolId configs start)
    (hforward : system.Follows Forward start ops) (hrun : system.run start ops = some s) :
    (∀ hash r, s.reveals.map.lookup hash = some r →
        hash = orderHash r.order ∧ (s.commits.lookup hash).isSome) ∧
      (∀ hash c, s.commits.lookup hash = some c →
        (c.revealed = true ↔ (s.reveals.map.lookup hash).isSome)) ∧
      (.transitionTo .match ∉ ops → s.computedMatches = []) ∧
      (∀ before after m, ops = before ++ .transitionTo .match :: after →
        .transitionTo .match ∉ before → system.run start before = some m →
        ∀ reveals markets, reveals ~ m.reveals.map.values →
          markets ~ m.marketConfigs.map.values →
          s.computedMatches = runMatching ⟨batchId, poolId, reveals, markets⟩) ∧
      ∀ (configs' : List MarketConfig) (start' s' : BatchState) (ops' : List BatchOp),
        Starts batchId poolId configs' start' → system.Follows Forward start' ops' →
        system.run start' ops' = some s' →
        (∀ hash, s.reveals.map.lookup hash = s'.reveals.map.lookup hash) →
        (∀ symbol, s.marketConfigs.map.lookup symbol = s'.marketConfigs.map.lookup symbol) →
        (.transitionTo .match ∈ ops ↔ .transitionTo .match ∈ ops') →
        s.computedMatches = s'.computedMatches := by
  have hs := consistent_of_run hstart hforward hrun
  refine ⟨hs.committed, hs.flagged, ?_, ?_, ?_⟩
  · intro hno
    refine hs.waiting (Bool.eq_false_iff.mpr fun hmatched => ?_)
    exact hno ((matched_iff hstart hrun).mp hmatched)
  · rintro before after m rfl hbefore hm reveals markets hreveals hmarkets
    have hmatched : s.matched = true :=
      (matched_iff hstart hrun).mpr (List.mem_append_right _ List.mem_cons_self)
    -- no reveal comes after MATCH, so the matches are those of the reveals now
    have hsame := reveals_of_first_match hstart hforward hrun hbefore hm
    have hmkeeps := consistent_of_run hstart ((system.follows_append ..).mp hforward).1 hm
    refine hs.computedMatches_eq hmatched (by rwa [hsame]) ?_
    rw [hs.markets, ← hmkeeps.markets]
    exact hmarkets
  · intro configs' start' s' ops' hstart' hforward' hrun' hreveals hmarkets hmatch
    have hs' := consistent_of_run hstart' hforward' hrun'
    cases hmatched : s.matched with
    | false =>
        have hmatched' : s'.matched = false := by
          rw [Bool.eq_false_iff, Ne, matched_iff hstart' hrun', ← hmatch,
            ← matched_iff hstart hrun, hmatched]
          exact Bool.false_ne_true
        rw [hs.waiting hmatched, hs'.waiting hmatched']
    -- both have matched: the same reveals and markets give the same matches
    | true =>
        have hmatched' : s'.matched = true :=
          (matched_iff hstart' hrun').mpr (hmatch.mp ((matched_iff hstart hrun).mp hmatched))
        rw [hs.computedMatches_eq hmatched (values_perm_of_lookup_eq fun k => (hreveals k).symm)
            (values_perm_of_lookup_eq fun k => (hmarkets k).symm),
          hs'.computedMatches_eq hmatched' (List.Perm.refl _) (List.Perm.refl _)]

/-- The samples are committed, then revealed. -/
def sampleOps [Externals] : List BatchOp :=
  (sampleReveals.map fun r => .addCommit 7 0 r.orderHash r.order.nftId []) ++
    .transitionTo .reveal :: sampleReveals.map fun r => .addReveal r.order []

/-- A batch of the two sample markets at its start. -/
def sampleStart : BatchState := new 7 0 .commit ⟨100, 40, 20, 10, 30, 8⟩ sampleMarkets

/-- The batch with everything revealed. -/
def sampleRevealed [Externals] : BatchState := (system.run sampleStart sampleOps).getD sampleStart

theorem run_sampleOps :
    letI := referenceExternals []
    system.run sampleStart sampleOps = some sampleRevealed := by
  let _ := referenceExternals []
  exact System.run_eq_some_getD _ (by decide +kernel)

theorem run_snoc_transition [Externals] {start m : BatchState} {ops : List BatchOp}
    (hm : system.run start ops = some m) (phase : Phase) :
    system.run start (ops ++ [.transitionTo phase]) = some (m.transitionTo phase) := by
  rw [system.run_append, hm]
  rfl

/-- The samples are matched as they were revealed. -/
theorem samples_matched :
    letI := referenceExternals []
    ∃ s, system.run sampleStart (sampleOps ++ [.transitionTo .match]) = some s ∧
      s.computedMatches = runMatching ⟨7, 0, sampleReveals, sampleMarkets⟩ := by
  let _ := referenceExternals []
  have hrun := run_snoc_transition run_sampleOps .match
  have h := batch_consistent (.inl ⟨_, rfl⟩) (by decide +kernel) hrun
  exact ⟨_, hrun, h.2.2.2.1 sampleOps [] sampleRevealed rfl (by decide +kernel) run_sampleOps _ _
    (by decide +kernel) (by decide +kernel)⟩

/-- Before MATCH the same reveals have no matches yet. -/
theorem same_reveals_other_matches :
    ¬ ∀ (_ : Externals) (batchId poolId : UInt64) (configs configs' : List MarketConfig)
        (start start' s s' : BatchState) (ops ops' : List BatchOp),
      Starts batchId poolId configs start → Starts batchId poolId configs' start' →
      system.Follows Forward start ops → system.Follows Forward start' ops' →
      system.run start ops = some s → system.run start' ops' = some s' →
      (∀ hash, s.reveals.map.lookup hash = s'.reveals.map.lookup hash) →
      (∀ symbol, s.marketConfigs.map.lookup symbol = s'.marketConfigs.map.lookup symbol) →
      s.computedMatches = s'.computedMatches := by
  intro h
  let _ := referenceExternals []
  have hrun := run_snoc_transition run_sampleOps .match
  have hsame : (sampleRevealed.transitionTo .match).reveals = sampleRevealed.reveals ∧
      (sampleRevealed.transitionTo .match).marketConfigs = sampleRevealed.marketConfigs := by
    rcases sampleRevealed.transitionTo_cases .match with ⟨-, -, heq⟩ | ⟨-, heq⟩
    · rw [heq]
      exact ⟨rfl, rfl⟩
    · rw [heq]
      exact ⟨rfl, rfl⟩
  have heq := h _ 7 0 sampleMarkets sampleMarkets sampleStart sampleStart sampleRevealed
    (sampleRevealed.transitionTo .match) sampleOps (sampleOps ++ [.transitionTo .match])
    (.inl ⟨_, rfl⟩) (.inl ⟨_, rfl⟩) (by decide +kernel) (by decide +kernel) run_sampleOps hrun
    (fun hash => by rw [hsame.1]) (fun symbol => by rw [hsame.2])
  exact absurd (congrArg List.length heq) (by decide +kernel)

end BatchState
