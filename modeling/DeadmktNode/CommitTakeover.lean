/-
# Can a commit hash be taken over?

Waiting commits are keyed by their hash alone, and hashes are public before the reveal.  The
first authentic commit of an NFT for the hash of its own order, and then the first authentic
reveal of this order, are accepted if and only if no commit within quota for the hash came
before, from whichever NFT, and the NFT's own commits, replays counted, have not used up its
quota.  What comes after the commit no longer matters.
-/
import DeadmktNode.CommitEvidence

namespace GossipValidation

namespace GossipValidator

section

variable {P R B : Type} [Externals] [PubkeyProvider P] [RegistrationProvider R]
  [BlockedProvider B]

/-- The answer to a commit after the messages so far. -/
def commitResult (v : GossipValidator P R B) (past : List Input) (c : Commit) :
    Option CommitResult :=
  (system.run v past).bind fun v => (v.validateCommit c).map Prod.fst

/-- The answer to a reveal after the messages so far. -/
def revealResult (v : GossipValidator P R B) (past : List Input) (r : Reveal) :
    Option RevealResult :=
  (system.run v past).bind fun v => (v.validateReveal r).map Prod.fst

/-! ## A held hash -/

variable {s : Settings P R B} {past : List Input} {v : GossipValidator P R B}

/-- After a commit that is accepted the validator waits for its reveal. -/
theorem Remembers.awaits_of_accepted (h : Remembers s past v) {c : Commit}
    (haccepted : (v.recordCommit c).1 = .accepted) :
    (v.recordCommit c).2.Awaits c.nftId c.hash := by
  rw [recordCommit_eq] at haccepted ⊢
  split_ifs at haccepted ⊢ with hquota hpending
  constructor
  · show ((v.pendingCommits.insert c.hash _).lookup c.hash).map CommitRecord.nftId = _
    rw [AList.lookup_insert]
    rfl
  · intro hrevealed
    exact hpending (h.revealed c.hash hrevealed)

/-- An authentic commit is accepted if and only if nobody has claimed its hash and its NFT is
under quota. -/
theorem Remembers.accepted_iff (h : Remembers s past v) {c : Commit} :
    (v.recordCommit c).1 = .accepted ↔
      (∀ nftId, ¬ s.Claims past c.hash nftId) ∧
        (s.commitsOf past c.nftId).length < s.context.commitsPerBatch.toNat := by
  have hunder := h.under_quota_iff c.nftId
  rw [recordCommit_eq]
  split_ifs with hquota hpending
  · refine iff_of_false (by intro heq; cases heq) ?_
    rintro ⟨hfree, -⟩
    obtain ⟨commit, hcommit⟩ := Option.isSome_iff_exists.mp hpending
    exact hfree commit.nftId (h.held c.hash commit hcommit)
  · refine iff_of_true rfl ⟨?_, hunder.mp hquota⟩
    exact h.free c.hash (Option.not_isSome_iff_eq_none.mp hpending)
  · refine iff_of_false (by intro heq; cases heq) ?_
    rintro ⟨-, hlt⟩
    exact hquota (hunder.mpr hlt)

/-- **Step.**  A message other than the awaited reveal leaves the validator waiting. -/
theorem Remembers.awaits_step (h : Remembers s past v) {nftId : UInt64} {hash : Hash32}
    {i : Input} {v' : GossipValidator P R B} (hawaits : v.Awaits nftId hash)
    (hnot : ∀ r, i = .reveal r → s.AuthenticReveal r → r.order.nftId = nftId →
      orderHash r.order ≠ hash)
    (hstep : v.step i = some v') : v'.Awaits nftId hash := by
  cases i with
  | commit c =>
      obtain ⟨a, ha, rfl⟩ := Option.map_eq_some_iff.mp hstep
      rcases validateCommit_cases ha with ⟨-, rfl⟩ | ⟨-, hsame, -⟩
      · rw [recordCommit_eq]
        split_ifs with hquota hpending
        · exact hawaits
        · refine ⟨?_, hawaits.2⟩
          -- the hash is held, so this commit is for another one
          have hne : hash ≠ c.hash := by
            rintro rfl
            have hheld := congrArg Option.isSome hawaits.1
            rw [Option.isSome_map] at hheld
            exact hpending hheld
          show ((v.pendingCommits.insert c.hash _).lookup hash).map CommitRecord.nftId = _
          rw [AList.lookup_insert_ne hne]
          exact hawaits.1
        · exact hawaits
      · rw [hsame]
        exact hawaits
  | reveal r =>
      obtain ⟨a, ha, rfl⟩ := Option.map_eq_some_iff.mp hstep
      rcases validateReveal_cases ha with ⟨hauth, hother, rfl⟩ | ⟨-, -, hsame⟩
      -- an accepted reveal of this hash would be the awaited one
      · have hne : hash ≠ orderHash r.order := by
          rintro rfl
          have hnft : r.order.nftId = nftId := by
            have heq := hother.1.symm.trans hawaits.1
            exact Option.some.inj heq
          exact hnot r rfl (h.settings ▸ hauth) hnft rfl
        constructor
        · show ((v.pendingCommits.modify (orderHash r.order) _).lookup hash).map
            CommitRecord.nftId = _
          rw [AList.lookup_modify_ne _ _ hne]
          exact hawaits.1
        · show hash ∉ insert (orderHash r.order) v.revealedHashes
          rw [Finset.mem_insert, not_or]
          exact ⟨hne, hawaits.2⟩
      · rw [hsame]
        exact hawaits
  | batchComplete m =>
      obtain ⟨a, ha, rfl⟩ := Option.map_eq_some_iff.mp hstep
      obtain ⟨seen, hseen⟩ := validateBatchComplete_frame ha
      rw [hseen]
      exact hawaits

/-- **Run.**  The validator waits until the awaited reveal comes. -/
theorem Remembers.awaits_run (h : Remembers s past v) {nftId : UInt64} {hash : Hash32}
    {is : List Input} {v' : GossipValidator P R B} (hawaits : v.Awaits nftId hash)
    (hnot : ∀ r, .reveal r ∈ is → s.AuthenticReveal r → r.order.nftId = nftId →
      orderHash r.order ≠ hash)
    (hrun : system.run v is = some v') : v'.Awaits nftId hash := by
  induction is generalizing past v with
  | nil =>
      obtain rfl := Option.some.inj hrun
      exact hawaits
  | cons i is ih =>
      obtain ⟨v₁, hstep, hrest⟩ := Option.bind_eq_some_iff.mp hrun
      refine ih (h.step hstep) (h.awaits_step hawaits ?_ hstep) ?_ hrest
      · rintro r rfl
        exact hnot r List.mem_cons_self
      · intro r hr
        exact hnot r (List.mem_cons_of_mem _ hr)

/-! ## Commit and reveal -/

/-- The first authentic commit of an NFT for the hash of its order and the first authentic
reveal that follows are both accepted if and only if no commit within quota for the hash came
before and fewer authentic commits of the NFT came before than its quota. -/
theorem commit_and_reveal_accepted_iff {c : Commit} {r : Reveal} {before between : List Input}
    {v' : GossipValidator P R B} (hcommit : s.Authentic c) (hreveal : s.AuthenticReveal r)
    (hown : r.order.nftId = c.nftId) (hhash : orderHash r.order = c.hash)
    (hfirst : ∀ c', .commit c' ∈ before → s.Authentic c' → c'.nftId = c.nftId →
      c'.hash ≠ c.hash)
    (hfirstReveal : ∀ r', .reveal r' ∈ between → s.AuthenticReveal r' →
      r'.order.nftId = c.nftId → orderHash r'.order ≠ c.hash)
    (hrun : system.run (new s.pubkeys s.registration s.blocked s.context)
      (before ++ .commit c :: (between ++ [.reveal r])) = some v') :
    (commitResult (new s.pubkeys s.registration s.blocked s.context) before c = some .accepted ∧
        revealResult (new s.pubkeys s.registration s.blocked s.context)
          (before ++ .commit c :: between) r = some .accepted) ↔
      (∀ nftId, nftId ≠ c.nftId → ¬ s.Claims before c.hash nftId) ∧
        (s.commitsOf before c.nftId).length < s.context.commitsPerBatch.toNat := by
  -- the states before the commit, after it, before the reveal and after it
  obtain ⟨v₀, h₀, hrest⟩ := Option.bind_eq_some_iff.mp ((System.run_append _ _ _ _).symm.trans hrun)
  obtain ⟨v₁, hstep, hrest⟩ := Option.bind_eq_some_iff.mp hrest
  obtain ⟨v₂, h₂, hlast⟩ :=
    Option.bind_eq_some_iff.mp ((System.run_append _ _ _ _).symm.trans hrest)
  obtain ⟨v₃, hstep₃, -⟩ := Option.bind_eq_some_iff.mp hlast
  obtain ⟨a, ha, rfl⟩ := Option.map_eq_some_iff.mp hstep
  obtain ⟨b, hb, rfl⟩ := Option.map_eq_some_iff.mp hstep₃
  have hremembers := remembers_of_run s h₀
  have hrun₂ : system.run (new s.pubkeys s.registration s.blocked s.context)
      (before ++ .commit c :: between) = some v₂ := by
    rw [System.run_append, h₀, Option.bind_some, System.run_cons, hstep,
      Option.bind_some, h₂]
  have hrecord : a = v₀.recordCommit c := by
    rcases validateCommit_cases ha with ⟨-, heq⟩ | ⟨hnot, -⟩
    · exact heq
    · exact absurd (hremembers.settings ▸ hcommit) hnot
  -- before its first commit the NFT has no claim itself
  have hclaims : (∀ nftId, nftId ≠ c.nftId → ¬ s.Claims before c.hash nftId)
      ↔ ∀ nftId, ¬ s.Claims before c.hash nftId := by
    constructor
    · intro h nftId hclaim
      by_cases hn : nftId = c.nftId
      · subst hn
        obtain ⟨pre, c', post, rfl, hauth, hsame, hnft, -⟩ := hclaim
        exact hfirst c' (List.mem_append_right _ List.mem_cons_self) hauth hnft hsame
      · exact h nftId hn hclaim
    · intro h nftId _
      exact h nftId
  rw [hclaims, ← hremembers.accepted_iff]
  have hcommitResult : commitResult (new s.pubkeys s.registration s.blocked s.context) before c
      = some (v₀.recordCommit c).1 := by
    rw [commitResult, h₀, Option.bind_some, ha, hrecord, Option.map_some]
  have hrevealResult : revealResult (new s.pubkeys s.registration s.blocked s.context)
      (before ++ .commit c :: between) r = some b.1 := by
    rw [revealResult, hrun₂, Option.bind_some, hb, Option.map_some]
  rw [hcommitResult, hrevealResult, Option.some.injEq, Option.some.injEq]
  -- an accepted commit waits until the reveal of its own NFT comes
  refine and_iff_left_of_imp fun haccepted => ?_
  have hawaits : v₂.Awaits r.order.nftId (orderHash r.order) := by
    have hafter := hremembers.step (show v₀.step (.commit c) = some a.2 from hstep)
    have hheld := hremembers.awaits_of_accepted haccepted
    rw [← hrecord] at hheld
    rw [hown, hhash]
    exact hafter.awaits_run hheld hfirstReveal h₂
  rcases validateReveal_cases hb with ⟨-, -, rfl⟩ | ⟨hnot, -, -⟩
  · rfl
  · refine absurd ⟨?_, hawaits⟩ hnot
    rw [(remembers_of_run s hrun₂).settings]
    exact hreveal

end

/-! ### A copied hash -/

section

attribute [local instance] commitExternals

/-- NFT 2 reveals its buy. -/
def buyReveal : Reveal := ⟨7, 0, sampleBuy, buySignature⟩

theorem buyReveal_hash : orderHash buyReveal.order = buyCommit.hash := by decide +kernel

theorem buyCommit_authentic : (sampleSettings 3).Authentic buyCommit := by decide +kernel

theorem buyReveal_authentic : (sampleSettings 3).AuthenticReveal buyReveal := by decide +kernel

/-- NFT 1 copies the hash after NFT 2 has committed: NFT 2 is not disturbed. -/
theorem late_copy_harmless :
    commitResult (sampleValidator 3) [] buyCommit = some .accepted ∧
      revealResult (sampleValidator 3) ([] ++ [.commit buyCommit, .commit copiedCommit]) buyReveal
        = some .accepted := by
  refine (commit_and_reveal_accepted_iff (s := sampleSettings 3) buyCommit_authentic
    buyReveal_authentic rfl buyReveal_hash ?_ ?_
    (System.run_eq_some_getD _ (d := sampleValidator 3) (by decide +kernel))).mpr ⟨?_, ?_⟩
  · intro c' hc'
    cases hc'
  · intro r' hr'
    cases List.mem_singleton.mp hr'
  · rintro nftId - ⟨before, c, after, hsplit, -⟩
    cases before <;> cases hsplit
  · decide +kernel

/-- NFT 1 copies the hash first: NFT 2, which is within quota, has neither its commit nor its
reveal accepted. -/
theorem early_copy_takes_over :
    ¬ ∀ (s : Settings (UInt64 → Option VerifyingKey) (UInt64 → Bool) (UInt64 → Bool))
      (c : Commit) (r : Reveal) (before between : List Input) (v' : GossipValidator _ _ _),
      s.Authentic c → s.AuthenticReveal r → r.order.nftId = c.nftId →
      orderHash r.order = c.hash →
      (∀ c', .commit c' ∈ before → s.Authentic c' → c'.nftId = c.nftId → c'.hash ≠ c.hash) →
      (∀ r', .reveal r' ∈ between → s.AuthenticReveal r' → r'.order.nftId = c.nftId →
        orderHash r'.order ≠ c.hash) →
      ((s.commitsOf (before ++ .commit c :: (between ++ [.reveal r])) c.nftId).map
        Commit.hash).dedup.length ≤ s.context.commitsPerBatch.toNat →
      system.run (new s.pubkeys s.registration s.blocked s.context)
        (before ++ .commit c :: (between ++ [.reveal r])) = some v' →
      commitResult (new s.pubkeys s.registration s.blocked s.context) before c = some .accepted ∧
        revealResult (new s.pubkeys s.registration s.blocked s.context)
          (before ++ .commit c :: between) r = some .accepted := by
  intro h
  have hfirst : ∀ c', .commit c' ∈ [Input.commit copiedCommit] →
      (sampleSettings 3).Authentic c' → c'.nftId = buyCommit.nftId → c'.hash ≠ buyCommit.hash := by
    intro c' hc' _ hnft
    obtain rfl := Input.commit.inj (List.mem_singleton.mp hc')
    exact absurd hnft (by decide)
  obtain ⟨haccepted, -⟩ := h (sampleSettings 3) buyCommit buyReveal [.commit copiedCommit] [] _
    buyCommit_authentic buyReveal_authentic rfl buyReveal_hash hfirst
    (fun r' hr' => absurd hr' List.not_mem_nil) (by decide +kernel)
    (System.run_eq_some_getD _ (d := sampleValidator 3) (by decide +kernel))
  revert haccepted
  decide +kernel

end

end GossipValidator

end GossipValidation
