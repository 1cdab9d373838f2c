/-
# Whose commit limit?

The limit on the commits of an NFT stands in the context of the batch and once more in the quota
tracker, which keeps that of the first context over every reset.  So the limit that is applied
is that of the current context exactly as long as no commit comes at which the two limits
decide differently (`quota_follows_context_iff`).
-/
import DeadmktNode.RevealSafety

namespace GossipValidation

/-! ## Counting from the answers -/

/-- What the answer to a call says about the quotas. -/
inductive QuotaNote where
  | counted (nftId : UInt64) (accepted : Bool)
  | overQuota (nftId : UInt64)
  | reset
deriving DecidableEq

/-- A commit counts if it is accepted, and also if it is refused as a duplicate. -/
def CommitResult.quotaNote (nftId : UInt64) : CommitResult → Option QuotaNote
  | .accepted => some (.counted nftId true)
  | .rejected .duplicateHash => some (.counted nftId false)
  | .rejected .overQuota => some (.overQuota nftId)
  | .rejected _ => none

/-- The notes since the last reset. -/
def thisBatch (notes : List QuotaNote) : List QuotaNote :=
  notes.foldl (fun batch note => if note = .reset then [] else batch ++ [note]) []

/-- The commits of an NFT that were accepted in this batch. -/
def acceptedOf (notes : List QuotaNote) (nftId : UInt64) : ℕ :=
  (thisBatch notes).count (.counted nftId true)

/-- The commits of an NFT that were counted in this batch. -/
def countedOf (notes : List QuotaNote) (nftId : UInt64) : ℕ :=
  acceptedOf notes nftId + (thisBatch notes).count (.counted nftId false)

section

variable {notes : List QuotaNote} {note : QuotaNote} {nftId : UInt64}

/-- A count is no reset, -/
theorem QuotaNote.counted_ne_reset (nftId : UInt64) (accepted : Bool) :
    counted nftId accepted ≠ reset := nofun

/-- and neither is a refusal. -/
theorem QuotaNote.overQuota_ne_reset (nftId : UInt64) : overQuota nftId ≠ reset := nofun

/-- A reset starts the batch over. -/
theorem thisBatch_snoc_reset : thisBatch (notes ++ [.reset]) = [] := by
  rw [thisBatch, List.foldl_append]
  rfl

/-- Anything else is of the batch. -/
theorem thisBatch_snoc (h : note ≠ .reset) :
    thisBatch (notes ++ [note]) = thisBatch notes ++ [note] := by
  rw [thisBatch, List.foldl_append]
  exact if_neg h

/-- Accepted are the counted ones that were taken. -/
theorem acceptedOf_snoc (h : note ≠ .reset) :
    acceptedOf (notes ++ [note]) nftId
      = acceptedOf notes nftId + if note = .counted nftId true then 1 else 0 := by
  rw [acceptedOf, thisBatch_snoc h, List.count_append, List.count_singleton]
  simp only [beq_iff_eq]
  rfl

/-- A note counts for the NFT that it names. -/
theorem countedOf_snoc (h : note ≠ .reset) :
    countedOf (notes ++ [note]) nftId
      = countedOf notes nftId + if ∃ accepted, note = .counted nftId accepted then 1 else 0 := by
  rw [countedOf, acceptedOf_snoc h, thisBatch_snoc h, List.count_append, List.count_singleton]
  unfold countedOf
  cases note with
  | counted n accepted =>
      by_cases hn : n = nftId
      · subst hn
        cases accepted <;> simp <;> omega
      · simp [hn]
  | overQuota n => simp
  | reset => exact absurd rfl h

/-- One more commit is counted. -/
theorem countedOf_snoc_counted {n : UInt64} {accepted : Bool} :
    countedOf (notes ++ [.counted n accepted]) nftId
      = countedOf notes nftId + if nftId = n then 1 else 0 := by
  rw [countedOf_snoc (QuotaNote.counted_ne_reset _ _)]
  simp [eq_comm]

/-- A commit over quota does not count. -/
theorem countedOf_snoc_overQuota {n : UInt64} :
    countedOf (notes ++ [.overQuota n]) nftId = countedOf notes nftId := by
  rw [countedOf_snoc (QuotaNote.overQuota_ne_reset _)]
  simp

/-- A refusal accepts nothing. -/
theorem acceptedOf_snoc_overQuota {n : UInt64} :
    acceptedOf (notes ++ [.overQuota n]) nftId = acceptedOf notes nftId := by
  rw [acceptedOf_snoc (QuotaNote.overQuota_ne_reset _), if_neg nofun, add_zero]

/-- Only a note of its own puts an NFT over quota. -/
theorem overQuota_mem_snoc_counted {n : UInt64} {accepted : Bool} :
    .overQuota nftId ∈ thisBatch (notes ++ [.counted n accepted])
      ↔ .overQuota nftId ∈ thisBatch notes := by
  rw [thisBatch_snoc (QuotaNote.counted_ne_reset _ _)]
  simp

/-- Refusals of the batch. -/
theorem overQuota_mem_snoc_overQuota {n : UInt64} :
    .overQuota nftId ∈ thisBatch (notes ++ [.overQuota n])
      ↔ .overQuota nftId ∈ thisBatch notes ∨ nftId = n := by
  rw [thisBatch_snoc (QuotaNote.overQuota_ne_reset _)]
  simp

/-- What is accepted is counted. -/
theorem acceptedOf_le_countedOf : acceptedOf notes nftId ≤ countedOf notes nftId :=
  Nat.le_add_right _ _

end

namespace Settings

variable {P R B : Type} [Externals] [PubkeyProvider P] [RegistrationProvider R]
  [BlockedProvider B]

/-- The checks before the quota never answer as the checks from the quota on do. -/
theorem quotaNote_checkCommit {s : Settings P R B} {c : Commit} {reason : CommitRejectReason}
    (h : s.checkCommit c = some (some reason)) (nftId : UInt64) :
    (CommitResult.rejected reason).quotaNote nftId = none := by
  unfold checkCommit at h
  cases hkey : PubkeyProvider.getPubkey s.pubkeys c.nftId with
  | none =>
      rw [hkey] at h
      dsimp only at h
      split_ifs at h <;> cases h <;> rfl
  | some key =>
      rw [hkey] at h
      dsimp only at h
      split_ifs at h <;> cases h <;> rfl

end Settings

namespace GossipValidator

variable {P R B : Type} [Externals] [PubkeyProvider P] [RegistrationProvider R]
  [BlockedProvider B]

/-- What the answer to a call says about the quotas. -/
def quotaNote (v : GossipValidator P R B) : Call → Option QuotaNote
  | .message (.commit c) => (v.validateCommit c).bind fun a => a.1.quotaNote c.nftId
  | .message _ => none
  | .reset _ => some .reset

/-- In the batch of the current context each NFT has at most as many commits accepted as the
context allows, and an NFT that was over quota had as many counted. -/
def QuotaKept (notes : List QuotaNote) (v : GossipValidator P R B) : Prop :=
  ∀ nftId, acceptedOf notes nftId ≤ v.context.commitsPerBatch.toNat ∧
    (.overQuota nftId ∈ thisBatch notes →
      v.context.commitsPerBatch.toNat ≤ countedOf notes nftId)

/-- The limit of the tracker decides about a commit as that of the context would: a commit with
a free hash is within it only if fewer were accepted than the context allows, and a commit is
beyond it only if as many were counted. -/
def LimitsAgree (limit : UInt64) (notes : List QuotaNote) (v : GossipValidator P R B) :
    Call → Prop
  | .message (.commit c) => v.toSettings.Authentic c →
      (countedOf notes c.nftId < limit.toNat → v.pendingCommits.lookup c.hash = none →
        acceptedOf notes c.nftId < v.context.commitsPerBatch.toNat) ∧
      (countedOf notes c.nftId = limit.toNat →
        v.context.commitsPerBatch.toNat ≤ countedOf notes c.nftId)
  | _ => True

instance (limit : UInt64) (notes : List QuotaNote) (v : GossipValidator P R B) :
    (call : Call) → Decidable (LimitsAgree limit notes v call)
  | .message (.commit _) => inferInstanceAs (Decidable (_ → _))
  | .message (.reveal _) => isTrue trivial
  | .message (.batchComplete _) => isTrue trivial
  | .reset _ => isTrue trivial

/-- The tracker counts the commits of the batch, up to the limit of the first context; an NFT
that was over quota has reached it. -/
structure CountsBatch (limit : UInt64) (notes : List QuotaNote) (v : GossipValidator P R B) :
    Prop where
  stored : v.quotaTracker.commitsPerBatch = limit
  counts : ∀ nftId, (v.quotaTracker.countOf nftId).toNat = countedOf notes nftId
  within : ∀ nftId, countedOf notes nftId ≤ limit.toNat
  full : ∀ nftId, .overQuota nftId ∈ thisBatch notes → countedOf notes nftId = limit.toNat

section

variable {v v' : GossipValidator P R B} {limit : UInt64} {notes : List QuotaNote}

/-- As long as the context keeps the first limit, the limits agree. -/
theorem limitsAgree_of_eq (h : v.context.commitsPerBatch = limit) (call : Call) :
    LimitsAgree limit notes v call := by
  unfold LimitsAgree
  split
  · rename_i c
    rw [h]
    exact fun _ => ⟨fun hlt _ => acceptedOf_le_countedOf.trans_lt hlt, fun hfull => hfull.ge⟩
  · trivial

/-- A call counts an authentic commit that is within quota, refuses one that is not, starts a
batch, or leaves quotas and context alone. -/
theorem quota_cases {call : Call} (h : v.call call = some v') :
    (∃ c accepted, call = .message (.commit c) ∧ v.toSettings.Authentic c ∧
        v.quotaTracker.countOf c.nftId < v.quotaTracker.commitsPerBatch ∧
        (accepted = true ↔ v.pendingCommits.lookup c.hash = none) ∧
        v.quotaNote call = some (.counted c.nftId accepted) ∧
        v'.quotaTracker = v.tracked c ∧ v'.context = v.context) ∨
      (∃ c, call = .message (.commit c) ∧ v.toSettings.Authentic c ∧
        ¬ v.quotaTracker.countOf c.nftId < v.quotaTracker.commitsPerBatch ∧
        v.quotaNote call = some (.overQuota c.nftId) ∧
        v'.quotaTracker = v.tracked c ∧ v'.context = v.context) ∨
      (∃ newContext, call = .reset newContext ∧ v.quotaNote call = some .reset ∧
        v' = v.resetForNewBatch newContext) ∨
      ((∀ c, call = .message (.commit c) → ¬ v.toSettings.Authentic c) ∧
        v.quotaNote call = none ∧ v'.quotaTracker = v.quotaTracker ∧
        v'.context = v.context) := by
  cases call with
  | reset newContext =>
      obtain rfl := Option.some.inj h
      exact .inr (.inr (.inl ⟨newContext, rfl, rfl, rfl⟩))
  | message i =>
      cases i with
      | commit c =>
          obtain ⟨a, ha, rfl⟩ := Option.map_eq_some_iff.mp h
          have hnote : v.quotaNote (.message (.commit c)) = a.1.quotaNote c.nftId := by
            rw [quotaNote, ha, Option.bind_some]
          rw [hnote]
          rw [validateCommit_eq] at ha
          obtain ⟨reason, hcheck, rfl⟩ := Option.map_eq_some_iff.mp ha
          rcases Settings.checkCommit_cases hcheck with ⟨hauth, rfl⟩ | ⟨hnot, reason, rfl⟩
          · dsimp only
            rw [recordCommit_eq]
            -- granted but a duplicate, accepted, over quota
            split_ifs with hquota hpending
            · refine .inl ⟨c, false, rfl, hauth, hquota, ?_, rfl, rfl, rfl⟩
              rw [Option.isSome_iff_ne_none] at hpending
              exact iff_of_false Bool.false_ne_true hpending
            · exact .inl ⟨c, true, rfl, hauth, hquota,
                iff_of_true rfl (Option.not_isSome_iff_eq_none.mp hpending), rfl, rfl, rfl⟩
            · exact .inr (.inl ⟨c, rfl, hauth, hquota, rfl, rfl, rfl⟩)
          · refine .inr (.inr (.inr ⟨?_, Settings.quotaNote_checkCommit hcheck c.nftId, rfl, rfl⟩))
            intro c' hc'
            obtain rfl := Input.commit.inj (Call.message.inj hc')
            exact hnot
      | reveal r =>
          obtain ⟨a, ha, rfl⟩ := Option.map_eq_some_iff.mp h
          refine .inr (.inr (.inr ⟨nofun, rfl, ?_⟩))
          rcases validateReveal_cases ha with ⟨-, -, rfl⟩ | ⟨-, -, hsame⟩
          · exact ⟨rfl, rfl⟩
          · rw [hsame]
            exact ⟨rfl, rfl⟩
      | batchComplete m =>
          obtain ⟨a, ha, rfl⟩ := Option.map_eq_some_iff.mp h
          obtain ⟨seen, hseen⟩ := validateBatchComplete_frame ha
          rw [hseen]
          exact .inr (.inr (.inr ⟨nofun, rfl, rfl, rfl⟩))

section

omit [Externals] [PubkeyProvider P] [RegistrationProvider R] [BlockedProvider B]

/-- The counts after a commit that is within quota. -/
theorem countOf_tracked_of_lt {c : Commit}
    (hquota : v.quotaTracker.countOf c.nftId < v.quotaTracker.commitsPerBatch) (nftId : UInt64) :
    ((v.tracked c).countOf nftId).toNat
      = (v.quotaTracker.countOf nftId).toNat + if nftId = c.nftId then 1 else 0 := by
  rw [tracked, CommitQuotaTracker.countOf_checkAndRecord]
  by_cases hn : nftId = c.nftId
  · have hlt := UInt64.lt_iff_toNat_lt.mp hquota
    have hbound := v.quotaTracker.commitsPerBatch.toNat_lt
    rw [if_pos ⟨hn, hquota⟩, if_pos hn, hn, UInt64.toNat_add, UInt64.toNat_one]
    omega
  · rw [if_neg fun h => hn h.1, if_neg hn, add_zero]

/-- Under the quota there is room below the limit. -/
theorem CountsBatch.lt_limit (h : CountsBatch limit notes v) {nftId : UInt64}
    (hquota : v.quotaTracker.countOf nftId < v.quotaTracker.commitsPerBatch) :
    countedOf notes nftId < limit.toNat := by
  rw [UInt64.lt_iff_toNat_lt, h.counts, h.stored] at hquota
  exact hquota

/-- An NFT that is refused has reached the limit. -/
theorem CountsBatch.eq_limit (h : CountsBatch limit notes v) {nftId : UInt64}
    (hquota : ¬ v.quotaTracker.countOf nftId < v.quotaTracker.commitsPerBatch) :
    countedOf notes nftId = limit.toNat := by
  rw [UInt64.not_lt, UInt64.le_iff_toNat_le, h.counts, h.stored] at hquota
  exact le_antisymm (h.within nftId) hquota

/-- A commit that is tracked leaves the limit. -/
theorem CountsBatch.stored_tracked (h : CountsBatch limit notes v) (c : Commit) :
    (v.tracked c).commitsPerBatch = limit := by
  rw [tracked, CommitQuotaTracker.commitsPerBatch_checkAndRecord, h.stored]

/-- A commit that is within quota is counted. -/
theorem CountsBatch.counted (h : CountsBatch limit notes v) {c : Commit} (accepted : Bool)
    (hquota : v.quotaTracker.countOf c.nftId < v.quotaTracker.commitsPerBatch)
    (htracker : v'.quotaTracker = v.tracked c) :
    CountsBatch limit (notes ++ [.counted c.nftId accepted]) v' := by
  have hlt := h.lt_limit hquota
  constructor
  · rw [htracker]
    exact h.stored_tracked c
  · intro nftId
    rw [htracker, countOf_tracked_of_lt hquota, countedOf_snoc_counted, h.counts]
  · intro nftId
    rw [countedOf_snoc_counted]
    have hwithin := h.within nftId
    split_ifs with hn
    · rw [hn]
      omega
    · exact hwithin
  · intro nftId hover
    have hfull := h.full nftId (overQuota_mem_snoc_counted.mp hover)
    rw [countedOf_snoc_counted, if_neg, add_zero, hfull]
    rintro rfl
    omega

/-- A commit that is not is over quota, and no count changes. -/
theorem CountsBatch.overQuota (h : CountsBatch limit notes v) {c : Commit}
    (hquota : ¬ v.quotaTracker.countOf c.nftId < v.quotaTracker.commitsPerBatch)
    (htracker : v'.quotaTracker = v.tracked c) :
    CountsBatch limit (notes ++ [.overQuota c.nftId]) v' := by
  constructor
  · rw [htracker]
    exact h.stored_tracked c
  · intro nftId
    rw [htracker, tracked, CommitQuotaTracker.countOf_checkAndRecord,
      if_neg fun hboth => hquota hboth.2, countedOf_snoc_overQuota, h.counts]
  · intro nftId
    rw [countedOf_snoc_overQuota]
    exact h.within nftId
  · intro nftId hover
    rw [countedOf_snoc_overQuota]
    rcases overQuota_mem_snoc_overQuota.mp hover with hold | rfl
    · exact h.full nftId hold
    · exact h.eq_limit hquota

/-- After a counted commit the limits of the context are kept if it was not accepted, or fewer
were accepted before than the context allows. -/
theorem quotaKept_counted_iff (hkept : QuotaKept notes v) (hcontext : v'.context = v.context)
    (nftId : UInt64) (accepted : Bool) :
    QuotaKept (notes ++ [.counted nftId accepted]) v' ↔
      (accepted = true → acceptedOf notes nftId < v.context.commitsPerBatch.toNat) := by
  unfold QuotaKept at hkept ⊢
  rw [hcontext]
  constructor
  · rintro hkept' rfl
    have haccepted := (hkept' nftId).1
    rw [acceptedOf_snoc (QuotaNote.counted_ne_reset _ _), if_pos rfl] at haccepted
    exact haccepted
  · intro hroom n
    constructor
    · rw [acceptedOf_snoc (QuotaNote.counted_ne_reset _ _)]
      split_ifs with heq
      · obtain ⟨rfl, rfl⟩ := QuotaNote.counted.inj heq
        exact hroom rfl
      · exact (hkept n).1
    · intro hover
      refine ((hkept n).2 (overQuota_mem_snoc_counted.mp hover)).trans ?_
      rw [countedOf_snoc_counted]
      exact Nat.le_add_right _ _

/-- After a commit over quota they are kept if the context allows no more than were counted. -/
theorem quotaKept_overQuota_iff (hkept : QuotaKept notes v) (hcontext : v'.context = v.context)
    (nftId : UInt64) :
    QuotaKept (notes ++ [.overQuota nftId]) v' ↔
      v.context.commitsPerBatch.toNat ≤ countedOf notes nftId := by
  unfold QuotaKept at hkept ⊢
  simp only [hcontext, acceptedOf_snoc_overQuota, countedOf_snoc_overQuota,
    overQuota_mem_snoc_overQuota]
  constructor
  · intro hkept'
    exact (hkept' nftId).2 (.inr rfl)
  · intro hfull n
    refine ⟨(hkept n).1, ?_⟩
    rintro (hold | rfl)
    · exact (hkept n).2 hold
    · exact hfull

end

/-- **Step.**  Every call keeps the counts of the batch. -/
theorem CountsBatch.call (h : CountsBatch limit notes v) {call : Call}
    (hstep : v.call call = some v') :
    CountsBatch limit (notes ++ (v.quotaNote call).toList) v' := by
  rcases quota_cases hstep with ⟨c, accepted, rfl, -, hquota, -, hnote, htracker, -⟩
    | ⟨c, rfl, -, hquota, hnote, htracker, -⟩ | ⟨newContext, rfl, hnote, rfl⟩
    | ⟨-, hnote, htracker, -⟩
  · rw [hnote, Option.toList_some]
    exact h.counted accepted hquota htracker
  · rw [hnote, Option.toList_some]
    exact h.overQuota hquota htracker
  · rw [hnote, Option.toList_some]
    refine ⟨h.stored, fun nftId => ?_, fun nftId => ?_, fun nftId hover => ?_⟩
    · rw [countedOf, acceptedOf, thisBatch_snoc_reset]
      rfl
    · rw [countedOf, acceptedOf, thisBatch_snoc_reset]
      exact Nat.zero_le _
    · rw [thisBatch_snoc_reset] at hover
      exact absurd hover List.not_mem_nil
  · rw [hnote, Option.toList_none, List.append_nil]
    refine ⟨?_, fun nftId => ?_, h.within, h.full⟩
    · rw [htracker, h.stored]
    · rw [htracker, h.counts]

/-- **Step.**  After a call the limits of the context are kept if and only if the limits agreed
about it. -/
theorem quotaKept_call_iff (h : CountsBatch limit notes v) (hkept : QuotaKept notes v)
    {call : Call} (hstep : v.call call = some v') :
    QuotaKept (notes ++ (v.quotaNote call).toList) v' ↔ LimitsAgree limit notes v call := by
  rcases quota_cases hstep with ⟨c, accepted, rfl, hauth, hquota, hfree, hnote, -, hcontext⟩
    | ⟨c, rfl, hauth, hquota, hnote, -, hcontext⟩ | ⟨newContext, rfl, hnote, rfl⟩
    | ⟨hnot, hnote, -, hcontext⟩
  · have hlt := h.lt_limit hquota
    rw [hnote, Option.toList_some, quotaKept_counted_iff hkept hcontext, hfree]
    constructor
    · exact fun hroom _ => ⟨fun _ => hroom, fun hfull => by omega⟩
    · exact fun hagree => (hagree hauth).1 hlt
  · have hfull := h.eq_limit hquota
    rw [hnote, Option.toList_some, quotaKept_overQuota_iff hkept hcontext]
    constructor
    · exact fun hle _ => ⟨fun hless => by omega, fun _ => hle⟩
    · exact fun hagree => (hagree hauth).2 hfull
  · refine iff_of_true (fun nftId => ?_) trivial
    rw [hnote, Option.toList_some, acceptedOf, thisBatch_snoc_reset]
    exact ⟨Nat.zero_le _, fun hover => absurd hover List.not_mem_nil⟩
  · rw [hnote, Option.toList_none, List.append_nil]
    refine iff_of_true (fun nftId => ?_) ?_
    · rw [hcontext]
      exact hkept nftId
    · unfold LimitsAgree
      split
      · rename_i c
        exact fun hauth => absurd hauth (hnot c rfl)
      · trivial

end

/-- **Whose limit.**  At every point of a run the limits of the current context are kept if and
only if the limit of the first context agrees with that of the current one about every
commit. -/
theorem quota_follows_context_iff (pubkeys : P) (registration : R) (blocked : B)
    (context : ValidationContext) {calls : List Call} {v : GossipValidator P R B}
    (hrun : lifetime.run (new pubkeys registration blocked context) calls = some v) :
    lifetime.Throughout quotaNote QuotaKept [] (new pubkeys registration blocked context)
        calls ↔
      lifetime.FollowsSince quotaNote (LimitsAgree context.commitsPerBatch) []
        (new pubkeys registration blocked context) calls := by
  refine lifetime.throughout_iff_followsSince quotaNote
    (J := CountsBatch context.commitsPerBatch) ?_ ?_ ?_ ?_ hrun
  · exact fun notes v call v' h hstep => h.call hstep
  · exact fun notes v call v' h hkept hstep => quotaKept_call_iff h hkept hstep
  · exact ⟨rfl, fun _ => rfl, fun _ => Nat.zero_le _, fun _ h => absurd h List.not_mem_nil⟩
  · exact fun _ => ⟨Nat.zero_le _, fun h => absurd h List.not_mem_nil⟩

end GossipValidator

/-! ## Limits of one and of three -/

namespace GossipValidator

section

attribute [local instance] commitExternals

/-- The two commits of NFT 2, after a reset to a context with a limit. -/
def resetThenCommits (commitsPerBatch : UInt64) : List Call :=
  [.reset ⟨7, 0, 1, commitsPerBatch⟩, .message (.commit buyCommit),
    .message (.commit otherCommit)]

/-- With the same limit before and after the reset, the quota is that of the context. -/
theorem quota_kept_after_reset :
    lifetime.Throughout quotaNote QuotaKept [] (sampleValidator 3) (resetThenCommits 3) :=
  (quota_follows_context_iff _ _ _ _
    (System.run_eq_some_getD _ (d := sampleValidator 3) (by decide +kernel))).mpr
    (by decide +kernel)

/-- After a reset from a limit of three to a limit of one both commits are accepted, and after
one from one to three the second commit is over quota. -/
theorem first_limit_stays :
    (¬ ∀ (s : Settings (UInt64 → Option VerifyingKey) (UInt64 → Bool) (UInt64 → Bool))
      (calls : List Call) (v : GossipValidator _ _ _),
      lifetime.run (new s.pubkeys s.registration s.blocked s.context) calls = some v →
      lifetime.Throughout quotaNote QuotaKept []
        (new s.pubkeys s.registration s.blocked s.context) calls) ∧
      ¬ lifetime.Throughout quotaNote QuotaKept [] (sampleValidator 1) (resetThenCommits 3) := by
  constructor
  · intro h
    have hrun : lifetime.run (sampleValidator 3) (resetThenCommits 1) = some _ :=
      System.run_eq_some_getD _ (d := sampleValidator 3) (by decide +kernel)
    have hkept := (h (sampleSettings 3) (resetThenCommits 1) _ hrun _ List.prefix_rfl _ hrun 2).1
    exact absurd hkept (by decide +kernel)
  · intro h
    have hrun : lifetime.run (sampleValidator 1) (resetThenCommits 3) = some _ :=
      System.run_eq_some_getD _ (d := sampleValidator 1) (by decide +kernel)
    have hkept := (h _ List.prefix_rfl _ hrun 2).2 (by decide +kernel)
    exact absurd hkept (by decide +kernel)

end

end GossipValidator

end GossipValidation
