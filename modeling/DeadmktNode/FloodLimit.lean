/-
# The message limit over runs

A stored count is the number of messages that were accepted for its NFT and batch
(`Counted.counts`).  A count is dropped only when its batch has fallen behind the window, which
never moves back; so no order of refusals, expiries and moves opens more than the ten slots
(`accepted_within_limit`).
-/
import DeadmktNode.ValidatorCalls

namespace GossipValidator

section

variable [Externals]

/-- The message that a call accepts. -/
def acceptedMessage (v : GossipValidator) : ValidatorCall → Option InboundMessage
  | .message msg => if (v.accept msg).1 = true then some msg else none
  | _ => none

/-- How many messages were accepted for an NFT and a batch. -/
def acceptedFor (nftId batchId : UInt64) (accepted : List InboundMessage) : ℕ :=
  accepted.countP fun msg => (msg.nftId, msg.batchId) = (nftId, batchId)

/-! ## The invariant -/

/-- The batch has fallen behind the window. -/
def Behind (v : GossipValidator) (batchId : UInt64) : Prop :=
  v.currentBatchId ≠ 0 ∧ batchId < v.currentBatchId.saturatingSub batchWindow

/-- What was accepted for an NFT and a batch is within the limit and is the stored count; where
none is stored, nothing was accepted or nothing will be. -/
structure Counted (accepted : List InboundMessage) (v : GossipValidator)
    (nftId batchId : UInt64) : Prop where
  within : acceptedFor nftId batchId accepted ≤ maxMsgsPerNftPerBatch.toNat
  counts : ∀ count, v.msgCounts.lookup (nftId, batchId) = some count →
    count.toNat = acceptedFor nftId batchId accepted
  closed : v.msgCounts.lookup (nftId, batchId) = none →
    acceptedFor nftId batchId accepted = 0 ∨ v.Behind batchId

omit [Externals] in
/-- A batch that is behind is out of range. -/
theorem not_behind_of_inRange {v : GossipValidator} {batchId : UInt64}
    (h : v.isBatchInRange batchId = true) : ¬ v.Behind batchId := by
  rintro ⟨hknown, hlt⟩
  unfold isBatchInRange at h
  rw [if_neg hknown] at h
  have hlower := of_decide_eq_true (Bool.and_eq_true_iff.mp h).1
  exact UInt64.not_lt.mpr hlower hlt

omit [Externals] in
/-- The window does not move back. -/
theorem Behind.mono {v v' : GossipValidator} {batchId : UInt64} (h : v.Behind batchId)
    (hle : v.currentBatchId ≤ v'.currentBatchId) : v'.Behind batchId := by
  obtain ⟨hknown, hlt⟩ := h
  have hpos : v.currentBatchId.toNat ≠ 0 := fun h => hknown (UInt64.toNat_inj.mp h)
  rw [UInt64.le_iff_toNat_le] at hle
  rw [UInt64.lt_iff_toNat_lt, UInt64.toNat_saturatingSub] at hlt
  refine ⟨fun h => ?_, ?_⟩
  · rw [h, UInt64.toNat_zero] at hle
    omega
  · rw [UInt64.lt_iff_toNat_lt, UInt64.toNat_saturatingSub]
    omega

omit [Externals] in
theorem acceptedFor_append (nftId batchId : UInt64) (accepted more : List InboundMessage) :
    acceptedFor nftId batchId (accepted ++ more)
      = acceptedFor nftId batchId accepted + acceptedFor nftId batchId more :=
  List.countP_append

section

variable {accepted : List InboundMessage} {v v' : GossipValidator} {nftId batchId : UInt64}

omit [Externals]

/-- What concerns neither the count nor the messages of a pair keeps its invariant. -/
theorem Counted.congr (h : v.Counted accepted nftId batchId) {accepted' : List InboundMessage}
    (haccepted : acceptedFor nftId batchId accepted' = acceptedFor nftId batchId accepted)
    (hlookup : v'.msgCounts.lookup (nftId, batchId) = v.msgCounts.lookup (nftId, batchId))
    (hle : v.currentBatchId ≤ v'.currentBatchId) : v'.Counted accepted' nftId batchId where
  within := haccepted ▸ h.within
  counts count hcount := haccepted ▸ h.counts count (hlookup ▸ hcount)
  closed hnone := by
    rw [haccepted]
    exact (h.closed (hlookup ▸ hnone)).imp_right fun hbehind => hbehind.mono hle

/-- In the window the slots taken are the messages accepted. -/
theorem Counted.toNat_slots (h : v.Counted accepted nftId batchId)
    (hrange : v.isBatchInRange batchId = true) :
    (v.slots nftId batchId).toNat = acceptedFor nftId batchId accepted := by
  unfold slots
  cases hlookup : v.msgCounts.lookup (nftId, batchId) with
  | some count => exact h.counts count hlookup
  | none =>
      have hzero := (h.closed hlookup).resolve_right (not_behind_of_inRange hrange)
      rw [hzero]
      rfl

/-- A stored count of what was accepted. -/
theorem Counted.of_stored {count : UInt32}
    (hlookup : v.msgCounts.lookup (nftId, batchId) = some count)
    (hcount : count.toNat = acceptedFor nftId batchId accepted)
    (hwithin : count.toNat ≤ maxMsgsPerNftPerBatch.toNat) : v.Counted accepted nftId batchId where
  within := hcount ▸ hwithin
  counts count' hcount' := by
    obtain rfl := Option.some.inj (hlookup.symm.trans hcount')
    exact hcount
  closed hnone := by
    rw [hlookup] at hnone
    cases hnone

theorem Counted.expireOldBatches (h : v.Counted accepted nftId batchId) :
    v.expireOldBatches.Counted accepted nftId batchId := by
  have hlookup := v.lookup_msgCounts_expireOldBatches (nftId, batchId)
  have hcurrent := v.currentBatchId_expireOldBatches
  by_cases hkeep : v.currentBatchId.saturatingSub batchWindow ≤ batchId
  · rw [if_pos hkeep] at hlookup
    exact h.congr rfl hlookup (by rw [hcurrent]; exact UInt64.le_refl _)
  · -- the count is dropped, and the batch is behind
    rw [if_neg hkeep] at hlookup
    refine ⟨h.within, fun count hcount => ?_, fun _ => .inr ⟨fun hzero => ?_, ?_⟩⟩
    · rw [hlookup] at hcount
      cases hcount
    · rw [hcurrent] at hzero
      exact hkeep (by rw [hzero]; exact UInt64.zero_le)
    · rw [hcurrent]
      exact UInt64.not_le.mp hkeep

end

/-- **Message.**  An accepted message is counted, and takes a slot that was free. -/
theorem Counted.accept {accepted : List InboundMessage} {v : GossipValidator}
    {nftId batchId : UInt64} (h : v.Counted accepted nftId batchId) (msg : InboundMessage) :
    (v.accept msg).2.Counted (accepted ++ (v.acceptedMessage (.message msg)).toList)
      nftId batchId := by
  have hout := v.outcome_accept msg
  dsimp only [acceptedMessage]
  generalize v.accept msg = result at hout ⊢
  obtain ⟨verdict, v'⟩ := result
  dsimp only at hout ⊢
  by_cases hmine : v.Fresh msg ∧ (nftId, batchId) = (msg.nftId, msg.batchId)
  · obtain ⟨hfresh, heq⟩ := hmine
    obtain ⟨rfl, rfl⟩ := Prod.mk.inj heq
    -- the message has the sender and the batch that are counted
    have hslots := h.toNat_slots hfresh.1
    have hlookup := hout.counts (msg.nftId, msg.batchId)
    rw [if_pos ⟨hfresh, rfl⟩] at hlookup
    cases verdict with
    | false =>
        rw [if_neg Bool.false_ne_true, UInt32.add_zero] at hlookup
        rw [if_neg Bool.false_ne_true, Option.toList_none, List.append_nil]
        exact .of_stored hlookup hslots (hslots ▸ h.within)
    | true =>
        -- accepted only below the limit, so the counter does not wrap
        have hfree : (v.slots msg.nftId msg.batchId).toNat < 10 :=
          UInt32.lt_iff_toNat_lt.mp (hout.verdict.mp rfl).2.1
        have hone : (v.slots msg.nftId msg.batchId + 1).toNat
            = (v.slots msg.nftId msg.batchId).toNat + 1 := by
          rw [UInt32.toNat_add, show (1 : UInt32).toNat = 1 from rfl]
          omega
        have hcounted : acceptedFor msg.nftId msg.batchId [msg] = 1 := by
          simp [acceptedFor]
        rw [if_pos rfl] at hlookup
        rw [if_pos rfl, Option.toList_some]
        refine .of_stored hlookup ?_ ?_
        · rw [hone, acceptedFor_append, hcounted, hslots]
        · rw [hone]
          exact hfree
  · refine h.congr ?_ ?_ (by rw [hout.current]; exact UInt64.le_refl _)
    · rw [acceptedFor_append, Nat.add_eq_left]
      cases verdict with
      | false => rfl
      | true =>
          -- a message of others counts elsewhere
          have hother : ¬ (msg.nftId, msg.batchId) = (nftId, batchId) :=
            fun heq => hmine ⟨(hout.verdict.mp rfl).1, heq.symm⟩
          exact List.countP_eq_zero.mpr (by simpa using hother)
    · rw [hout.counts, if_neg hmine]

/-- **Step.** -/
theorem Counted.perform {accepted : List InboundMessage} {v : GossipValidator}
    {nftId batchId : UInt64} (h : v.Counted accepted nftId batchId) (call : ValidatorCall) :
    (v.perform call).Counted (accepted ++ (v.acceptedMessage call).toList) nftId batchId := by
  cases call with
  | message msg => exact h.accept msg
  | updateBatch newBatchId =>
      rw [show v.perform (.updateBatch newBatchId) = _ from v.updateBatch_eq newBatchId]
      refine h.congr (congrArg _ (List.append_nil _)) rfl ?_
      dsimp only
      split_ifs with hlt
      · exact UInt64.le_of_lt hlt
      · exact UInt64.le_refl _
  | expireOldBatches =>
      rw [show accepted ++ (v.acceptedMessage .expireOldBatches).toList = accepted from
        List.append_nil _]
      exact h.expireOldBatches
  | cachePubkey nft key =>
      exact h.congr (congrArg _ (List.append_nil _)) rfl (UInt64.le_refl _)

omit [Externals] in
/-- At start-up nothing is counted. -/
theorem counted_new (initialBatchId nftId batchId : UInt64) :
    (new initialBatchId).Counted [] nftId batchId where
  within := Nat.zero_le _
  counts count hcount := by cases hcount
  closed _ := .inl rfl

/-- **Runs.**  Whatever the order of calls, no more than the limit is ever accepted for an NFT
and a batch, and a stored count is the number accepted so far. -/
theorem accepted_within_limit (initialBatchId : UInt64) (cs : List ValidatorCall)
    (nftId batchId : UInt64) :
    let accepted := calls.trace acceptedMessage (new initialBatchId) cs
    acceptedFor nftId batchId accepted ≤ maxMsgsPerNftPerBatch.toNat ∧
      ∀ count, (cs.foldl perform (new initialBatchId)).msgCounts.lookup (nftId, batchId)
        = some count → count.toNat = acceptedFor nftId batchId accepted := by
  have hcounted := calls.trace_history acceptedMessage
    (I := fun accepted v => v.Counted accepted nftId batchId)
    (fun accepted v call v' h hstep => by
      obtain rfl := Option.some.inj hstep
      exact h.perform call)
    (counted_new initialBatchId nftId batchId) (run_calls (new initialBatchId) cs)
  exact ⟨hcounted.within, hcounted.counts⟩

end

end GossipValidator
