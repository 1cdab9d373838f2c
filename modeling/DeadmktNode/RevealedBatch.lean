/-
# The batch of a revealed order

A reveal names a batch twice: in the message, which must be that of the context, and in the
signed order, which is compared with nothing.  A commit is a hash, so it does not tie its order
to the batch either.  Every accepted reveal carries an order of the current batch exactly as
long as no NFT commits to an order of another batch and then reveals it
(`revealed_batch_current_iff`).
-/
import DeadmktNode.RevealSafety

namespace GossipValidation

namespace GossipValidator

variable {P R B : Type} [Externals] [PubkeyProvider P] [RegistrationProvider R]
  [BlockedProvider B]

/-- The batch of an order whose reveal is accepted, beside the batch of the context. -/
def revealedBatch (v : GossipValidator P R B) : Call → Option (UInt64 × UInt64)
  | .message (.reveal r) =>
      if v.accepts (.reveal r) then some (r.order.batchId, v.context.currentBatchId) else none
  | _ => none

/-- Every revealed order is one of the batch it was revealed in. -/
def RevealedInBatch (shown : List (UInt64 × UInt64)) : Prop :=
  ∀ batches ∈ shown, batches.1 = batches.2

instance (shown : List (UInt64 × UInt64)) : Decidable (RevealedInBatch shown) :=
  List.decidableBAll _ shown

/-- A signed reveal of a hash that its NFT has committed to, and that it has not revealed yet,
names the same batch in the message and in the order. -/
def NamesOneBatch (v : GossipValidator P R B) : Call → Prop
  | .message (.reveal r) =>
      v.toSettings.AuthenticReveal r ∧ v.Awaits r.order.nftId (orderHash r.order) →
        r.order.batchId = r.batchId
  | _ => True

instance (v : GossipValidator P R B) (nftId : UInt64) (hash : Hash32) :
    Decidable (v.Awaits nftId hash) :=
  inferInstanceAs (Decidable (_ ∧ _))

instance (v : GossipValidator P R B) : (call : Call) → Decidable (v.NamesOneBatch call)
  | .message (.reveal _) => inferInstanceAs (Decidable (_ → _))
  | .message (.commit _) => isTrue trivial
  | .message (.batchComplete _) => isTrue trivial
  | .reset _ => isTrue trivial

section

variable {v v' : GossipValidator P R B}

/-- A reveal is accepted if it is signed and its hash is waited for. -/
theorem accepts_reveal_iff {r : Reveal} (h : v.step (.reveal r) = some v') :
    v.accepts (.reveal r) = true ↔
      v.toSettings.AuthenticReveal r ∧ v.Awaits r.order.nftId (orderHash r.order) := by
  obtain ⟨a, ha, -⟩ := Option.map_eq_some_iff.mp h
  rw [accepts, ha, Option.any_some, decide_eq_true_eq]
  rcases validateReveal_cases ha with ⟨hauth, hawaits, rfl⟩ | ⟨hnot, hrefused, -⟩
  · exact iff_of_true rfl ⟨hauth, hawaits⟩
  · exact iff_of_false hrefused hnot

/-- **Step.**  A call adds no order of another batch if and only if it is no accepted reveal
that names two batches. -/
theorem revealedInBatch_call_iff {shown : List (UInt64 × UInt64)} (hshown : RevealedInBatch shown)
    {call : Call} (h : v.call call = some v') :
    RevealedInBatch (shown ++ (v.revealedBatch call).toList) ↔ v.NamesOneBatch call := by
  have hquiet : RevealedInBatch (shown ++ (none : Option (UInt64 × UInt64)).toList) := by
    rwa [Option.toList_none, List.append_nil]
  cases call with
  | reset newContext => exact iff_of_true hquiet trivial
  | message i =>
      cases i with
      | commit c => exact iff_of_true hquiet trivial
      | batchComplete m => exact iff_of_true hquiet trivial
      | reveal r =>
          have haccepts := accepts_reveal_iff h
          show RevealedInBatch (shown ++ (if v.accepts (.reveal r) then
              some (r.order.batchId, v.context.currentBatchId) else none).toList) ↔ (_ → _)
          split_ifs with haccepted
          · -- the message is for the batch of the context
            obtain ⟨hauth, hawaits⟩ := haccepts.mp haccepted
            have hsplit : RevealedInBatch (shown ++ [(r.order.batchId, v.context.currentBatchId)])
                ↔ RevealedInBatch shown ∧ r.order.batchId = v.context.currentBatchId := by
              unfold RevealedInBatch
              rw [List.forall_mem_append, List.forall_mem_singleton]
            rw [Option.toList_some, hsplit, and_iff_right hshown,
              forall_prop_of_true ⟨hauth, hawaits⟩, hauth.1]
          · exact iff_of_true hquiet fun hboth => absurd (haccepts.mpr hboth) haccepted

end

/-- **The revealed batch.**  In a run from the creation of the validator every accepted reveal
carries an order of the current batch if and only if no NFT reveals an order of another batch
that it has committed to. -/
theorem revealed_batch_current_iff (pubkeys : P) (registration : R) (blocked : B)
    (context : ValidationContext) {calls : List Call} {v : GossipValidator P R B}
    (hrun : lifetime.run (new pubkeys registration blocked context) calls = some v) :
    lifetime.Throughout revealedBatch (fun shown _ => RevealedInBatch shown) []
        (new pubkeys registration blocked context) calls ↔
      lifetime.Follows NamesOneBatch (new pubkeys registration blocked context) calls := by
  refine lifetime.throughout_iff revealedBatch (J := fun _ _ => True) ?_ ?_ trivial ?_ hrun
  · intro shown v call v' _ _
    trivial
  · intro shown v call v' _ hshown hstep
    exact revealedInBatch_call_iff hshown hstep
  · intro batches hmem
    exact absurd hmem List.not_mem_nil

end GossipValidator

/-! ## An order of batch 7 in batch 8 -/

namespace GossipValidator

section

/-- NFT 2 commits in batch 8 to its buy of batch 7. -/
def lateCommit : Commit where
  batchId := 8
  poolId := 0
  hash := buyHash
  nftId := 2
  signature :=
    [4, 116, 195, 181, 188, 215, 141, 224, 170, 230, 129, 85, 226, 242, 45, 173, 235, 211, 82,
      242, 252, 100, 238, 213, 225, 117, 223, 208, 72, 201, 227, 199, 57, 125, 224, 237, 45, 226,
      227, 171, 56, 156, 134, 255, 56, 45, 139, 31, 139, 146, 117, 12, 137, 43, 207, 76, 139, 55,
      195, 75, 232, 56, 98, 15]

/-- The reference implementation that knows this commit as well. -/
@[reducible] def lateExternals : Externals :=
  referenceExternals (sampleSignatures ++
    [buyCommit.signed (Vector.replicate 32 2) buyerKey,
      lateCommit.signed (Vector.replicate 32 2) buyerKey])

attribute [local instance] lateExternals

/-- A commit to the sample buy and its reveal. -/
def commitAndReveal (c : Commit) : List Call :=
  [.message (.commit c), .message (.reveal ⟨c.batchId, c.poolId, sampleBuy, buySignature⟩)]

/-- In batch 7 the buy is revealed in its own batch. -/
theorem buy_revealed_in_batch :
    lifetime.Throughout revealedBatch (fun shown _ => RevealedInBatch shown) []
      (sampleValidator 3) (commitAndReveal buyCommit) :=
  (revealed_batch_current_iff _ _ _ _
    (System.run_eq_some_getD _ (d := sampleValidator 3) (by decide +kernel))).mpr
    (by decide +kernel)

/-- In batch 8 a reveal of the buy of batch 7 is accepted. -/
theorem late_buy_revealed :
    ¬ ∀ (s : Settings (UInt64 → Option VerifyingKey) (UInt64 → Bool) (UInt64 → Bool))
      (calls : List Call) (v : GossipValidator _ _ _),
      lifetime.run (new s.pubkeys s.registration s.blocked s.context) calls = some v →
      lifetime.Throughout revealedBatch (fun shown _ => RevealedInBatch shown) []
        (new s.pubkeys s.registration s.blocked s.context) calls := by
  intro h
  have hrun : lifetime.run (sampleValidator 3)
      (.reset ⟨8, 0, 1, 3⟩ :: commitAndReveal lateCommit) = some _ :=
    System.run_eq_some_getD _ (d := sampleValidator 3) (by decide +kernel)
  have hshown := h (sampleSettings 3) _ _ hrun _ List.prefix_rfl _ hrun
  exact absurd hshown (by decide +kernel)

end

end GossipValidator

end GossipValidation
