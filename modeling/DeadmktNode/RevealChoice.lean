/-
# The choice of reveals

The strategy answers REVEAL with positions in the list of committed orders.  Its answer is taken
as it is: the positions are revealed one after another, as often as they are named, and a
position without a committed order is revealed as a placeholder (`reveals_as_chosen`).  Numbers
of 2^32 and more do not reach REVEAL as they were written: they are cut to 32 bits.
-/
import DeadmktNode.LiveNode

/-! ## The answer -/

/-- The indices of a JSON answer.  The array is given by what each entry reads as an unsigned
number of 64 bits; other entries are left out. -/
def revealIndicesOfJson (indices : List (Option UInt64)) : List UInt32 :=
  indices.filterMap fun v => v.map UInt64.toUInt32

/-- Every number of the answer has 32 bits. -/
def FitsU32 (indices : List (Option UInt64)) : Prop :=
  ∀ n : UInt64, some n ∈ indices → n.toNat < 2 ^ 32

/-- The positions that are to be revealed: those of the answer as they are written, or on a
timeout those of all counted commits. -/
def chosenPositions (myCommitCount : ℕ) : Option (List (Option UInt64)) → List ℕ
  | none => List.range (myCommitCount % 2 ^ 32)
  | some indices => indices.filterMap fun v => v.map UInt64.toNat

namespace Orchestrator

variable {G B : Type}

/-- The order bytes and the signature that stand for a position. -/
def revealedPair (o : Orchestrator G B) (position : ℕ) : Bytes × Bytes :=
  match o.committedOrders[position]? with
  | some order => (order.orderBytes, order.signature)
  | none => ([UInt8.ofNat position], List.replicate 64 0)

/-- The reveal of a position. -/
def revealOfPosition [BatchStatePort B] (o : Orchestrator G B) (position : ℕ) : RevealMessage where
  nftId := o.nodeNftId
  poolId := o.poolId
  batchId := o.batchId
  orderBytes := (o.revealedPair position).1
  signature := (o.revealedPair position).2

theorem revealAt_eq_revealOfPosition [BatchStatePort B] (o : Orchestrator G B) (idx : UInt32) :
    o.revealAt o.batchId o.poolId idx = o.revealOfPosition idx.toNat := by
  unfold revealAt revealOfPosition revealedPair
  cases o.committedOrders[idx.toNat]? with
  | some order => rfl
  | none => rfl

/-- A committed position stands for its order. -/
theorem revealedPair_of_lt (o : Orchestrator G B) {position : ℕ}
    (h : position < o.committedOrders.length) :
    o.revealedPair position
      = (o.committedOrders[position].orderBytes, o.committedOrders[position].signature) := by
  unfold revealedPair
  rw [List.getElem?_eq_getElem h]

/-- All committed positions stand for the committed orders. -/
theorem map_revealedPair_range (o : Orchestrator G B) :
    (List.range o.committedOrders.length).map o.revealedPair
      = o.committedOrders.map fun order => (order.orderBytes, order.signature) := by
  refine List.ext_getElem (by simp) fun i hi hi' => ?_
  rw [List.getElem_map, List.getElem_map, List.getElem_range]
  exact o.revealedPair_of_lt (by simpa using hi)

/-! ## The indices -/

/-- Numbers of 32 bits are taken as they are written. -/
theorem map_toNat_revealIndicesOfJson {indices : List (Option UInt64)} (h : FitsU32 indices) :
    (revealIndicesOfJson indices).map UInt32.toNat
      = indices.filterMap fun v => v.map UInt64.toNat := by
  unfold revealIndicesOfJson
  rw [List.map_filterMap]
  refine List.filterMap_congr fun v hv => ?_
  cases v with
  | none => rfl
  | some n =>
      have hn : n.toNat % 2 ^ 32 = n.toNat := Nat.mod_eq_of_lt (h n hv)
      simpa using hn

theorem map_toNat_revealIndices (myCommitCount : ℕ) {response : Option (List (Option UInt64))}
    (h : ∀ indices ∈ response, FitsU32 indices) :
    (revealIndices myCommitCount (response.map revealIndicesOfJson)).map UInt32.toNat
      = chosenPositions myCommitCount response := by
  cases response with
  | some indices => exact map_toNat_revealIndicesOfJson (h indices rfl)
  | none =>
      show ((List.range (UInt32.ofNat myCommitCount).toNat).map UInt32.ofNat).map UInt32.toNat = _
      rw [List.map_map, UInt32.toNat_ofNat']
      refine (List.map_congr_left fun position hposition => ?_).trans (List.map_id _)
      have hlt : position < 2 ^ 32 :=
        (List.mem_range.mp hposition).trans (Nat.mod_lt _ (by norm_num))
      exact (UInt32.toNat_ofNat').trans (Nat.mod_eq_of_lt hlt)

/-! ## What is published -/

section

variable [Externals]

/-- **REVEAL.**  It publishes, and hands to gossip, one reveal for each position that the answer
names, in its order and as often as it names it; a position without a committed order is
published as a placeholder of its low byte and of zeros.  On a timeout that is every committed
order once, if all of them are counted. -/
theorem reveals_as_chosen (o : LiveOrchestrator) (myCommitCount : ℕ)
    (response : Option (List (Option UInt64))) (h : ∀ indices ∈ response, FitsU32 indices) :
    let positions := chosenPositions myCommitCount response
    let o' := o.onRevealPhase myCommitCount (response.map revealIndicesOfJson)
    o'.publishedReveals = o.publishedReveals ++ positions.map o.revealOfPosition ∧
      o'.gossip.pendingReveals = o.gossip.pendingReveals ++ positions.map (fun position =>
        (o.poolId, GossipBridge.revealMessage (o.revealOfPosition position))) ∧
      (response = none → myCommitCount = o.committedOrders.length → myCommitCount < 2 ^ 32 →
        positions.map o.revealedPair
          = o.committedOrders.map fun order => (order.orderBytes, order.signature)) := by
  intro positions o'
  have hpositions := map_toNat_revealIndices myCommitCount h
  have ho' := LiveNode.foldl_revealOrder o.batchId o.poolId
    (revealIndices myCommitCount (response.map revealIndicesOfJson)) o
  refine ⟨?_, ?_, ?_⟩
  · show (List.foldl _ _ _ : LiveOrchestrator).publishedReveals = _
    rw [ho', show positions = _ from hpositions.symm, List.map_map]
    refine congrArg _ (List.map_congr_left fun idx _ => ?_)
    exact o.revealAt_eq_revealOfPosition idx
  · show (List.foldl _ _ _ : LiveOrchestrator).gossip.pendingReveals = _
    rw [ho', show positions = _ from hpositions.symm, List.map_map]
    refine congrArg _ (List.map_congr_left fun idx _ => ?_)
    exact congrArg (fun r => (o.poolId, GossipBridge.revealMessage r))
      (o.revealAt_eq_revealOfPosition idx)
  · rintro rfl hcount hlt
    show (List.range (myCommitCount % 2 ^ 32)).map o.revealedPair = _
    rw [Nat.mod_eq_of_lt hlt, hcount]
    exact o.map_revealedPair_range

end

section

attribute [local instance] sampleExternals

/-- A publisher of one order. -/
def sampleRevealer : LiveOrchestrator :=
  { (sampleNode 1).orchestrator with committedOrders := [committedSell] }

/-- The answer names the order twice, a position without an order, and no number. -/
theorem repeats_are_revealed_again :
    FitsU32 [some 0, none, some 5, some 0] ∧
      (sampleRevealer.onRevealPhase 1
          (some (revealIndicesOfJson [some 0, none, some 5, some 0]))).publishedReveals
        = [sampleRevealer.revealOfPosition 0, sampleRevealer.revealOfPosition 5,
            sampleRevealer.revealOfPosition 0] := by
  have hfits : FitsU32 [some 0, none, some 5, some 0] := by
    intro n hn
    simp only [List.mem_cons, Option.some.injEq, reduceCtorEq, List.not_mem_nil, or_false,
      false_or] at hn
    rcases hn with rfl | rfl | rfl <;> decide
  refine ⟨hfits, ?_⟩
  exact (reveals_as_chosen sampleRevealer 1 (some [some 0, none, some 5, some 0])
    (fun _ h => by rwa [← Option.some.inj h])).1

/-- The reveals are not those of the named orders, each once. -/
theorem reveals_not_once :
    ¬ ∀ (o : LiveOrchestrator) (myCommitCount : ℕ) (response : Option (List (Option UInt64))),
      let o' := o.onRevealPhase myCommitCount (response.map revealIndicesOfJson)
      let positions := chosenPositions myCommitCount response
      ((o'.publishedReveals.drop o.publishedReveals.length).map
          fun r => (r.orderBytes, r.signature)).Perm
        (((List.range o.committedOrders.length).filter (· ∈ positions)).map o.revealedPair) := by
  intro h
  have hlength := (h sampleRevealer 1 (some [some 0, none, some 5, some 0])).length_eq
  exact absurd hlength (by decide)

end

end Orchestrator
