/-
# Deduplication in the live validator

A message that is refused should leave nothing behind, and one that is accepted should not be
accepted again.  A commit that the limit refuses leaves its hash (`no_trace_iff`).  Every fifth
batch all hashes are forgotten, while batches up to five back are still accepted; what was
accepted before is accepted again if its hash is forgotten while its batch is in the window
(`accepted_once_iff`).
-/
import DeadmktNode.LiveNode
import DeadmktNode.ValidatorCalls

namespace GossipValidator

/-! ## Refused messages -/

/-- Deduplication and the slots are the same. -/
structure SameTraces (v v' : GossipValidator) : Prop where
  commits : v'.seenCommitHashes = v.seenCommitHashes
  reveals : v'.seenRevealHashes = v.seenRevealHashes
  slots : ∀ nftId batchId, v'.slots nftId batchId = v.slots nftId batchId

section

variable [Externals]

/-- The limit refuses a commit whose hash is new. -/
def RefusedByLimit (v : GossipValidator) (msg : InboundMessage) : Prop :=
  msg.isCommit = true ∧ msg.content.isSome = true ∧ v.Fresh msg ∧ ¬ v.HasSlot msg

/-- A call that refuses its message leaves no trace, unless it is a commit with a new hash of 32
bytes, in the window, that the limit refuses: its hash stays. -/
theorem no_trace_iff (v : GossipValidator) (msg : InboundMessage) :
    ((v.accept msg).1 = false → v.SameTraces (v.accept msg).2) ↔ ¬ v.RefusedByLimit msg := by
  have hout := v.outcome_accept msg
  generalize v.accept msg = result at hout ⊢
  obtain ⟨verdict, v'⟩ := result
  dsimp only at hout ⊢
  constructor
  · rintro hsame ⟨hcommit, hsome, hfresh, hfull⟩
    have hrefused : verdict = false :=
      Bool.eq_false_iff.mpr fun haccepted => hfull (hout.verdict.mp haccepted).2.1
    obtain ⟨c, hc⟩ := Option.isSome_iff_exists.mp hsome
    have hkept : v'.Seen c := (hout.seen c).mpr (.inr ⟨hfresh, hc, .inr hcommit⟩)
    have hold : v.Seen c := by
      obtain ⟨hcommits, hreveals, -⟩ := hsame hrefused
      cases c with
      | commit hash => rwa [Seen, hcommits] at hkept
      | reveal hash => rwa [Seen, hreveals] at hkept
    exact hfresh.2 c hc hold
  · rintro hlimit rfl
    -- only a commit that passes the other checks could stay, and none checks its signature
    have hseen : ∀ c, v'.Seen c ↔ v.Seen c := by
      intro c
      rw [hout.seen, or_iff_left]
      rintro ⟨hfresh, hc, hfalse | hcommit⟩
      · exact Bool.false_ne_true hfalse
      · refine hlimit ⟨hcommit, Option.isSome_iff_exists.mpr ⟨c, hc⟩, hfresh, fun hslot => ?_⟩
        have hverified : v.Verified msg := by
          cases msg with
          | commit => trivial
          | reveal => exact absurd hcommit Bool.false_ne_true
        exact Bool.false_ne_true (hout.verdict.mpr ⟨hfresh, hslot, hverified⟩)
    refine ⟨Finset.ext fun hash => hseen (.commit hash), Finset.ext fun hash =>
      hseen (.reveal hash), fun nftId batchId => ?_⟩
    rw [hout.taken, if_neg fun h => Bool.false_ne_true h.1, UInt32.add_zero]

end

/-- A validator of batch 7 that has accepted ten commits of NFT 1. -/
def tenCommits : GossipValidator :=
  (List.range 10).foldl
    (fun v i => (v.acceptCommit 1 7 (List.replicate 32 (UInt8.ofNat i))).2) (new 7)

/-- The eleventh commit is refused, and its hash stays. -/
theorem refused_commit_leaves_hash :
    ¬ ∀ (v : GossipValidator) (nftId batchId : UInt64) (commitHash : Bytes),
      (v.acceptCommit nftId batchId commitHash).1 = false →
      v.SameTraces (v.acceptCommit nftId batchId commitHash).2 := by
  intro h
  have hchecked : (tenCommits.acceptCommit 1 7 (List.replicate 32 10)).1 = false ∧
      ¬ (tenCommits.acceptCommit 1 7 (List.replicate 32 10)).2.seenCommitHashes
        = tenCommits.seenCommitHashes := by
    decide +kernel
  exact hchecked.2 (h tenCommits 1 7 (List.replicate 32 10) hchecked.1).commits

end GossipValidator

/-! ## What is remembered -/

/-- What deduplication learns and forgets: an accepted message, the content of a refused commit
that stays, and a clear. -/
inductive DedupNote where
  | accepted (msg : InboundMessage)
  | kept (c : Content)
  | cleared

namespace DedupNote

/-- The note of something that deduplication then knows. -/
def remembers [Externals] (c : Content) : DedupNote → Prop
  | .accepted msg => msg.content = some c
  | .kept c' => c' = c
  | .cleared => False

def clears : DedupNote → Prop
  | .cleared => True
  | _ => False

end DedupNote

/-- The batch and the bytes that make a message the same: the commit hash, or the order
bytes. -/
def InboundMessage.key : InboundMessage → UInt64 × (Bytes ⊕ Bytes)
  | .commit _ batchId commitHash => (batchId, .inl commitHash)
  | .reveal _ batchId orderBytes _ => (batchId, .inr orderBytes)

/-- The messages accepted so far, by what makes them the same. -/
def acceptedKeys (notes : List DedupNote) : List (UInt64 × (Bytes ⊕ Bytes)) :=
  notes.filterMap fun
    | .accepted msg => some msg.key
    | _ => none

namespace GossipValidator

section

variable [Externals]

/-- What a call makes deduplication learn or forget. -/
def dedupNote (v : GossipValidator) : ValidatorCall → Option DedupNote
  | .message msg =>
      if (v.accept msg).1 = true then some (.accepted msg)
      else if v.Fresh msg ∧ msg.isCommit = true then msg.content.map .kept
      else none
  | .expireOldBatches => if v.currentBatchId % batchWindow = 0 then some .cleared else none
  | _ => none

/-- Deduplication knows what was remembered since the last clear. -/
def Remembers (notes : List DedupNote) (v : GossipValidator) : Prop :=
  ∀ c, v.Seen c ↔ Standing (·.remembers c) DedupNote.clears notes

theorem remembers_new (initialBatchId : UInt64) : Remembers [] (new initialBatchId) := by
  intro c
  refine iff_of_false ?_ not_standing_nil
  cases c with
  | commit hash => exact Finset.notMem_empty hash
  | reveal hash => exact Finset.notMem_empty hash

/-- A call that makes deduplication learn and forget nothing. -/
theorem Remembers.of_same {notes : List DedupNote} {v v' : GossipValidator}
    (h : Remembers notes v) (hsame : ∀ c, v'.Seen c ↔ v.Seen c) : Remembers notes v' :=
  fun c => (hsame c).trans (h c)

/-- One that adds a note of what is then known. -/
theorem Remembers.snoc {notes : List DedupNote} {v v' : GossipValidator} {note : DedupNote}
    (h : Remembers notes v) (hkeeps : ¬ note.clears)
    (hseen : ∀ c, v'.Seen c ↔ v.Seen c ∨ note.remembers c) : Remembers (notes ++ [note]) v' := by
  intro c
  rw [hseen, h c, standing_snoc, and_iff_left hkeeps, or_comm]

/-- **Message.**  Deduplication learns the content of what it accepts, and of a commit that the
limit refuses. -/
theorem Remembers.accept {notes : List DedupNote} {v : GossipValidator} (h : Remembers notes v)
    (msg : InboundMessage) :
    Remembers (notes ++ (v.dedupNote (.message msg)).toList) (v.accept msg).2 := by
  have hout := v.outcome_accept msg
  dsimp only [dedupNote]
  generalize v.accept msg = result at hout ⊢
  obtain ⟨verdict, v'⟩ := result
  dsimp only at hout ⊢
  cases verdict with
  | true =>
      have hfresh := (hout.verdict.mp rfl).1
      rw [if_pos rfl, Option.toList_some]
      refine h.snoc not_false fun c => ?_
      rw [hout.seen, and_iff_right hfresh, and_iff_left (.inl rfl)]
      rfl
  | false =>
      rw [if_neg Bool.false_ne_true]
      -- a fresh commit leaves its content even where the rate limit refuses it
      by_cases hkept : v.Fresh msg ∧ msg.isCommit = true
      · rw [if_pos hkept]
        have hseen : ∀ c, v'.Seen c ↔ v.Seen c ∨ msg.content = some c := by
          intro c
          rw [hout.seen, and_iff_right hkept.1, and_iff_left (.inr hkept.2)]
        cases hcontent : msg.content with
        | none =>
            rw [Option.map_none, Option.toList_none, List.append_nil]
            refine h.of_same fun c => (hseen c).trans (or_iff_left ?_)
            rw [hcontent]
            exact nofun
        | some c₀ =>
            rw [Option.map_some, Option.toList_some]
            refine h.snoc not_false fun c => (hseen c).trans ?_
            rw [hcontent, Option.some_inj]
            rfl
      · rw [if_neg hkept, Option.toList_none, List.append_nil]
        refine h.of_same fun c => (hout.seen c).trans (or_iff_left ?_)
        rintro ⟨hfresh, -, hfalse | hcommit⟩
        · exact Bool.false_ne_true hfalse
        · exact hkept ⟨hfresh, hcommit⟩

/-- **Step.**  Every call keeps the notes right. -/
theorem Remembers.perform {notes : List DedupNote} {v : GossipValidator} (h : Remembers notes v)
    (call : ValidatorCall) :
    Remembers (notes ++ (v.dedupNote call).toList) (v.perform call) := by
  cases call with
  | message msg => exact h.accept msg
  | updateBatch batchId =>
      rw [show notes ++ (v.dedupNote (.updateBatch batchId)).toList = notes from
        List.append_nil _]
      refine h.of_same fun c => ?_
      rw [show v.perform (.updateBatch batchId) = _ from v.updateBatch_eq batchId]
      cases c <;> exact Iff.rfl
  | expireOldBatches =>
      have hseen := v.seen_expireOldBatches
      dsimp only [dedupNote]
      by_cases hclear : v.currentBatchId % batchWindow = 0
      · rw [if_pos hclear, Option.toList_some]
        intro c
        refine iff_of_false (fun hc => ((hseen c).mp hc).1 hclear) ?_
        rw [standing_snoc]
        rintro (hfalse | ⟨-, hkeeps⟩)
        · exact hfalse
        · exact hkeeps trivial
      · rw [if_neg hclear, Option.toList_none, List.append_nil]
        exact h.of_same fun c => (hseen c).trans (and_iff_right hclear)
  | cachePubkey nftId key =>
      rw [show notes ++ (v.dedupNote (.cachePubkey nftId key)).toList = notes from
        List.append_nil _]
      refine h.of_same fun c => ?_
      cases c <;> exact Iff.rfl

/-! ## The same message twice -/

/-- A message that was accepted before, whose batch is in the window, and which the limit and the
signature check let pass, was remembered since the last clear. -/
def StillKnown (notes : List DedupNote) (v : GossipValidator) : ValidatorCall → Prop
  | .message msg => msg.key ∈ acceptedKeys notes → v.isBatchInRange msg.batchId = true →
      v.HasSlot msg → v.Verified msg →
      ∃ c ∈ msg.content, Standing (·.remembers c) DedupNote.clears notes
  | _ => True

/-- **Step.**  A call accepts no message again if and only if it is still known. -/
theorem nodup_acceptedKeys_step_iff {notes : List DedupNote} {v : GossipValidator}
    (h : Remembers notes v) (hnodup : (acceptedKeys notes).Nodup) (call : ValidatorCall) :
    (acceptedKeys (notes ++ (v.dedupNote call).toList)).Nodup ↔ StillKnown notes v call := by
  have happend : ∀ more, acceptedKeys (notes ++ more) = acceptedKeys notes ++ acceptedKeys more :=
    fun more => List.filterMap_append
  have hsame : ∀ note : Option DedupNote, acceptedKeys note.toList = [] →
      (acceptedKeys (notes ++ note.toList)).Nodup := by
    intro note hnote
    rwa [happend, hnote, List.append_nil]
  cases call with
  | message msg =>
      have hverdict := (v.outcome_accept msg).verdict
      dsimp only [dedupNote, StillKnown]
      cases haccepted : (v.accept msg).1 with
      | true =>
          obtain ⟨hfresh, hslot, hverified⟩ := hverdict.mp haccepted
          rw [if_pos rfl, Option.toList_some, happend,
            show acceptedKeys [.accepted msg] = [msg.key] from rfl, List.nodup_append]
          constructor
          · rintro ⟨-, -, hnew⟩ hmem
            exact absurd rfl (hnew _ hmem _ (List.mem_singleton_self _))
          · intro hknown
            refine ⟨hnodup, List.nodup_singleton _, fun key hkey key' hkey' => ?_⟩
            obtain rfl := List.mem_singleton.mp hkey'
            rintro rfl
            -- a message that is known would not be new
            obtain ⟨c, hc, hstanding⟩ := hknown hkey hfresh.1 hslot hverified
            exact hfresh.2 c hc ((h c).mpr hstanding)
      | false =>
          rw [if_neg Bool.false_ne_true]
          refine iff_of_true (hsame _ ?_) fun _ hrange hslot hverified => ?_
          · split_ifs
            · cases msg.content <;> rfl
            · rfl
          · by_contra hunknown
            refine Bool.false_ne_true (haccepted.symm.trans (hverdict.mpr ⟨⟨hrange, ?_⟩, hslot,
              hverified⟩))
            exact fun c hc hseen => hunknown ⟨c, hc, (h c).mp hseen⟩
  | updateBatch batchId => exact iff_of_true (hsame none rfl) trivial
  | expireOldBatches =>
      refine iff_of_true (hsame _ ?_) trivial
      dsimp only [dedupNote]
      split_ifs <;> rfl
  | cachePubkey nftId key => exact iff_of_true (hsame none rfl) trivial

/-- **Runs.**  No message of a batch with the same bytes is accepted twice, at any point of a
run, if and only if none comes again after it was forgotten while its batch is in the window. -/
theorem accepted_once_iff (initialBatchId : UInt64) (cs : List ValidatorCall) :
    calls.Throughout dedupNote (fun notes _ => (acceptedKeys notes).Nodup) []
        (new initialBatchId) cs ↔
      calls.FollowsSince dedupNote StillKnown [] (new initialBatchId) cs := by
  refine calls.throughout_iff_followsSince dedupNote (J := Remembers) ?_ ?_
    (remembers_new initialBatchId) List.nodup_nil (run_calls (new initialBatchId) cs)
  · intro notes v call v' h hstep
    obtain rfl := Option.some.inj hstep
    exact h.perform call
  · intro notes v call v' h hnodup _
    exact nodup_acceptedKeys_step_iff h hnodup call

end

section

attribute [local instance] sampleExternals

/-- The commit and the reveal of the sample sell. -/
def sellMessages : List ValidatorCall :=
  [.message (.commit 1 7 (commitHash sampleSell).toList),
    .message (.reveal 1 7 (sampleBytes sampleSell) sellSignature)]

/-- They come in batch 7, and again in batch 10, when the hashes have been cleared. -/
def replayed : List ValidatorCall :=
  .cachePubkey 1 sellerKey :: sellMessages ++ [.updateBatch 10, .expireOldBatches] ++ sellMessages

/-- Both are accepted twice. -/
theorem replay_is_accepted :
    (¬ ∀ (initialBatchId : UInt64) (cs : List ValidatorCall) (batchId : UInt64)
        (commitHash : Bytes), (acceptedKeys (calls.trace dedupNote (new initialBatchId) cs)).count
          (batchId, .inl commitHash) ≤ 1) ∧
      ¬ ∀ (initialBatchId : UInt64) (cs : List ValidatorCall) (batchId : UInt64)
        (orderBytes : Bytes), (acceptedKeys (calls.trace dedupNote (new initialBatchId) cs)).count
          (batchId, .inr orderBytes) ≤ 1 := by
  have hkeys : acceptedKeys (calls.trace dedupNote (new 7) replayed)
      = [(7, .inl (commitHash sampleSell).toList), (7, .inr (sampleBytes sampleSell)),
        (7, .inl (commitHash sampleSell).toList), (7, .inr (sampleBytes sampleSell))] := by
    decide +kernel
  constructor
  · intro h
    have hcount := h 7 replayed 7 (commitHash sampleSell).toList
    rw [hkeys] at hcount
    revert hcount
    decide +kernel
  · intro h
    have hcount := h 7 replayed 7 (sampleBytes sampleSell)
    rw [hkeys] at hcount
    revert hcount
    decide +kernel

end

end GossipValidator
