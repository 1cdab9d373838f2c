/-
# Governance events

A parameter change names one parameter and its new value.  When it is applied the orchestrator
does not change the parameters that its clock has: it puts the new value into a fixed set and
reloads that.  What the event does not name is therefore kept exactly where it has the fixed
value already (`Orchestrator.governance_changes_named_iff`).
-/
import DeadmktNode.LiveNode

/-! ## What an event names -/

namespace BatchParams

/-- The parameters with a new value for the named one; other names stand for no parameter. -/
def withParam (params : BatchParams) (paramName : String) (newValue : UInt64) : BatchParams :=
  if paramName = "blocks_per_batch" then { params with blocksPerBatch := newValue }
  else if paramName = "commits_per_batch" then { params with commitsPerBatch := newValue }
  else params

/-- The parameters after an event that changes only what it names. -/
def afterEvent (params : BatchParams) : ChainEvent → BatchParams
  | .parameterChangeApplied _ paramName newValue => params.withParam paramName newValue
  | _ => params

/-- The parameters have the fixed values wherever the name does not stand for them. -/
structure FixedExcept (params : BatchParams) (paramName : String) : Prop where
  blocksPerBatch : paramName ≠ "blocks_per_batch" → params.blocksPerBatch = 10
  commitBlocks : params.commitBlocks = 3
  revealBlocks : params.revealBlocks = 3
  matchBlocks : params.matchBlocks = 2
  swapBlocks : params.swapBlocks = 2
  commitsPerBatch : paramName ≠ "commits_per_batch" → params.commitsPerBatch = 3

end BatchParams

namespace Orchestrator

/-- The reload puts the new value into the fixed set. -/
theorem reloadedParams_eq (paramName : String) (newValue : UInt64) :
    reloadedParams paramName newValue
      = BatchParams.withParam ⟨10, 3, 3, 2, 2, 3⟩ paramName newValue := rfl

/-- The reload gives the parameters with the named change if the others are the fixed ones. -/
theorem reloadedParams_eq_withParam_iff (params : BatchParams) (paramName : String)
    (newValue : UInt64) :
    reloadedParams paramName newValue = params.withParam paramName newValue ↔
      params.FixedExcept paramName := by
  obtain ⟨blocks, commit, reveal, match_, swap, commits⟩ := params
  rw [reloadedParams_eq]
  unfold BatchParams.withParam
  constructor
  · intro h
    split_ifs at h with hblocks hcommits
    · obtain ⟨-, rfl, rfl, rfl, rfl, rfl⟩ := BatchParams.mk.inj h
      exact ⟨fun hne => absurd hblocks hne, rfl, rfl, rfl, rfl, fun _ => rfl⟩
    · obtain ⟨rfl, rfl, rfl, rfl, rfl, -⟩ := BatchParams.mk.inj h
      exact ⟨fun _ => rfl, rfl, rfl, rfl, rfl, fun hne => absurd hcommits hne⟩
    · obtain ⟨rfl, rfl, rfl, rfl, rfl, rfl⟩ := BatchParams.mk.inj h
      exact ⟨fun _ => rfl, rfl, rfl, rfl, rfl, fun _ => rfl⟩
  · rintro ⟨hblocks, rfl, rfl, rfl, rfl, hcommits⟩
    dsimp only at hblocks hcommits
    split_ifs with hb hc
    · rw [hcommits (by rw [hb]; decide)]
    · rw [hblocks hb]
    · rw [hblocks hb, hcommits hc]

/-! ## Sequences of events -/

section

variable {G : Type} [Externals]

/-- The orchestrator of the run loop as chain events come in. -/
def chainEvents : System (Orchestrator G BatchStateBridge) ChainEvent where
  step o event := some (o.onChainEvent event)

/-- Every event is handled. -/
theorem exists_run_chainEvents (o : Orchestrator G BatchStateBridge)
    (events : List ChainEvent) : ∃ o', chainEvents.run o events = some o' := by
  induction events generalizing o with
  | nil => exact ⟨o, rfl⟩
  | cons event events ih => exact ih (o.onChainEvent event)

/-- If the event applies a parameter change, the other parameters are the fixed ones. -/
def ReloadFits (o : Orchestrator G BatchStateBridge) : ChainEvent → Prop
  | .parameterChangeApplied _ paramName _ => o.batchState.params.FixedExcept paramName
  | _ => True

/-- **Step.**  An event changes what it names and nothing else, if the reload fits. -/
theorem params_onChainEvent_iff (o : Orchestrator G BatchStateBridge) (event : ChainEvent) :
    (o.onChainEvent event).batchState.params = o.batchState.params.afterEvent event ↔
      o.ReloadFits event := by
  cases event with
  | parameterChangeApplied batchId paramName newValue =>
      exact reloadedParams_eq_withParam_iff o.batchState.params paramName newValue
  | withdrawalRequested nftId token amount =>
      refine iff_of_true ?_ trivial
      dsimp only [onChainEvent]
      split_ifs
      · rfl
      · rfl
  | _ => exact iff_of_true rfl trivial

/-- A parameter change replaces the named parameter and keeps the others if and only if the
others have their fixed values before it; and so the parameters follow a sequence of events, at
every point of it, if and only if that is so at each parameter change. -/
theorem governance_changes_named_iff (o : Orchestrator G BatchStateBridge) :
    (∀ batchId paramName newValue,
      (o.onChainEvent (.parameterChangeApplied batchId paramName newValue)).batchState.params
          = o.batchState.params.withParam paramName newValue ↔
        o.batchState.params.FixedExcept paramName) ∧
      ∀ events : List ChainEvent,
        (∀ past, past <+: events → ∀ o', chainEvents.run o past = some o' →
          o'.batchState.params = past.foldl BatchParams.afterEvent o.batchState.params) ↔
        chainEvents.Follows ReloadFits o events := by
  refine ⟨fun batchId paramName newValue =>
    params_onChainEvent_iff o (.parameterChangeApplied batchId paramName newValue), ?_⟩
  intro events
  obtain ⟨last, hlast⟩ := exists_run_chainEvents o events
  -- the events so far are what a run shows that shows its inputs
  have hiff := chainEvents.throughout_iff (fun _ event => some event)
    (J := fun _ _ => True) (C := ReloadFits)
    (P := fun past o' => o'.batchState.params
      = past.foldl BatchParams.afterEvent o.batchState.params)
    (fun _ _ _ _ _ _ => trivial)
    (fun past o₁ event o₂ _ hparams hstep => by
      obtain rfl := Option.some.inj hstep
      rw [Option.toList_some, List.foldl_append, ← hparams]
      exact params_onChainEvent_iff o₁ event)
    trivial (List.foldl_nil.symm : _ = [].foldl _ _) hlast
  rw [← hiff]
  refine forall₂_congr fun past _ => forall₂_congr fun o' ho' => ?_
  rw [List.nil_append, chainEvents.trace_inputs ho']

end

attribute [local instance] sampleExternals

/-- The batches of the sample node have four COMMIT blocks and one MATCH block; a change of the
commits of a batch makes them three and two. -/
theorem governance_changes_more :
    ¬ ∀ (o : LiveOrchestrator) (batchId : UInt64) (paramName : String) (newValue : UInt64),
      (o.onChainEvent (.parameterChangeApplied batchId paramName newValue)).batchState.params
        = o.batchState.params.withParam paramName newValue := by
  intro h
  exact absurd (h (sampleNode 1).orchestrator 500 "commits_per_batch" 5) (by decide)

end Orchestrator
