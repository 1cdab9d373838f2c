/-
# Prompts and answers of the strategy

In COMMIT and in REVEAL the loop prompts the strategy and waits a few seconds for the next
action in `action_rx`.  The client answers every prompt once, sooner or later.  An action does
not say which prompt it answers, and what is in the channel when a prompt times out stays
there.  So every handler gets the answer to its own prompt, or nothing, exactly if a prompt
always finds the channel empty and no other answer arrives while its handler waits
(`StrategyLink.paired_iff`).
-/
import DeadmktNode.RunLoop

/-- Token actions go to the token worker and not to the handlers. -/
def StrategyAction.isTokenAction : StrategyAction → Bool
  | .auth _ => false
  | .commit _ => false
  | .reveal _ => false
  | _ => true

/-- What the loop asks the strategy. -/
inductive Prompt where
  | batchStart (batchId : UInt64)
  | revealStart (batchId : UInt64)
deriving DecidableEq, Repr

/-- What a handler does with an action: it signs orders for its batch, reveals commits of its
batch, or neither. -/
inductive Use where
  | sign (batchId : UInt64) (orders : List OrderSpec)
  | reveal (batchId : UInt64) (revealIndices : List UInt32)
  | nothing
deriving DecidableEq, Repr

def Prompt.use : Prompt → StrategyAction → Use
  | .batchStart batchId, .commit orders => .sign batchId orders
  | .revealStart batchId, .reveal revealIndices => .reveal batchId revealIndices
  | _, _ => .nothing

namespace RunLoop

variable [Externals] (cfg : RunConfig) (l : RunLoop) (obs : Observation) (batchId : UInt64)

/-- COMMIT signs for the batch of its prompt. -/
theorem strategyOrders_eq_use {action : StrategyAction} (h : obs.action = some action)
    (hask : obs.canAsk = true) :
    l.strategyOrders cfg obs batchId true =
      match (Prompt.batchStart batchId).use action with
      | .sign b orders =>
          (convertStrategyOrders orders cfg.signingKey cfg.nftId b l.params l.settlement.tracker
            cfg.tokenDecimals l.node.orchestrator.marketConfigs obs.nonces).map
            fun validated => if validated.isEmpty then none else some validated
      | _ => some none := by
  unfold strategyOrders
  rw [h, hask]
  cases action <;> rfl

omit [Externals] in
/-- REVEAL reveals commits of the batch of its prompt. -/
theorem strategyIndices_eq_use {action : StrategyAction} (h : obs.action = some action) :
    l.strategyIndices obs =
      if !l.tradingPaused && 0 < l.node.orchestrator.publishedCommits.length && obs.canAsk then
        match (Prompt.revealStart batchId).use action with
        | .reveal _ revealIndices => some revealIndices
        | _ => none
      else none := by
  unfold strategyIndices
  rw [h]
  cases action <;> rfl

end RunLoop

/-- An action of the client; `prompt` is the number of the prompt that it answers, which the
node does not see. -/
structure Answer where
  prompt : ℕ
  action : StrategyAction
deriving DecidableEq, Repr

structure StrategyLink where
  /-- the prompts so far -/
  prompts : List Prompt
  /-- the numbers of the prompts that are answered -/
  answered : List ℕ
  actionRx : List Answer
  /-- the prompt whose handler is waiting -/
  waiting : Option ℕ
  /-- what the handlers received: the number of the prompt, and an action or a timeout -/
  received : List (ℕ × Option Answer)
deriving DecidableEq, Repr

namespace StrategyLink

/-- What can happen next. -/
inductive Step where
  | prompt (p : Prompt)
  /-- the answer to a prompt arrives -/
  | answer (prompt : ℕ) (action : StrategyAction)
  | timeout
deriving DecidableEq, Repr

def start : StrategyLink := ⟨[], [], [], none, []⟩

/-- A handler receives. -/
def receive (l : StrategyLink) (prompt : ℕ) (answer : Option Answer) : StrategyLink :=
  { l with waiting := none, received := l.received ++ [(prompt, answer)] }

/-- The state after a step, if it can be taken. -/
def step (l : StrategyLink) : Step → Option StrategyLink
  | .prompt p =>
      if l.waiting.isSome then none
      else
        let l' := { l with prompts := l.prompts ++ [p] }
        match l.actionRx with
        | [] => some { l' with waiting := some l.prompts.length }
        -- `recv` takes what is there without waiting
        | answer :: rest =>
            some ({ l' with actionRx := rest }.receive l.prompts.length (some answer))
  | .answer prompt action =>
      if prompt < l.prompts.length ∧ prompt ∉ l.answered then
        if action.isTokenAction then some l
        else
          let l' := { l with answered := l.answered ++ [prompt] }
          match l.waiting with
          -- a handler that waits found the channel empty
          | some waiting => some (l'.receive waiting (some ⟨prompt, action⟩))
          | none => some { l' with actionRx := l.actionRx ++ [⟨prompt, action⟩] }
      else none
  | .timeout => l.waiting.map fun waiting => l.receive waiting none

def system : System StrategyLink Step := ⟨step⟩

/-- Every handler that received an action received the answer to its prompt. -/
def Paired (l : StrategyLink) : Prop :=
  ∀ prompt answer, (prompt, some answer) ∈ l.received → answer.prompt = prompt

/-- What a handler does with an action is what it was sent for. -/
def UsesOwn (l : StrategyLink) : Prop :=
  ∀ prompt answer, (prompt, some answer) ∈ l.received →
    (l.prompts[prompt]?).map (fun p => p.use answer.action)
      = (l.prompts[answer.prompt]?).map (fun p => p.use answer.action)

theorem Paired.usesOwn {l : StrategyLink} (h : l.Paired) : l.UsesOwn := by
  intro prompt answer hmem
  rw [h prompt answer hmem]

/-- A prompt finds no answer that was left over, and an answer finds no other handler
waiting. -/
def OnTime (l : StrategyLink) : Step → Prop
  | .prompt _ => l.actionRx = []
  | .answer prompt action => action.isTokenAction = false → ∀ w ∈ l.waiting, w = prompt
  | .timeout => True

instance (l : StrategyLink) : ∀ i, Decidable (l.OnTime i)
  | .prompt _ => inferInstanceAs (Decidable (l.actionRx = []))
  | .answer prompt action => inferInstanceAs
      (Decidable (action.isTokenAction = false → ∀ w ∈ l.waiting, w = prompt))
  | .timeout => isTrue trivial

/-- Only old answers are in the channel. -/
def OnlyOld (l : StrategyLink) : Prop := ∀ answer ∈ l.actionRx, answer.prompt < l.prompts.length

/-- Receiving keeps the pairs if it adds one. -/
theorem paired_receive_iff {l : StrategyLink} (h : l.Paired) (prompt : ℕ) (answer : Option Answer) :
    (l.receive prompt answer).Paired ↔ ∀ a, answer = some a → a.prompt = prompt := by
  constructor
  · rintro hafter a rfl
    exact hafter prompt a (List.mem_append_right _ List.mem_cons_self)
  · intro hlast prompt' a hmem
    rcases List.mem_append.mp hmem with hold | hnew
    · exact h prompt' a hold
    · obtain ⟨rfl, ha⟩ := Prod.mk.inj (List.mem_singleton.mp hnew)
      exact hlast a ha.symm

section

variable {l l' : StrategyLink} {i : Step}

/-- The ways in which a step can go. -/
inductive LinkStep (l : StrategyLink) : Step → StrategyLink → Prop
  /-- a prompt finds the channel empty, and its handler waits -/
  | waits (p : Prompt) (hempty : l.actionRx = []) :
      LinkStep l (.prompt p)
        { l with prompts := l.prompts ++ [p], waiting := some l.prompts.length }
  /-- a prompt finds an answer that was left over -/
  | leftOver (p : Prompt) {head : Answer} {rest : List Answer} (hrx : l.actionRx = head :: rest) :
      LinkStep l (.prompt p)
        ({ l with prompts := l.prompts ++ [p], actionRx := rest }.receive l.prompts.length
          (some head))
  | tokenAction (k : ℕ) {action : StrategyAction} (htoken : action.isTokenAction = true) :
      LinkStep l (.answer k action) l
  | arrives (k : ℕ) {action : StrategyAction} (horders : action.isTokenAction = false) {w : ℕ}
      (hwaiting : l.waiting = some w) :
      LinkStep l (.answer k action)
        ({ l with answered := l.answered ++ [k] }.receive w (some ⟨k, action⟩))
  /-- no handler waits, and the answer stays in the channel -/
  | late {k : ℕ} (hasked : k < l.prompts.length) {action : StrategyAction}
      (hidle : l.waiting = none) :
      LinkStep l (.answer k action)
        { l with answered := l.answered ++ [k], actionRx := l.actionRx ++ [⟨k, action⟩] }
  | timedOut {w : ℕ} (hwaiting : l.waiting = some w) : LinkStep l .timeout (l.receive w none)

theorem step_cases (h : l.step i = some l') : LinkStep l i l' := by
  cases i with
  | prompt p =>
      simp only [step] at h
      split_ifs at h with hwaiting
      split at h
      · rename_i hempty
        obtain rfl := Option.some.inj h
        exact .waits p hempty
      · rename_i head rest hrx
        obtain rfl := Option.some.inj h
        exact .leftOver p hrx
  | answer k action =>
      simp only [step] at h
      split_ifs at h with hopen htoken
      · obtain rfl := Option.some.inj h
        exact .tokenAction k htoken
      · split at h
        · rename_i w hwaiting
          obtain rfl := Option.some.inj h
          exact .arrives k (eq_false_of_ne_true htoken) hwaiting
        · rename_i hidle
          obtain rfl := Option.some.inj h
          exact .late hopen.1 hidle
  | timeout =>
      obtain ⟨w, hwaiting, rfl⟩ := Option.map_eq_some_iff.mp h
      exact .timedOut hwaiting

/-- **Step.**  Every step preserves it. -/
theorem OnlyOld.step (h : l.OnlyOld) (hstep : l.step i = some l') : l'.OnlyOld := by
  intro answer hmem
  cases step_cases hstep with
  | waits p hempty =>
      rw [show l.actionRx = [] from hempty] at hmem
      cases hmem
  | leftOver p hrx =>
      have hlt := h answer (hrx ▸ List.mem_cons_of_mem _ hmem)
      show answer.prompt < (l.prompts ++ [p]).length
      rw [List.length_append]
      omega
  | late hasked hidle =>
      rcases List.mem_append.mp hmem with hold | hnew
      · exact h answer hold
      · obtain rfl := List.mem_singleton.mp hnew
        exact hasked
  | tokenAction | arrives | timedOut => exact h answer hmem

/-- After a step the handlers have their own answers exactly if the step was on time. -/
theorem paired_step_iff (hold : l.OnlyOld) (h : l.Paired) (hstep : l.step i = some l') :
    l'.Paired ↔ l.OnTime i := by
  cases step_cases hstep with
  | waits p hempty => exact iff_of_true h hempty
  | @leftOver p head rest hrx =>
      -- what was left over answers an earlier prompt
      have hlt := hold head (hrx ▸ List.mem_cons_self)
      refine iff_of_false ?_ ?_
      · intro hafter
        have heq := (paired_receive_iff (l := { l with
          prompts := l.prompts ++ [p], actionRx := rest }) h _ _).mp hafter head rfl
        omega
      · intro hempty
        rw [show l.actionRx = [] from hempty] at hrx
        cases hrx
  | tokenAction k htoken =>
      refine iff_of_true h fun horders => ?_
      rw [htoken] at horders
      cases horders
  | @arrives k action horders w hwaiting =>
      rw [paired_receive_iff (l := { l with answered := l.answered ++ [k] }) h]
      constructor
      · rintro hafter - w' hw'
        obtain rfl := Option.some.inj (hwaiting.symm.trans hw')
        exact (hafter _ rfl).symm
      · rintro hontime a ha
        obtain rfl := Option.some.inj ha
        exact (hontime horders w hwaiting).symm
  | late hasked hidle =>
      refine iff_of_true h fun _ w hw => ?_
      rw [hidle] at hw
      cases hw
  | @timedOut w hwaiting =>
      refine iff_of_true ((paired_receive_iff h w none).mpr ?_) trivial
      intro a ha
      cases ha

end

/-- **Late answers.**  At every point of a run every handler has received the answer to its own
prompt or nothing, and signs and reveals what was sent for its batch, if and only if every step
is on time. -/
theorem paired_iff {is : List Step} {l : StrategyLink} (hrun : system.run start is = some l) :
    system.Always (fun l' => l'.Paired ∧ l'.UsesOwn) start is ↔ system.Follows OnTime start is := by
  have hpaired : system.Always Paired start is ↔ system.Follows OnTime start is :=
    system.always_iff (J := OnlyOld) (fun _ _ _ h hstep => h.step hstep)
      (fun _ _ _ hold h hstep => paired_step_iff hold h hstep)
      (fun _ h => absurd h List.not_mem_nil) (fun _ _ h => absurd h List.not_mem_nil) hrun
  rw [← hpaired]
  constructor
  · intro h js hjs l' hl'
    exact (h js hjs l' hl').1
  · intro h js hjs l' hl'
    exact ⟨h js hjs l' hl', (h js hjs l' hl').usesOwn⟩

/-! ## A late answer -/

/-- The sample order as the client sends it. -/
def sampleSpec : OrderSpec := ⟨"EMM/KAY", "sell", "0.0000001", "5"⟩

/-- The answer for batch 7 arrives after its timeout, and then batch 8 begins. -/
def lateRun : List Step :=
  [.prompt (.batchStart 7), .timeout, .answer 0 (.commit [sampleSpec]), .prompt (.batchStart 8)]

/-- The orders for batch 7 are signed for batch 8. -/
theorem late_orders_are_signed :
    ¬ system.Always (fun l' => l'.Paired ∧ l'.UsesOwn) start lateRun ∧
      ∃ l, system.run start lateRun = some l ∧
        l.received = [(0, none), (1, some ⟨0, .commit [sampleSpec]⟩)] ∧
        (l.prompts[1]?).map (fun p => p.use (.commit [sampleSpec]))
          = some (.sign 8 [sampleSpec]) := by
  refine ⟨fun h => ?_, _, rfl, by decide, by decide⟩
  have hown := (h lateRun (List.prefix_refl _) _ rfl).1 1 ⟨0, .commit [sampleSpec]⟩ (by decide)
  cases hown

/-- An answer in time, a prompt that times out without an answer, and an answer in time. -/
theorem timely_answers_are_paired :
    system.Always (fun l' => l'.Paired ∧ l'.UsesOwn) start
      [.prompt (.batchStart 7), .answer 0 (.commit [sampleSpec]), .prompt (.revealStart 7),
        .timeout, .prompt (.batchStart 8), .answer 2 (.commit [])] :=
  (paired_iff rfl).mpr (by decide)

end StrategyLink
