/-
# The strategy server

The node listens for a strategy.  An acceptor task takes connections one after another; each
gets a task of its own, which waits for the auth token and then relays events and actions.  A
new connection replaces the one before it: the acceptor aborts the old task as soon as the new
connection is there, before it has said anything.  So a session ends when its client or the node
ends it or when anybody connects, and a connection without the token can do no harm after it
was accepted (`StrategyServer.session_ends_iff`).
-/
import DeadmktNode.Orchestrator
import DeadmktNode.Runs
import Mathlib.Logic.Function.Basic

/-! ## What a connection says -/

/-- The first text of a connection: what `action` and `token` are in it, if they are texts, or
no JSON at all. -/
inductive FirstMessage where
  | notJson
  | json (action token : Option String)
deriving DecidableEq, Repr

/-- Compare the token with the expected one. -/
def validateAuth (token expected : String) : Except String Unit :=
  if token = expected then .ok () else .error "invalid token"

/-- The answer to the first text: `AuthOk`, or `AuthFailed` with its reason. -/
def authAnswer (authToken : String) : FirstMessage → Except String Unit
  | .notJson => .error "invalid JSON"
  | .json action token =>
      if action.getD "" ≠ "auth" then .error "first message must be auth"
      else validateAuth (token.getD "") authToken

/-- The text presents the token. -/
def FirstMessage.presents (authToken : String) (m : FirstMessage) : Prop :=
  authAnswer authToken m = .ok ()

instance (authToken : String) (m : FirstMessage) : Decidable (m.presents authToken) :=
  match h : authAnswer authToken m with
  | .ok () => isTrue h
  | .error _ => isFalse fun h' => by rw [FirstMessage.presents, h] at h'; cases h'

/-- What the handshake waits for. -/
inductive HandshakeInput where
  | text (m : FirstMessage)
  /-- a ping, a pong or binary data -/
  | other
  /-- the client closed or failed -/
  | gone
  /-- five seconds are over -/
  | deadline
deriving DecidableEq, Repr

/-- What the relay loop waits for.  A flag says whether the write to the client, or to the
channel of the actions, succeeded. -/
inductive RelayInput where
  | pingTick (sent : Bool)
  | event (e : StrategyEvent) (sent : Bool)
  | eventsClosed
  | action (taken : Bool)
  | unparsable
  | ping (answered : Bool)
  | other
  | clientGone
deriving DecidableEq

/-- Who ends a session. -/
inductive Ending where
  | client
  | node
deriving DecidableEq, Repr

/-- Does the relay loop break, and on whose part?  The notice of a commit timeout does not end
the session, any other notice of a disconnection does. -/
def RelayInput.ending : RelayInput → Option Ending
  | .pingTick sent => if sent then none else some .client
  | .event e sent =>
      if !sent then some .client
      else
        match e with
        | .disconnected reason => if reason ≠ "commit timeout" then some .node else none
        | _ => none
  | .eventsClosed => some .node
  | .action taken => if taken then none else some .node
  | .unparsable => none
  | .ping answered => if answered then none else some .client
  | .other => none
  | .clientGone => some .client

/-! ## Tasks -/

/-- How far the task of a connection is. -/
inductive ConnectionPhase where
  | waitingForAuth
  | sendingAuthOk
  | closing
  | authenticated
deriving DecidableEq, Repr

/-- The acceptor and the tasks of the connections, which are numbered as they come. -/
structure StrategyServer where
  listening : Bool
  accepted : ℕ
  tasks : ℕ → Option ConnectionPhase
  activeHandle : Option ℕ
  connected : Bool

namespace StrategyServer

/-- What happens next. -/
inductive Step where
  /-- a connection is accepted -/
  | accept
  /-- a connection does not get through the WebSocket handshake -/
  | handshakeFailed
  /-- the listener fails, and the acceptor stops -/
  | listenerFailed
  | first (c : ℕ) (input : HandshakeInput)
  | authSent (c : ℕ) (sent : Bool)
  /-- a connection that was refused is closed -/
  | closed (c : ℕ)
  | relay (c : ℕ) (input : RelayInput)
deriving DecidableEq

def start : StrategyServer := ⟨true, 0, fun _ => none, none, false⟩

/-- Is a client authenticated and connected? -/
def isConnected (s : StrategyServer) : Bool := s.connected

/-- A task goes on to another phase. -/
def goto (s : StrategyServer) (c : ℕ) (phase : ConnectionPhase) : StrategyServer :=
  { s with tasks := Function.update s.tasks c (some phase) }

/-- A task returns. -/
def finish (s : StrategyServer) (c : ℕ) : StrategyServer :=
  { s with tasks := Function.update s.tasks c none, connected := false }

/-- The task under the active handle is aborted. -/
def abortActive (s : StrategyServer) : StrategyServer :=
  match s.activeHandle with
  | some c => { s with tasks := Function.update s.tasks c none, activeHandle := none }
  | none => s

/-- A connection is there: the previous one is killed, and a task is spawned. -/
def acceptConnection (s : StrategyServer) : StrategyServer :=
  { s.abortActive with
    accepted := s.accepted + 1
    tasks := Function.update s.abortActive.tasks s.accepted (some .waitingForAuth)
    activeHandle := some s.accepted
    connected := false }

/-- The state after a step, if it can be taken. -/
def step (authToken : String) (s : StrategyServer) : Step → Option StrategyServer
  | .accept => if s.listening then some s.acceptConnection else none
  | .handshakeFailed => if s.listening then some s else none
  | .listenerFailed => if s.listening then some { s with listening := false } else none
  | .first c input =>
      if s.tasks c = some .waitingForAuth then
        match input with
        | .text m =>
            if m.presents authToken then some (s.goto c .sendingAuthOk)
            else some (s.goto c .closing)
        | .other => some s
        | .gone | .deadline => some (s.goto c .closing)
      else none
  | .authSent c sent =>
      if s.tasks c = some .sendingAuthOk then
        if sent then some { s.goto c .authenticated with connected := true }
        else some (s.finish c)
      else none
  | .closed c => if s.tasks c = some .closing then some (s.finish c) else none
  | .relay c input =>
      if s.tasks c = some .authenticated then
        match input.ending with
        | none => some s
        | some _ => some (s.finish c)
      else none

/-- The server with its token. -/
def system (authToken : String) : System StrategyServer Step where
  step := step authToken

/-! ## Sessions -/

/-- The connection has presented the token and its session has not ended. -/
def InSession (s : StrategyServer) (c : ℕ) : Prop :=
  s.tasks c = some .sendingAuthOk ∨ s.tasks c = some .authenticated

instance (s : StrategyServer) (c : ℕ) : Decidable (s.InSession c) :=
  inferInstanceAs (Decidable (_ ∨ _))

/-- Among the steps the connection presented the token. -/
def Presented (authToken : String) (past : List Step) (c : ℕ) : Prop :=
  ∃ m : FirstMessage, .first c (.text m) ∈ past ∧ m.presents authToken

/-- The client of the session closes or fails, or the node closes it. -/
def Step.closesSession (c : ℕ) : Step → Bool
  | .authSent d sent => decide (d = c) && !sent
  | .relay d input => decide (d = c) && input.ending.isSome
  | _ => false

/-- The connection that takes the step. -/
def takenBy (s : StrategyServer) : Step → Option ℕ
  | .accept => some s.accepted
  | .handshakeFailed | .listenerFailed => none
  | .first c _ | .authSent c _ | .closed c | .relay c _ => some c

/-! ## What one step does -/

section

variable {authToken : String} {past : List Step} {s s' : StrategyServer} {i : Step} {c d : ℕ}

/-- What a step can do. -/
inductive Effect (authToken : String) (s : StrategyServer) : Step → StrategyServer → Prop where
  | idle {i : Step} {s' : StrategyServer} (htasks : s'.tasks = s.tasks)
      (hconnected : s'.connected = s.connected) (hactive : s'.activeHandle = s.activeHandle)
      (haccepted : s'.accepted = s.accepted) (hi : i ≠ .accept)
      (hcloses : ∀ c, i.closesSession c = false) : Effect authToken s i s'
  | accept : Effect authToken s .accept s.acceptConnection
  | presented {c : ℕ} {m : FirstMessage} (hwaiting : s.tasks c = some .waitingForAuth)
      (hm : m.presents authToken) :
      Effect authToken s (.first c (.text m)) (s.goto c .sendingAuthOk)
  | refused {c : ℕ} {input : HandshakeInput} (hwaiting : s.tasks c = some .waitingForAuth) :
      Effect authToken s (.first c input) (s.goto c .closing)
  | authenticated {c : ℕ} (hsending : s.tasks c = some .sendingAuthOk) :
      Effect authToken s (.authSent c true) { s.goto c .authenticated with connected := true }
  | closed {c : ℕ} (hclosing : s.tasks c = some .closing) :
      Effect authToken s (.closed c) (s.finish c)
  | ended {c : ℕ} {i : Step} (hsession : s.InSession c) (hcloses : i.closesSession c = true)
      (hi : i ≠ .accept) (hby : s.takenBy i = some c) : Effect authToken s i (s.finish c)

theorem effect_of_step (h : (system authToken).step s i = some s') : Effect authToken s i s' := by
  replace h : step authToken s i = some s' := h
  cases i with
  | accept =>
      simp only [step] at h
      split_ifs at h
      obtain rfl := Option.some.inj h
      exact .accept
  | handshakeFailed =>
      simp only [step] at h
      split_ifs at h
      obtain rfl := Option.some.inj h
      exact .idle rfl rfl rfl rfl (by simp) fun _ => rfl
  | listenerFailed =>
      simp only [step] at h
      split_ifs at h
      obtain rfl := Option.some.inj h
      exact .idle rfl rfl rfl rfl (by simp) fun _ => rfl
  | first c input =>
      simp only [step] at h
      split_ifs at h with hwaiting
      cases input with
      | text m =>
          dsimp only at h
          split_ifs at h with hm
          · obtain rfl := Option.some.inj h
            exact .presented hwaiting hm
          · obtain rfl := Option.some.inj h
            exact .refused hwaiting
      | other =>
          obtain rfl := Option.some.inj h
          exact .idle rfl rfl rfl rfl (by simp) fun _ => rfl
      -- a client that leaves or keeps silent is refused as one that says the wrong thing
      | gone =>
          obtain rfl := Option.some.inj h
          exact .refused hwaiting
      | deadline =>
          obtain rfl := Option.some.inj h
          exact .refused hwaiting
  | authSent c sent =>
      simp only [step] at h
      split_ifs at h with hsending hsent
      · subst hsent
        obtain rfl := Option.some.inj h
        exact .authenticated hsending
      · obtain rfl := Option.some.inj h
        rw [Bool.not_eq_true] at hsent
        subst hsent
        exact .ended (.inl hsending) (by simp [Step.closesSession]) (by simp) rfl
  | closed c =>
      simp only [step] at h
      split_ifs at h with hclosing
      obtain rfl := Option.some.inj h
      exact .closed hclosing
  | relay c input =>
      simp only [step] at h
      split_ifs at h with hauth
      -- a relayed message goes on with the session or ends it
      cases hending : input.ending with
      | none =>
          rw [hending] at h
          obtain rfl := Option.some.inj h
          exact .idle rfl rfl rfl rfl (by simp) fun d => by simp [Step.closesSession, hending]
      | some ending =>
          rw [hending] at h
          obtain rfl := Option.some.inj h
          exact .ended (.inr hauth) (by simp [Step.closesSession, hending]) (by simp) rfl

/-! ## At most one task -/

/-- The only task that can be alive is the active one, and the flag tells whether it is
authenticated.  Whoever is in a session has presented the token. -/
structure Sane (authToken : String) (past : List Step) (s : StrategyServer) : Prop where
  active : ∀ c phase, s.tasks c = some phase → s.activeHandle = some c
  known : ∀ c, s.activeHandle = some c → c < s.accepted
  connected : s.connected = true ↔ ∃ c, s.tasks c = some .authenticated
  presented : ∀ c, s.InSession c → Presented authToken past c

theorem sane_start (authToken : String) : Sane authToken [] start := by
  refine ⟨?_, ?_, ?_, ?_⟩
  · intro c phase h
    cases h
  · intro c h
    cases h
  · refine iff_of_false Bool.false_ne_true ?_
    rintro ⟨c, h⟩
    cases h
  · rintro c (h | h)
    · cases h
    · cases h

theorem Presented.snoc (h : Presented authToken past c) (i : Step) :
    Presented authToken (past ++ [i]) c := by
  obtain ⟨m, hmem, hm⟩ := h
  exact ⟨m, List.mem_append_left _ hmem, hm⟩

/-- Two live tasks are one. -/
theorem Sane.unique (h : Sane authToken past s) {phase phase' : ConnectionPhase}
    (hc : s.tasks c = some phase) (hd : s.tasks d = some phase') : c = d :=
  Option.some.inj ((h.active c phase hc).symm.trans (h.active d phase' hd))

/-- A session is in one of its two phases. -/
theorem InSession.tasks_ne (hc : s.InSession c) {phase : ConnectionPhase}
    (hsending : phase ≠ .sendingAuthOk) (hauthenticated : phase ≠ .authenticated) :
    s.tasks c ≠ some phase := by
  intro htask
  rcases hc with hc | hc
  · exact hsending (Option.some.inj (htask.symm.trans hc))
  · exact hauthenticated (Option.some.inj (htask.symm.trans hc))

theorem inSession_congr (htask : s'.tasks c = s.tasks c) : s'.InSession c ↔ s.InSession c := by
  unfold InSession
  rw [htask]

theorem Sane.taskOf_session (h : Sane authToken past s) (hc : s.InSession c)
    {phase : ConnectionPhase} (hd : s.tasks d = some phase) : c = d := by
  rcases hc with hc | hc
  · exact h.unique hc hd
  · exact h.unique hc hd

theorem tasks_acceptConnection (h : Sane authToken past s) (c : ℕ) :
    s.acceptConnection.tasks c = if c = s.accepted then some .waitingForAuth else none := by
  have haborted : ∀ d, s.abortActive.tasks d = none := by
    intro d
    unfold abortActive
    cases hactive : s.activeHandle with
    | none =>
        cases htask : s.tasks d with
        | none => rfl
        | some phase => exact absurd (hactive.symm.trans (h.active d phase htask)) (by simp)
    | some a =>
        dsimp only
        by_cases hd : d = a
        · rw [hd, Function.update_self]
        · rw [Function.update_of_ne hd]
          cases htask : s.tasks d with
          | none => rfl
          | some phase =>
              exact absurd (Option.some.inj (hactive.symm.trans (h.active d phase htask))).symm hd
  show Function.update s.abortActive.tasks s.accepted (some .waitingForAuth) c = _
  by_cases hc : c = s.accepted
  · rw [hc, Function.update_self, if_pos rfl]
  · rw [Function.update_of_ne hc, if_neg hc, haborted]

/-- An accepted connection leaves nobody in a session. -/
theorem not_inSession_acceptConnection (h : Sane authToken past s) (c : ℕ) :
    ¬ s.acceptConnection.InSession c := by
  unfold InSession
  rw [tasks_acceptConnection h]
  split_ifs
  · simp
  · simp

theorem tasks_goto (s : StrategyServer) (c d : ℕ) (phase : ConnectionPhase) :
    (s.goto c phase).tasks d = if d = c then some phase else s.tasks d :=
  Function.update_apply _ _ _ _

theorem tasks_finish (s : StrategyServer) (c d : ℕ) :
    (s.finish c).tasks d = if d = c then none else s.tasks d :=
  Function.update_apply _ _ _ _

/-- Other sessions go on when a task does. -/
theorem inSession_goto_of_ne (hdc : d ≠ c) {phase : ConnectionPhase} :
    (s.goto c phase).InSession d ↔ s.InSession d :=
  inSession_congr ((tasks_goto s c d phase).trans (if_neg hdc))

theorem not_inSession_finish (s : StrategyServer) (c : ℕ) : ¬ (s.finish c).InSession c := by
  unfold InSession
  rw [tasks_finish, if_pos rfl]
  simp

/-- A task that goes on stays the only one. -/
theorem Sane.active_goto (h : Sane authToken past s) {phase phase' : ConnectionPhase}
    (hc : s.tasks c = some phase) (d : ℕ) (phase'' : ConnectionPhase)
    (hd : (s.goto c phase').tasks d = some phase'') : (s.goto c phase').activeHandle = some d := by
  rw [tasks_goto] at hd
  split_ifs at hd with hdc
  · exact hdc ▸ h.active c phase hc
  · exact h.active d phase'' hd

/-- A task that goes on between phases without authentication authenticates nobody. -/
theorem exists_goto_iff {phase phase' : ConnectionPhase} (hc : s.tasks c = some phase)
    (hphase : phase ≠ .authenticated) (hphase' : phase' ≠ .authenticated) :
    (∃ d, s.tasks d = some .authenticated) ↔
      ∃ d, (s.goto c phase').tasks d = some .authenticated := by
  refine exists_congr fun d => ?_
  rw [tasks_goto]
  split_ifs with hdc
  · subst hdc
    rw [hc]
    exact iff_of_false (fun heq => hphase (Option.some.inj heq))
      (fun heq => hphase' (Option.some.inj heq))
  · exact Iff.rfl

/-- When the only task returns, none is left. -/
theorem Sane.finish {past' : List Step} (h : Sane authToken past s)
    (honly : ∀ d phase, s.tasks d = some phase → d = c) :
    Sane authToken past' (s.finish c) := by
  have hnone : ∀ d, (s.finish c).tasks d = none := by
    intro d
    rw [tasks_finish]
    split_ifs with hdc
    · rfl
    · cases htask : s.tasks d with
      | none => rfl
      | some phase => exact absurd (honly d phase htask) hdc
  refine ⟨?_, h.known, ?_, ?_⟩
  · intro d phase hd
    cases (hnone d).symm.trans hd
  · refine iff_of_false Bool.false_ne_true ?_
    rintro ⟨d, hd⟩
    cases (hnone d).symm.trans hd
  · rintro d (hd | hd)
    · cases (hnone d).symm.trans hd
    · cases (hnone d).symm.trans hd

/-- **Step.**  There is still at most one task. -/
theorem Sane.step (h : Sane authToken past s) (hstep : (system authToken).step s i = some s') :
    Sane authToken (past ++ [i]) s' := by
  have hold : ∀ c, s.InSession c → Presented authToken (past ++ [i]) c := fun c hc =>
    (h.presented c hc).snoc i
  cases effect_of_step hstep with
  | idle htasks hconnected hactive haccepted =>
      refine ⟨?_, ?_, ?_, ?_⟩
      · rw [htasks, hactive]
        exact h.active
      · rw [hactive, haccepted]
        exact h.known
      · rw [htasks, hconnected]
        exact h.connected
      · intro c hc
        exact hold c ((inSession_congr (congrFun htasks c)).mp hc)
  -- the new connection is the only task: the old one was aborted
  | accept =>
      refine ⟨?_, ?_, ?_, ?_⟩
      · intro c phase hc
        rw [tasks_acceptConnection h] at hc
        split_ifs at hc with hlast
        exact congrArg some hlast.symm
      · intro c hc
        obtain rfl := Option.some.inj hc
        exact Nat.lt_succ_self _
      · refine iff_of_false Bool.false_ne_true ?_
        rintro ⟨c, hc⟩
        rw [tasks_acceptConnection h] at hc
        split_ifs at hc
        cases hc
      · intro c hc
        exact absurd hc (not_inSession_acceptConnection h c)
  | @presented c m hwaiting hm =>
      refine ⟨h.active_goto hwaiting, h.known, ?_, ?_⟩
      · exact h.connected.trans (exists_goto_iff hwaiting (by decide) (by decide))
      · intro d hd
        by_cases hdc : d = c
        · subst hdc
          exact ⟨m, List.mem_append_right _ List.mem_cons_self, hm⟩
        · exact hold d ((inSession_goto_of_ne hdc).mp hd)
  | @refused c input hwaiting =>
      refine ⟨h.active_goto hwaiting, h.known, ?_, ?_⟩
      · exact h.connected.trans (exists_goto_iff hwaiting (by decide) (by decide))
      · intro d hd
        by_cases hdc : d = c
        · subst hdc
          -- a refused connection is closing, so it is in no session
          have hclosing : (s.goto d .closing).tasks d = some .closing := by
            rw [tasks_goto, if_pos rfl]
          exact absurd hclosing (hd.tasks_ne (by decide) (by decide))
        · exact hold d ((inSession_goto_of_ne hdc).mp hd)
  | @authenticated c hsending =>
      refine ⟨h.active_goto hsending, h.known, ?_, ?_⟩
      · exact iff_of_true rfl ⟨c, by rw [tasks_goto, if_pos rfl]⟩
      · intro d hd
        by_cases hdc : d = c
        · subst hdc
          exact hold d (.inl hsending)
        · exact hold d ((inSession_goto_of_ne hdc).mp hd)
  | @closed c hclosing => exact h.finish fun d _ hd => h.unique hd hclosing
  | @ended c _ hsession => exact h.finish fun d _ hd => (h.taskOf_session hsession hd).symm

/-- In every state that the server reaches there is at most one task. -/
theorem sane_of_run (hrun : (system authToken).run start past = some s) :
    Sane authToken past s :=
  (system authToken).run_history (I := Sane authToken)
    (fun _ _ _ _ h hstep => h.step hstep) (sane_start authToken) hrun

/-! ## The end of a session -/

/-- A session ends with this step if its client or the node closes it, or if a connection is
accepted. -/
theorem Sane.inSession_iff (h : Sane authToken past s)
    (hstep : (system authToken).step s i = some s') (hc : s.InSession c) :
    ¬ s'.InSession c ↔ i = .accept ∨ i.closesSession c = true := by
  cases effect_of_step hstep with
  -- one case for each effect of a step on the connection
  | idle htasks _ _ _ hi hcloses =>
      refine iff_of_false (not_not.mpr ?_) ?_
      · exact (inSession_congr (congrFun htasks c)).mpr hc
      · rintro (heq | hcl)
        · exact hi heq
        · rw [hcloses] at hcl
          cases hcl
  | accept =>
      exact iff_of_true (not_inSession_acceptConnection h c) (.inl rfl)
  -- the steps of a connection that is not authenticated are those of another
  | presented hwaiting =>
      obtain rfl := h.taskOf_session hc hwaiting
      exact absurd hwaiting (hc.tasks_ne (by decide) (by decide))
  | refused hwaiting =>
      obtain rfl := h.taskOf_session hc hwaiting
      exact absurd hwaiting (hc.tasks_ne (by decide) (by decide))
  | authenticated hsending =>
      obtain rfl := h.taskOf_session hc hsending
      refine iff_of_false (not_not.mpr (.inr ?_)) ?_
      · show (s.goto c .authenticated).tasks c = _
        rw [tasks_goto, if_pos rfl]
      · simp [Step.closesSession]
  | closed hclosing =>
      obtain rfl := h.taskOf_session hc hclosing
      exact absurd hclosing (hc.tasks_ne (by decide) (by decide))
  | @ended d _ hsession hcloses =>
      obtain rfl : c = d := by
        rcases hsession with hd | hd
        · exact h.taskOf_session hc hd
        · exact h.taskOf_session hc hd
      exact iff_of_true (not_inSession_finish s c) (.inr hcloses)

/-- The flag goes down with the session of the authenticated connection. -/
theorem Sane.isConnected_iff (h : Sane authToken past s)
    (hstep : (system authToken).step s i = some s') (hc : s.tasks c = some .authenticated) :
    s'.isConnected = false ↔ i = .accept ∨ i.closesSession c = true := by
  have hup : s.connected = true := h.connected.mpr ⟨c, hc⟩
  cases effect_of_step hstep with
  | idle _ hconnected _ _ hi hcloses =>
      refine iff_of_false ?_ ?_
      · rw [isConnected, hconnected, hup]
        exact (by decide)
      · rintro (heq | hcl)
        · exact hi heq
        · rw [hcloses] at hcl
          cases hcl
  | accept => exact iff_of_true rfl (.inl rfl)
  | presented hwaiting =>
      obtain rfl := h.unique hc hwaiting
      cases hc.symm.trans hwaiting
  | refused hwaiting =>
      obtain rfl := h.unique hc hwaiting
      cases hc.symm.trans hwaiting
  | authenticated hsending =>
      obtain rfl := h.unique hc hsending
      cases hc.symm.trans hsending
  | closed hclosing =>
      obtain rfl := h.unique hc hclosing
      cases hc.symm.trans hclosing
  | @ended d _ hsession hcloses =>
      obtain rfl := h.taskOf_session hsession hc
      exact iff_of_true rfl (.inr hcloses)

/-- A connection without the token changes the flag and ends a session by being accepted, or
not at all. -/
theorem Sane.accept_of_changes (h : Sane authToken past s)
    (hstep : (system authToken).step s i = some s') (hby : s.takenBy i = some d)
    (hd : ¬ Presented authToken (past ++ [i]) d)
    (hchanges : s'.isConnected ≠ s.isConnected ∨ ∃ c, s.InSession c ∧ ¬ s'.InSession c) :
    i = .accept := by
  by_contra hi
  have hsession : ∀ c, s.InSession c → i.closesSession c = false := by
    intro c hc
    by_contra hcl
    rw [Bool.not_eq_false] at hcl
    -- only the connection itself closes its session, and it has presented the token
    have hcd : c = d := by
      cases i with
      | authSent e sent =>
          simp only [Step.closesSession, Bool.and_eq_true, decide_eq_true_eq] at hcl
          exact hcl.1.symm.trans (Option.some.inj hby)
      | relay e input =>
          simp only [Step.closesSession, Bool.and_eq_true, decide_eq_true_eq] at hcl
          exact hcl.1.symm.trans (Option.some.inj hby)
      | _ => cases hcl
    exact hd (hcd ▸ (h.presented c hc).snoc i)
  rcases hchanges with hflag | ⟨c, hc, hends⟩
  · cases effect_of_step hstep with
    | idle _ hconnected => exact hflag hconnected
    | accept => exact hi rfl
    | presented => exact hflag rfl
    | refused => exact hflag rfl
    | authenticated hsending =>
        obtain rfl := Option.some.inj hby
        exact hd ((h.presented _ (.inl hsending)).snoc _)
    | @closed c hclosing =>
        -- the only task was not authenticated, so the flag was down
        have hdown : s.connected = false := by
          by_contra hup
          rw [Bool.not_eq_false, h.connected] at hup
          obtain ⟨e, he⟩ := hup
          obtain rfl := h.unique he hclosing
          cases he.symm.trans hclosing
        exact hflag hdown.symm
    | @ended c _ hc hcloses =>
        rw [hsession c hc] at hcloses
        cases hcloses
  · rcases (h.inSession_iff hstep hc).mp hends with heq | hcl
    · exact hi heq
    · rw [hsession c hc] at hcl
      cases hcl

/-- Once a connection has presented the token, its session ends exactly when its client closes
or fails, when the node closes it, or when another connection is accepted, with the token or
without, and so does `is_connected`.  A connection that has not presented the token ends a
session or changes `is_connected` by being accepted, and in no other way. -/
theorem session_ends_iff (hrun : (system authToken).run start past = some s)
    (hstep : (system authToken).step s i = some s') :
    (∀ c m, i = .first c (.text m) → m.presents authToken → s'.InSession c) ∧
      (∀ c, s.InSession c → Presented authToken past c ∧
        (¬ s'.InSession c ↔ i = .accept ∨ i.closesSession c = true)) ∧
      (s.isConnected = true → (s'.isConnected = false ↔
        ∃ c, s.tasks c = some .authenticated ∧ (i = .accept ∨ i.closesSession c = true))) ∧
      ∀ d, s.takenBy i = some d → ¬ Presented authToken (past ++ [i]) d →
        (s'.isConnected ≠ s.isConnected ∨ ∃ c, s.InSession c ∧ ¬ s'.InSession c) →
        i = .accept := by
  have h := sane_of_run hrun
  refine ⟨?_, fun c hc => ⟨h.presented c hc, h.inSession_iff hstep hc⟩, fun hup => ?_,
    fun d hby hd => h.accept_of_changes hstep hby hd⟩
  · rintro c m rfl hm
    replace hstep : step authToken s (.first c (.text m)) = some s' := hstep
    simp only [step, if_pos hm] at hstep
    split_ifs at hstep
    obtain rfl := Option.some.inj hstep
    exact .inl (by rw [tasks_goto, if_pos rfl])
  · obtain ⟨c, hc⟩ := h.connected.mp hup
    constructor
    · intro hdown
      exact ⟨c, hc, (h.isConnected_iff hstep hc).mp hdown⟩
    · rintro ⟨d, hd, hcloses⟩
      exact (h.isConnected_iff hstep hd).mpr hcloses

end

/-! ## A stranger connects -/

/-- A client authenticates with the token. -/
def sampleSession : List Step :=
  [.accept, .first 0 (.text (.json (some "auth") (some "secret"))), .authSent 0 true]

/-- The server with its client. -/
def sampleServer : StrategyServer := ((system "secret").run start sampleSession).getD start

theorem run_sampleSession : (system "secret").run start sampleSession = some sampleServer :=
  System.run_eq_some_getD _ (by decide)

theorem step_accept {s : StrategyServer} (authToken : String) (h : s.listening = true) :
    (system authToken).step s .accept = some s.acceptConnection :=
  if_pos h

theorem step_clientGone {s : StrategyServer} {c : ℕ} (authToken : String)
    (h : s.tasks c = some .authenticated) :
    (system authToken).step s (.relay c .clientGone) = some (s.finish c) :=
  if_pos h

/-- The session of a client ends when the client goes. -/
theorem client_leaves :
    ¬ (sampleServer.finish 0).InSession 0 ↔
      Step.relay 0 .clientGone = .accept ∨ (Step.relay 0 .clientGone).closesSession 0 = true :=
  ((session_ends_iff run_sampleSession (step_clientGone "secret" (by decide))).2.1 0
    (by decide)).2

/-- It ends as well when somebody connects and says nothing. -/
theorem stranger_ends_session :
    ¬ ∀ (authToken : String) (past : List Step) (i : Step) (s s' : StrategyServer),
      (system authToken).run start past = some s → (system authToken).step s i = some s' →
      ∀ c, s.InSession c → ¬ s'.InSession c →
        i.closesSession c = true ∨ ∃ d, d ≠ c ∧ Presented authToken (past ++ [i]) d := by
  intro h
  rcases h "secret" sampleSession .accept sampleServer sampleServer.acceptConnection
    run_sampleSession (step_accept "secret" (by decide)) 0 (by decide) (by decide)
    with hcl | ⟨d, hd, m, hm, -⟩
  · cases hcl
  · simp only [sampleSession, List.cons_append, List.nil_append, List.mem_cons, reduceCtorEq,
      Step.first.injEq, List.not_mem_nil, or_false, false_or] at hm
    exact hd hm.1

end StrategyServer
