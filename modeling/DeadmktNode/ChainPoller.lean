/-
# The chain poller of the run loop

A task asks for the height of the chain over and over and hands it to the run loop.  Between two
polls it waits longer after errors, and longer still while the height does not grow; the two
waits know nothing of each other.  How long it waits can be read off the answers so far
(`poller_of_answers`): off the errors since the last answer that came, and off the answers since
the greatest height was first seen.  The wait is never longer than five and a half minutes.

Errors are counted in 32 bits.  A row of 2^32 errors brings the count back to 0, where the wait
is a second, and the answer after it does not take this second away.
-/
import DeadmktNode.RpcClient

/-- Height and time of the chain. -/
structure LedgerInfo where
  blockHeight : UInt64
  ledgerTimestamp : UInt64
deriving DecidableEq, Repr

namespace JsonValue

/-- An integer that is written as a number or as a string. -/
def asU64OrText : JsonValue → Option UInt64
  | number text => fromStrRadix 10 text.toList
  | string s => fromStrRadix 10 s.toList
  | _ => none

end JsonValue

/-- The height in an answer of the chain; `render` writes a value for the error.  Without a time
the time is 0. -/
def getLedgerInfo (http : HttpCrates) (render : JsonValue → String) :
    HttpAnswer → Except ChainError LedgerInfo
  | .failed error => .error (.networkError error)
  | .response resp => do
      resp.checkRateLimit
      let json ← resp.parseJson http
      match (json.get "height").bind JsonValue.asU64OrText with
      | none => .error (.deserializationError
          ("missing 'height' in block response: " ++ String.ofList ((render json).toList.take 200)))
      | some blockHeight =>
          return { blockHeight := blockHeight
                   ledgerTimestamp := (((json.get "timestamp").bind
                     (JsonValue.get "timestamp")).bind JsonValue.asU64OrText).getD 0 }

/-! ## The loop -/

/-- The poller between two polls; times are in seconds. -/
structure ChainPoller where
  backoff : ℕ
  consecutiveErrors : UInt32
  lastNewBlock : UInt64
  stallBackoff : ℕ
  stallLogged : Bool
deriving DecidableEq, Repr

namespace ChainPoller

/-- A poller that has not polled. -/
def new : ChainPoller := ⟨0, 0, 0, 0, false⟩

/-- The longest back-off of errors, in seconds. -/
def maxBackoff : ℕ := 30

/-- The longest back-off of a chain that stands still, in seconds. -/
def maxStallBackoff : ℕ := 300

/-- The wait before a poll, in milliseconds. -/
def sleepDur (p : ChainPoller) : ℕ := 200 + 1000 * p.backoff + 1000 * p.stallBackoff

/-- Handle the answer of a poll. -/
def poll (p : ChainPoller) : Except ChainError LedgerInfo → ChainPoller
  | .ok l =>
      let p :=
        if 0 < p.consecutiveErrors then { p with consecutiveErrors := 0, backoff := 0 } else p
      if p.lastNewBlock < l.blockHeight then
        { p with stallLogged := false, lastNewBlock := l.blockHeight, stallBackoff := 0 }
      else
        let stallBackoff :=
          if p.stallBackoff < maxStallBackoff then
            if p.stallBackoff = 0 then 1 else min (p.stallBackoff * 2) maxStallBackoff
          else p.stallBackoff
        { p with
          stallBackoff := stallBackoff
          stallLogged := p.stallLogged || 30 ≤ stallBackoff }
  | .error _ =>
      { p with
        consecutiveErrors := p.consecutiveErrors + 1
        backoff := min (2 ^ min (p.consecutiveErrors + 1).toNat 5) maxBackoff }

/-- One round of the loop: what comes over HTTP is read as a height, or as an error. -/
def onAnswer (http : HttpCrates) (render : JsonValue → String) (p : ChainPoller)
    (answer : HttpAnswer) : ChainPoller :=
  p.poll (getLedgerInfo http render answer)

/-- The height that is handed to the run loop. -/
def sent : Except ChainError LedgerInfo → Option UInt64
  | .ok l => some l.blockHeight
  | .error _ => none

/-! ## The answers -/

/-- Was there an answer? -/
def answered : Except ChainError LedgerInfo → Bool
  | .ok _ => true
  | .error _ => false

/-- The errors since the last answer. -/
def trailingErrors (as : List (Except ChainError LedgerInfo)) : ℕ :=
  (as.reverse.takeWhile fun a => !answered a).length

/-- The errors of the last row of errors, whether an answer came since or not. -/
def lastErrors (as : List (Except ChainError LedgerInfo)) : ℕ :=
  ((as.reverse.dropWhile answered).takeWhile fun a => !answered a).length

/-- The height in an answer, or 0. -/
def heightOf (a : Except ChainError LedgerInfo) : ℕ := ((sent a).getD 0).toNat

/-- The greatest height, or 0. -/
def bestHeight (as : List (Except ChainError LedgerInfo)) : ℕ :=
  (as.map heightOf).foldl max 0

/-- The answers since the greatest height was first seen; while it is 0 every answer counts. -/
def sinceBest (as : List (Except ChainError LedgerInfo)) : ℕ :=
  if bestHeight as = 0 then as.countP answered
  else ((as.dropWhile fun a => heightOf a ≠ bestHeight as).tail).countP answered

/-- The wait for errors: that of the errors in a row, counted in 32 bits.  After an answer there
is none, unless the count of the errors before it was back at 0. -/
def backoffAfter (as : List (Except ChainError LedgerInfo)) : ℕ :=
  if 0 < trailingErrors as then min (2 ^ min (trailingErrors as % 2 ^ 32) 5) maxBackoff
  else if 0 < lastErrors as ∧ lastErrors as % 2 ^ 32 = 0 then 1
  else 0

/-- The wait after `m` answers without a new height. -/
def stallAfter (m : ℕ) : ℕ := if m = 0 then 0 else min (2 ^ (m - 1)) maxStallBackoff

/-- An answer ends a row of errors, and an error is one more. -/
theorem trailingErrors_snoc (as : List (Except ChainError LedgerInfo))
    (a : Except ChainError LedgerInfo) :
    trailingErrors (as ++ [a]) = if answered a then 0 else trailingErrors as + 1 := by
  unfold trailingErrors
  rw [List.reverse_append, List.reverse_singleton, List.singleton_append, List.takeWhile_cons]
  cases answered a <;> simp

/-- The last row of errors, with one more answer or error. -/
theorem lastErrors_snoc (as : List (Except ChainError LedgerInfo))
    (a : Except ChainError LedgerInfo) :
    lastErrors (as ++ [a]) = if answered a then lastErrors as else trailingErrors as + 1 := by
  unfold lastErrors trailingErrors
  rw [List.reverse_append, List.reverse_singleton, List.singleton_append, List.dropWhile_cons]
  cases h : answered a <;> simp [h]

/-- The errors since the last answer are the last row of errors, if there are any. -/
theorem lastErrors_of_trailing {as : List (Except ChainError LedgerInfo)}
    (h : 0 < trailingErrors as) : lastErrors as = trailingErrors as := by
  cases as using List.reverseRecOn with
  | nil => exact absurd h (lt_irrefl 0)
  | append_singleton as a =>
      rw [trailingErrors_snoc] at h ⊢
      rw [lastErrors_snoc]
      cases ha : answered a with
      | true =>
          rw [ha] at h
          exact absurd h (lt_irrefl 0)
      | false => rfl

/-- The greatest height, with one more answer. -/
theorem bestHeight_snoc (as : List (Except ChainError LedgerInfo))
    (a : Except ChainError LedgerInfo) :
    bestHeight (as ++ [a]) = max (bestHeight as) (heightOf a) := by
  unfold bestHeight
  rw [List.map_append, List.foldl_append]
  rfl

/-- No height is above the greatest, which was seen if it is not 0. -/
theorem heightOf_le_bestHeight {as : List (Except ChainError LedgerInfo)}
    {a : Except ChainError LedgerInfo} (h : a ∈ as) : heightOf a ≤ bestHeight as := by
  induction as using List.reverseRecOn with
  | nil => cases h
  | append_singleton as a' ih =>
      rw [bestHeight_snoc]
      rcases List.mem_append.mp h with h | h
      · exact (ih h).trans (le_max_left _ _)
      · rw [List.mem_singleton.mp h]
        exact le_max_right _ _

/-- The greatest height was answered. -/
theorem exists_heightOf_eq {as : List (Except ChainError LedgerInfo)} (h : bestHeight as ≠ 0) :
    ∃ a ∈ as, heightOf a = bestHeight as := by
  induction as using List.reverseRecOn with
  | nil => exact absurd rfl h
  | append_singleton as a ih =>
      rw [bestHeight_snoc] at h ⊢
      rcases Nat.le_total (heightOf a) (bestHeight as) with hle | hle
      · rw [max_eq_left hle] at h ⊢
        obtain ⟨a', ha', heq⟩ := ih h
        exact ⟨a', List.mem_append_left _ ha', heq⟩
      · rw [max_eq_right hle]
        exact ⟨a, List.mem_append_right _ (List.mem_singleton_self a), rfl⟩

/-- A greater height starts the count again; any other answer is counted. -/
theorem sinceBest_snoc (as : List (Except ChainError LedgerInfo))
    (a : Except ChainError LedgerInfo) :
    sinceBest (as ++ [a]) = if bestHeight as < heightOf a then 0
      else sinceBest as + if answered a then 1 else 0 := by
  have hone : [a].countP answered = if answered a then 1 else 0 := List.countP_singleton
  unfold sinceBest
  rw [bestHeight_snoc]
  by_cases hgreater : bestHeight as < heightOf a
  · -- the new height was not seen before
    rw [max_eq_right hgreater.le, if_neg (by omega), if_pos hgreater, List.dropWhile_append_of_pos,
      List.dropWhile_cons_of_neg]
    · rfl
    · simp
    · intro a' ha'
      have hle := heightOf_le_bestHeight ha'
      simp only [ne_eq, decide_eq_true_eq]
      omega
  · rw [max_eq_left (Nat.not_lt.mp hgreater), if_neg hgreater]
    by_cases hzero : bestHeight as = 0
    · rw [if_pos hzero, if_pos hzero, List.countP_append, hone]
    · -- the greatest height stays where it was first seen
      obtain ⟨a', ha', heq⟩ := exists_heightOf_eq hzero
      have hne : as.dropWhile (fun a => decide (heightOf a ≠ bestHeight as)) ≠ [] := by
        rw [ne_eq, List.dropWhile_eq_nil_iff]
        intro hall
        have := hall a' ha'
        simp [heq] at this
      rw [if_neg hzero, if_neg hzero, List.dropWhile_append, if_neg (by simpa using hne),
        List.tail_append_of_ne_nil hne, List.countP_append, hone]

/-! ## Runs -/

/-- What the answers say about the state. -/
structure Follows (as : List (Except ChainError LedgerInfo)) (p : ChainPoller) : Prop where
  errors : p.consecutiveErrors = UInt32.ofNat (trailingErrors as)
  backoff : p.backoff = backoffAfter as
  best : p.lastNewBlock.toNat = bestHeight as
  stall : p.stallBackoff = stallAfter (sinceBest as)

/-- The stall back-off doubles up to its bound. -/
theorem stallAfter_succ (m : ℕ) :
    stallAfter (m + 1) = if stallAfter m < maxStallBackoff then
      if stallAfter m = 0 then 1 else min (stallAfter m * 2) maxStallBackoff
    else stallAfter m := by
  cases m with
  | zero => rfl
  | succ m =>
      have hpos : 0 < 2 ^ m := Nat.two_pow_pos m
      have hm : ∀ k, stallAfter (k + 1) = min (2 ^ k) 300 := fun k => if_neg (Nat.succ_ne_zero k)
      rw [hm, hm, pow_succ]
      unfold maxStallBackoff
      by_cases hlt : min (2 ^ m) 300 < 300
      · rw [if_pos hlt, if_neg (by omega)]
        omega
      · rw [if_neg hlt]
        omega

/-- An error makes the row longer by one. -/
theorem backoffAfter_error (as : List (Except ChainError LedgerInfo)) (e : ChainError) :
    backoffAfter (as ++ [.error e])
      = min (2 ^ min ((trailingErrors as + 1) % 2 ^ 32) 5) maxBackoff := by
  have herrors : trailingErrors (as ++ [.error e]) = trailingErrors as + 1 :=
    trailingErrors_snoc as _
  rw [backoffAfter, herrors, if_pos (Nat.succ_pos _)]

/-- An answer takes the wait away if the errors before it were counted. -/
theorem backoffAfter_ok (as : List (Except ChainError LedgerInfo)) (l : LedgerInfo) :
    backoffAfter (as ++ [.ok l])
      = if trailingErrors as % 2 ^ 32 = 0 then backoffAfter as else 0 := by
  have herrors : trailingErrors (as ++ [.ok l]) = 0 := trailingErrors_snoc as _
  have hlast : lastErrors (as ++ [.ok l]) = lastErrors as := lastErrors_snoc as _
  unfold backoffAfter
  rw [herrors, hlast, if_neg (lt_irrefl 0)]
  by_cases hrow : 0 < trailingErrors as
  · rw [lastErrors_of_trailing hrow, if_pos hrow]
    by_cases hwrap : trailingErrors as % 2 ^ 32 = 0
    · -- the row was counted as none, so its second stays
      rw [if_pos ⟨hrow, hwrap⟩, if_pos hwrap, hwrap]
      rfl
    · rw [if_neg fun h => hwrap h.2, if_neg hwrap]
  · have hzero : trailingErrors as = 0 := by omega
    rw [if_neg hrow, hzero]
    rfl

/-- **Step.** -/
theorem Follows.poll {as : List (Except ChainError LedgerInfo)} {p : ChainPoller}
    (h : Follows as p) (a : Except ChainError LedgerInfo) : Follows (as ++ [a]) (p.poll a) := by
  cases a with
  | error e =>
      have hbest : bestHeight (as ++ [.error e]) = bestHeight as := by
        rw [bestHeight_snoc]
        exact max_eq_left (Nat.zero_le _)
      have hsince : sinceBest (as ++ [.error e]) = sinceBest as := by
        have hle : ¬ bestHeight as < heightOf (.error e) := Nat.not_lt_zero _
        rw [sinceBest_snoc, if_neg hle]
        rfl
      have herrors : trailingErrors (as ++ [.error e]) = trailingErrors as + 1 :=
        trailingErrors_snoc as _
      refine ⟨?_, ?_, ?_, ?_⟩
      · rw [herrors, UInt32.ofNat_add, ← h.errors]
        rfl
      · have hcount : (p.consecutiveErrors + 1).toNat = (trailingErrors as + 1) % 2 ^ 32 := by
          rw [h.errors, ← UInt32.toNat_ofNat', UInt32.ofNat_add]
          rfl
        rw [backoffAfter_error, ← hcount]
        rfl
      · rw [hbest]
        exact h.best
      · rw [hsince]
        exact h.stall
  | ok l =>
      have herrors : trailingErrors (as ++ [.ok l]) = 0 := trailingErrors_snoc as _
      have hheight : heightOf (.ok l) = l.blockHeight.toNat := rfl
      have hcount : 0 < p.consecutiveErrors ↔ trailingErrors as % 2 ^ 32 ≠ 0 := by
        rw [UInt32.lt_iff_toNat_lt, h.errors, UInt32.toNat_ofNat']
        exact Nat.pos_iff_ne_zero
      -- the errors are forgotten before the height is looked at
      have hreset : (if 0 < p.consecutiveErrors then
          { p with consecutiveErrors := 0, backoff := 0 } else p)
          = { p with consecutiveErrors := 0, backoff := backoffAfter (as ++ [.ok l]) } := by
        rw [backoffAfter_ok]
        by_cases hpos : 0 < p.consecutiveErrors
        · rw [if_pos hpos, if_neg (hcount.mp hpos)]
        · have hzero : p.consecutiveErrors = 0 := UInt32.le_zero_iff.mp (UInt32.not_lt.mp hpos)
          rw [if_neg hpos, if_pos (not_not.mp (mt hcount.mpr hpos)), ← h.backoff, ← hzero]
      unfold ChainPoller.poll
      dsimp only
      rw [hreset]
      dsimp only
      by_cases hnew : p.lastNewBlock < l.blockHeight
      · have hgreater : bestHeight as < heightOf (.ok l) := by
          rw [hheight, ← h.best]
          exact UInt64.lt_iff_toNat_lt.mp hnew
        rw [if_pos hnew]
        refine ⟨by rw [herrors]; rfl, rfl, ?_, ?_⟩
        · rw [bestHeight_snoc, max_eq_right hgreater.le]
          rfl
        · rw [sinceBest_snoc, if_pos hgreater]
          rfl
      · have hle : ¬ bestHeight as < heightOf (.ok l) := by
          rw [hheight, ← h.best]
          exact fun hlt => hnew (UInt64.lt_iff_toNat_lt.mpr hlt)
        rw [if_neg hnew]
        refine ⟨by rw [herrors]; rfl, rfl, ?_, ?_⟩
        · rw [bestHeight_snoc, max_eq_left (Nat.not_lt.mp hle)]
          exact h.best
        · rw [sinceBest_snoc, if_neg hle, show answered (.ok l) = true from rfl, if_pos rfl,
            stallAfter_succ, ← h.stall]

/-- **Run.** -/
theorem follows_of_answers (http : HttpCrates) (render : JsonValue → String)
    (answers : List HttpAnswer) :
    Follows (answers.map (getLedgerInfo http render))
      (answers.foldl (onAnswer http render) new) := by
  induction answers using List.reverseRecOn with
  | nil => exact ⟨rfl, rfl, rfl, rfl⟩
  | append_singleton answers answer ih =>
      rw [List.foldl_append, List.map_append]
      exact ih.poll (getLedgerInfo http render answer)

/-- **Waiting.**  Whatever comes over HTTP, the poller knows the greatest height, its wait is that
of the errors in a row and of the answers since the greatest height was first seen, and it is at
most 330.2 seconds. -/
theorem poller_of_answers (http : HttpCrates) (render : JsonValue → String)
    (answers : List HttpAnswer) :
    let p := answers.foldl (onAnswer http render) new
    let as := answers.map (getLedgerInfo http render)
    p.lastNewBlock.toNat = bestHeight as ∧
      p.sleepDur = 200 + 1000 * backoffAfter as + 1000 * stallAfter (sinceBest as) ∧
      p.sleepDur ≤ 330200 := by
  intro p as
  have hfollows : Follows as p := follows_of_answers http render answers
  have hbackoff : backoffAfter as ≤ 30 := by
    unfold backoffAfter
    split_ifs
    · exact min_le_right _ _
    · exact Nat.le_of_ble_eq_true rfl
    · exact Nat.zero_le _
  have hstall : stallAfter (sinceBest as) ≤ 300 := by
    unfold stallAfter
    split_ifs
    · exact Nat.zero_le _
    · exact min_le_right _ _
  have hsleep : p.sleepDur
      = 200 + 1000 * backoffAfter as + 1000 * stallAfter (sinceBest as) := by
    rw [sleepDur, hfollows.backoff, hfollows.stall]
  refine ⟨hfollows.best, hsleep, ?_⟩
  rw [hsleep]
  omega

example : stallAfter 3 = 4 ∧ stallAfter 10 = 300 := by
  decide

end ChainPoller
