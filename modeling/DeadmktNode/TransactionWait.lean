/-
# Waiting for a transaction

A transaction that an endpoint has accepted may still fail on chain.  The client asks for it again
and again: as long as it is unknown or pending, or the answer is no JSON with a status, it goes on;
any other status, a request that fails and the end of the time end the wait.  A status other than
"Success" is read as an abort of the settlement contract.
-/
import DeadmktNode.AbortStatus
import DeadmktNode.RpcClient

/-- What became of a transaction. -/
structure TxResult where
  success : Bool
  vmStatus : String
deriving DecidableEq, Repr

/-- One poll of a wait: the time since its start, in milliseconds, and the answer. -/
structure TxPoll where
  elapsed : ℕ
  answer : HttpAnswer

namespace SupraClient

/-- The result in a transaction with the given status. -/
def txResultOf (json : JsonValue) (status : String) : TxResult where
  success := status == "Success"
  vmStatus := ((((json.get "output").bind (JsonValue.get "Move")).bind
    (JsonValue.get "vm_status")).bind JsonValue.asStr).getD status

/-- How an answer ends the wait; `none` if it goes on. -/
def txAnswer (http : HttpCrates) : HttpAnswer → Option (Except ChainError TxResult)
  | .failed error => some (.error (.networkError error))
  | .response resp =>
      if resp.status = 404 then none
      else
        match resp.text with
        | .error e => some (.error (.deserializationError e))
        | .ok text =>
            match http.parse text with
            | .error _ => none
            | .ok json =>
                match (json.get "status").bind JsonValue.asStr with
                | none => none
                | some status =>
                    if status = "Pending" then none else some (.ok (txResultOf json status))

/-- One turn of the loop: the time is looked at first. -/
def pollTx (http : HttpCrates) (timeout : ℕ) (poll : TxPoll) :
    Option (Except ChainError TxResult) :=
  if timeout < poll.elapsed then some (.error .timeout) else txAnswer http poll.answer

/-- Wait for a transaction; `none` if the polls do not tell yet. -/
def waitForTx (http : HttpCrates) (timeout : ℕ) (polls : List TxPoll) :
    Option (Except ChainError TxResult) :=
  polls.findSome? (pollTx http timeout)

end SupraClient

/-- The abort code of a transaction that was included but failed. -/
def TxResult.abortCode (r : TxResult) : AbortCode :=
  (AbortCode.fromVmStatus r.vmStatus).getD (.other 0)

namespace SupraClient

/-- Polls that show, within the time, that the transaction failed with the code: those before are
undecided, and this one has a status that is neither pending nor a success. -/
def ShowFailure (http : HttpCrates) (timeout : ℕ) (polls : List TxPoll) (code : AbortCode) : Prop :=
  ∃ before poll after r, polls = before ++ poll :: after ∧
    (∀ p ∈ before, p.elapsed ≤ timeout ∧ txAnswer http p.answer = none) ∧
    poll.elapsed ≤ timeout ∧ txAnswer http poll.answer = some (.ok r) ∧ r.success = false ∧
    r.abortCode = code

/-- A wait that ends with a failure has seen one. -/
theorem showFailure_of_waitForTx {http : HttpCrates} {timeout : ℕ} {polls : List TxPoll}
    {r : TxResult} (h : waitForTx http timeout polls = some (.ok r)) (hfailed : r.success = false) :
    ShowFailure http timeout polls r.abortCode := by
  obtain ⟨before, poll, after, hsplit, hpoll, hbefore⟩ := List.findSome?_eq_some_iff.mp h
  have hundecided : ∀ p, pollTx http timeout p = none →
      p.elapsed ≤ timeout ∧ txAnswer http p.answer = none := by
    intro p hp
    unfold pollTx at hp
    split_ifs at hp with htime
    exact ⟨by omega, hp⟩
  unfold pollTx at hpoll
  split_ifs at hpoll with htime
  · cases hpoll
  · exact ⟨before, poll, after, r, hsplit, fun p hp => hundecided p (hbefore p hp), by omega,
      hpoll, hfailed, rfl⟩

end SupraClient
