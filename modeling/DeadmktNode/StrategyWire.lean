/-
# What the strategy sends

A strategy sends its actions as JSON texts.  The relay of its session reads each text, drops what
is no action, hands token actions to the token worker and the others to the run loop.

* A message is refused exactly if a field that its action needs is missing or of another type; the
  error names the first such field (`StrategyAction.refused_iff`).
* The interface description of the repository has a message for most actions.  A session that
  sends these messages is understood, but for one action: the description has `lock_index` in the
  message of an unlock, the node reads `index`, and so every unlock is lost without a word
  (`StrategyRelay.documented_session`).
-/
import DeadmktNode.ChainConfig
import DeadmktNode.RevealChoice
import DeadmktNode.StrategyMailbox

namespace JsonValue

/-- A number that has 64 bits. -/
def asU64 : JsonValue → Option UInt64
  | number text => fromStrRadix 10 text.toList
  | _ => none

def asArray : JsonValue → Option (List JsonValue)
  | array elements => some elements
  | _ => none

/-- A number in decimal digits. -/
def ofU64 (n : UInt64) : JsonValue := .number (String.ofList (Nat.toDigits 10 n.toNat))

@[simp] theorem asU64_ofU64 (n : UInt64) : (ofU64 n).asU64 = some n := by
  rw [ofU64, asU64, String.toList_ofList]
  exact fromStrRadix_toDigits (by decide) (by decide) n

end JsonValue

/-! ## Reading an action -/

theorem ok_bind {ε α β : Type} (a : α) (k : α → Except ε β) : (.ok a >>= k) = k a := rfl

theorem error_bind {ε α β : Type} (e : ε) (k : α → Except ε β) : (.error e >>= k) = .error e := rfl

/-- A field that is needed; the error says which one is missing. -/
def required {α : Type} (what : String) : Option α → Except String α
  | some a => .ok a
  | none => .error ("missing " ++ what)

@[simp] theorem required_some {α : Type} (what : String) (a : α) :
    required what (some a) = .ok a := rfl

/-- An order; what is not there is empty. -/
def OrderSpec.fromJson (o : JsonValue) : OrderSpec where
  pair := ((o.get "pair").bind JsonValue.asStr).getD ""
  side := ((o.get "side").bind JsonValue.asStr).getD ""
  price := ((o.get "price").bind JsonValue.asStr).getD ""
  quantity := ((o.get "quantity").bind JsonValue.asStr).getD ""

namespace StrategyAction

/-- Read an action; an error is the text of its `ParseError`. -/
def fromJson (json : JsonValue) : Except String StrategyAction := do
  let text (name : String) := (json.get name).bind JsonValue.asStr
  let number (name : String) := (json.get name).bind JsonValue.asU64
  let list (name : String) := (json.get name).bind JsonValue.asArray
  let action ← required "'action' field" (text "action")
  match action with
  | "auth" =>
      let token ← required "'token' field" (text "token")
      return .auth token
  | "commit" =>
      let orders ← required "'orders' array" (list "orders")
      return .commit (orders.map OrderSpec.fromJson)
  | "reveal" =>
      let indices ← required "'reveal_indices'" (list "reveal_indices")
      return .reveal (revealIndicesOfJson (indices.map JsonValue.asU64))
  | "mint" =>
      let m ← required "'m' field" (number "m")
      let k ← required "'k' field" (number "k")
      let t ← required "'t' field" (number "t")
      return .mint m k t
  | "claim_mint" => return .claimMint
  -- two names for one action
  | "burn" | "burn_from_escrow" =>
      let amount ← required "'amount' field" (number "amount")
      return .burnFromEscrow amount
  | "lock" =>
      let symbol ← required "'symbol' field" (text "symbol")
      let amount ← required "'amount' field" (number "amount")
      let duration ← required "'duration_secs' field" (number "duration_secs")
      return .lock symbol amount duration
  | "unlock" =>
      let index ← required "'index' field" (number "index")
      return .unlock index
  | "burn_for_profit" =>
      let amount ← required "'amount' field" (number "amount")
      return .burnForProfit amount
  | "donate_dust" =>
      let nftId ← required "'recipient_nft_id' field" (number "recipient_nft_id")
      let symbol ← required "'symbol' field" (text "symbol")
      let amount ← required "'amount' field" (number "amount")
      return .donateDust nftId symbol amount
  | other => .error ("unknown action: " ++ other)

/-! ## What is refused -/

/-- The type of a field. -/
inductive FieldType where
  | text
  | number
  | list
deriving DecidableEq, Repr

/-- Is the field there, with its type? -/
def FieldType.isIn (type : FieldType) (name : String) (json : JsonValue) : Bool :=
  match type with
  | .text => ((json.get name).bind JsonValue.asStr).isSome
  | .number => ((json.get name).bind JsonValue.asU64).isSome
  | .list => ((json.get name).bind JsonValue.asArray).isSome

/-- A field that an action needs, and how it is named when it is missing. -/
structure NeededField where
  name : String
  type : FieldType
  what : String

/-- The fields that an action needs, in the order in which they are looked at. -/
def neededFields : String → Option (List NeededField)
  | "auth" => some [⟨"token", .text, "'token' field"⟩]
  | "commit" => some [⟨"orders", .list, "'orders' array"⟩]
  | "reveal" => some [⟨"reveal_indices", .list, "'reveal_indices'"⟩]
  | "mint" =>
      some [⟨"m", .number, "'m' field"⟩, ⟨"k", .number, "'k' field"⟩, ⟨"t", .number, "'t' field"⟩]
  | "claim_mint" => some []
  | "burn" | "burn_from_escrow" | "burn_for_profit" =>
      some [⟨"amount", .number, "'amount' field"⟩]
  | "lock" =>
      some [⟨"symbol", .text, "'symbol' field"⟩, ⟨"amount", .number, "'amount' field"⟩,
        ⟨"duration_secs", .number, "'duration_secs' field"⟩]
  | "unlock" => some [⟨"index", .number, "'index' field"⟩]
  | "donate_dust" =>
      some [⟨"recipient_nft_id", .number, "'recipient_nft_id' field"⟩,
        ⟨"symbol", .text, "'symbol' field"⟩, ⟨"amount", .number, "'amount' field"⟩]
  | _ => none

/-- What is said of the first field that is missing. -/
def firstMissing (json : JsonValue) (fields : List NeededField) : Option String :=
  (fields.find? fun f => !f.type.isIn f.name json).map fun f => "missing " ++ f.what

/-- Why a message is refused, if it is. -/
def refusal (json : JsonValue) : Option String :=
  match (json.get "action").bind JsonValue.asStr with
  | none => some "missing 'action' field"
  | some action =>
      match neededFields action with
      | none => some ("unknown action: " ++ action)
      | some fields => firstMissing json fields

section

variable {json : JsonValue} {e : String}

/-- A message without a field that it needs is refused for it, and otherwise for what comes
after. -/
theorem required_eq_error_iff {α : Type} {name what : String} {type : FieldType}
    {fields : List NeededField} {o : Option α} {k : α → Except String StrategyAction}
    (ho : type.isIn name json = o.isSome)
    (hk : ∀ a, k a = .error e ↔ firstMissing json fields = some e) :
    (required what o >>= k) = .error e ↔
      firstMissing json (⟨name, type, what⟩ :: fields) = some e := by
  unfold firstMissing
  cases o with
  | none => simp [ho, required, bind, Except.bind]
  | some a =>
      rw [List.find?_cons_of_neg (by simp [ho])]
      exact hk a

theorem pure_eq_error_iff {a : StrategyAction} :
    (pure a : Except String StrategyAction) = .error e ↔ firstMissing json [] = some e := by
  simp [firstMissing, pure, Except.pure]

/-- **Refusals.**  A message is refused exactly if it names no action, an unknown one, or one that
needs a field which is missing or of another type; the error names the first such field. -/
theorem refused_iff : fromJson json = .error e ↔ refusal json = some e := by
  unfold fromJson refusal
  dsimp only
  cases haction : (json.get "action").bind JsonValue.asStr with
  | none => simp [required, bind, Except.bind]
  | some action =>
      rw [required_some, ok_bind]
      split <;> dsimp only [neededFields]
      · exact required_eq_error_iff rfl fun _ => pure_eq_error_iff
      · exact required_eq_error_iff rfl fun _ => pure_eq_error_iff
      · exact required_eq_error_iff rfl fun _ => pure_eq_error_iff
      · exact required_eq_error_iff rfl fun _ => required_eq_error_iff rfl fun _ =>
          required_eq_error_iff rfl fun _ => pure_eq_error_iff
      · exact pure_eq_error_iff
      · exact required_eq_error_iff rfl fun _ => pure_eq_error_iff
      · exact required_eq_error_iff rfl fun _ => pure_eq_error_iff
      · exact required_eq_error_iff rfl fun _ => required_eq_error_iff rfl fun _ =>
          required_eq_error_iff rfl fun _ => pure_eq_error_iff
      · exact required_eq_error_iff rfl fun _ => pure_eq_error_iff
      · exact required_eq_error_iff rfl fun _ => pure_eq_error_iff
      · exact required_eq_error_iff rfl fun _ => required_eq_error_iff rfl fun _ =>
          required_eq_error_iff rfl fun _ => pure_eq_error_iff
      · have hunknown : neededFields action = none := by
          unfold neededFields
          split <;> simp_all
        change _ ↔ (match neededFields action with
          | none => some ("unknown action: " ++ action)
          | some fields => firstMissing json fields) = some e
        rw [hunknown]
        simp

end

/-! ## The documented messages -/

/-- An action as a JSON object. -/
def message (action : String) (fields : List (String × JsonValue)) : JsonValue :=
  .object (("action", .string action) :: fields)

/-- An order as strategies write it. -/
def orderMessage (o : OrderSpec) : JsonValue :=
  .object [("pair", .string o.pair), ("side", .string o.side), ("price", .string o.price),
    ("quantity", .string o.quantity)]

/-- The message of an action, as the bridge and the interface description write it; two actions
are not described. -/
def documented : StrategyAction → Option JsonValue
  | .auth token => some (message "auth" [("token", .string token)])
  | .commit orders => some (message "commit" [("orders", .array (orders.map orderMessage))])
  | .reveal revealIndices =>
      some (message "reveal" [("reveal_indices",
        .array (revealIndices.map fun i => .ofU64 i.toUInt64))])
  | .mint m k t => some (message "mint" [("m", .ofU64 m), ("k", .ofU64 k), ("t", .ofU64 t)])
  | .claimMint => some (message "claim_mint" [])
  | .burnFromEscrow amount => some (message "burn" [("amount", .ofU64 amount)])
  | .lock symbol amount duration =>
      some (message "lock" [("symbol", .string symbol), ("amount", .ofU64 amount),
        ("duration_secs", .ofU64 duration)])
  | .unlock index => some (message "unlock" [("lock_index", .ofU64 index)])
  | .burnForProfit _ | .donateDust .. => none

def isUnlock : StrategyAction → Bool
  | .unlock _ => true
  | _ => false

@[simp] theorem fromJson_comp_orderMessage : OrderSpec.fromJson ∘ orderMessage = id := by
  funext o
  rfl

/-- Positions of 32 bits are read as they are written. -/
@[simp] theorem revealIndicesOfJson_ofU64 (revealIndices : List UInt32) :
    revealIndicesOfJson (revealIndices.map
      (JsonValue.asU64 ∘ fun i : UInt32 => JsonValue.ofU64 i.toUInt64)) = revealIndices := by
  unfold revealIndicesOfJson
  rw [List.filterMap_map]
  refine (List.filterMap_congr fun i _ => ?_).trans List.filterMap_some
  simp

/-- A documented message is read as its action; only an unlock is refused. -/
theorem fromJson_documented {a : StrategyAction} {json : JsonValue}
    (h : a.documented = some json) :
    fromJson json = if a.isUnlock then .error "missing 'index' field" else .ok a := by
  cases a with
  | burnForProfit amount => cases h
  | donateDust nftId symbol amount => cases h
  | _ =>
      obtain rfl := Option.some.inj h
      simp [fromJson, message, JsonValue.get, List.lookup_cons, JsonValue.asStr, JsonValue.asArray,
        ok_bind, error_bind, isUnlock, required, pure, Except.pure]

end StrategyAction

/-! ## A session -/

/-- The relay of a session: what it has handed to the run loop and to the token worker. -/
structure StrategyRelay where
  actions : List StrategyAction
  tokenActions : List StrategyAction

namespace StrategyRelay

/-- A text of the client: its JSON, if it is any, and whether the channel takes its action. -/
structure Input where
  json : Option JsonValue
  taken : Bool

/-- The action of a text; what is no JSON is read like `null`. -/
def Input.action (i : Input) : Option StrategyAction :=
  (StrategyAction.fromJson (i.json.getD .null)).toOption

def start : StrategyRelay := ⟨[], []⟩

/-- Hand an action over. -/
def deliver (r : StrategyRelay) (action : StrategyAction) : StrategyRelay :=
  if action.isTokenAction then { r with tokenActions := r.tokenActions ++ [action] }
  else { r with actions := r.actions ++ [action] }

/-- One text; `none` is the end of the session. -/
def step (r : StrategyRelay) (i : Input) : Option StrategyRelay :=
  match i.action with
  | none => some r
  | some action => if i.taken then some (r.deliver action) else none

def system : System StrategyRelay Input := ⟨step⟩

/-- **Run.**  The actions of a session arrive in their order, each in the channel of its kind. -/
theorem run_relay {r r' : StrategyRelay} {is : List Input} (h : system.run r is = some r') :
    r'.actions = r.actions ++ (is.filterMap Input.action).filter (fun a => !a.isTokenAction) ∧
      r'.tokenActions
        = r.tokenActions ++ (is.filterMap Input.action).filter StrategyAction.isTokenAction := by
  induction is generalizing r with
  | nil =>
      obtain rfl := Option.some.inj h
      simp
  | cons i is ih =>
      obtain ⟨r₁, hstep, hrest⟩ := Option.bind_eq_some_iff.mp h
      obtain ⟨hactions, htokens⟩ := ih hrest
      change step r i = some r₁ at hstep
      unfold step at hstep
      cases haction : i.action with
      | none =>
          rw [haction] at hstep
          obtain rfl := Option.some.inj hstep
          rw [List.filterMap_cons_none haction]
          exact ⟨hactions, htokens⟩
      | some action =>
          rw [haction] at hstep
          dsimp only at hstep
          split_ifs at hstep
          obtain rfl := Option.some.inj hstep
          rw [List.filterMap_cons_some haction, hactions, htokens]
          unfold deliver
          cases htoken : action.isTokenAction <;> simp [htoken]

theorem isTokenAction_of_isUnlock {a : StrategyAction} (h : a.isUnlock = true) :
    a.isTokenAction = true := by
  cases a <;> first | rfl | cases h

/-- What a session of documented messages is read as. -/
theorem filterMap_documented {as : List StrategyAction} {is : List Input}
    (hdocumented : ∀ a ∈ as, a.documented.isSome = true)
    (hsent : is.map Input.json = as.map StrategyAction.documented) :
    is.filterMap Input.action = as.filter fun a => !a.isUnlock := by
  induction as generalizing is with
  | nil =>
      obtain rfl := List.map_eq_nil_iff.mp hsent
      rfl
  | cons a as ih =>
      cases is with
      | nil => cases hsent
      | cons i is =>
          obtain ⟨hi, hsent⟩ := List.cons.inj hsent
          obtain ⟨json, hjson⟩ := Option.isSome_iff_exists.mp (hdocumented a List.mem_cons_self)
          have hrest := ih (fun b hb => hdocumented b (List.mem_cons_of_mem _ hb)) hsent
          have haction : i.action = if a.isUnlock then none else some a := by
            rw [Input.action, hi, hjson, Option.getD_some, StrategyAction.fromJson_documented hjson]
            split_ifs <;> rfl
          cases hunlock : a.isUnlock with
          | true =>
              rw [hunlock, if_pos rfl] at haction
              rw [List.filterMap_cons_none haction, hrest,
                List.filter_cons_of_neg (by simp [hunlock])]
          | false =>
              rw [hunlock, if_neg Bool.false_ne_true] at haction
              rw [List.filterMap_cons_some haction, hrest,
                List.filter_cons_of_pos (by simp [hunlock])]

/-- **Documented sessions.**  The client sends its actions in the documented messages, and the
session lasts.  Then the run loop gets the actions of the batch cycle and the token worker the
token actions, each in their order, except for the unlocks: nothing is lost if and only if no
unlock is sent. -/
theorem documented_session {as : List StrategyAction} {is : List Input} {r : StrategyRelay}
    (hdocumented : ∀ a ∈ as, a.documented.isSome = true)
    (hsent : is.map Input.json = as.map StrategyAction.documented)
    (hrun : system.run start is = some r) :
    r.actions = as.filter (fun a => !a.isTokenAction) ∧
      r.tokenActions = as.filter (fun a => a.isTokenAction && !a.isUnlock) ∧
      (r.actions.length + r.tokenActions.length = as.length ↔ ∀ a ∈ as, a.isUnlock = false) := by
  obtain ⟨hactions, htokens⟩ := run_relay hrun
  rw [filterMap_documented hdocumented hsent] at hactions htokens
  change r.actions = [] ++ _ at hactions
  change r.tokenActions = [] ++ _ at htokens
  rw [List.nil_append] at hactions htokens
  refine ⟨?_, ?_, ?_⟩
  · rw [hactions, List.filter_filter]
    refine List.filter_congr fun a _ => ?_
    cases hunlock : a.isUnlock with
    | true => simp [isTokenAction_of_isUnlock hunlock]
    | false => simp
  · rw [htokens, List.filter_filter]
  · have htotal := List.length_eq_length_filter_add StrategyAction.isTokenAction
      (l := as.filter fun a => !a.isUnlock)
    rw [hactions, htokens, Nat.add_comm, ← htotal, List.length_filter_eq_length_iff]
    simp

/-! ## A lost unlock -/

/-- A lock, an unlock and an order. -/
def lockAndUnlock : List StrategyAction :=
  [.lock "EMM" 5 3600, .unlock 0, .commit [⟨"EMM/KAY", "sell", "0.0000001", "5"⟩]]

/-- Of the three actions two arrive. -/
theorem unlock_is_lost :
    ∃ r, system.run start (lockAndUnlock.map fun a => ⟨a.documented, true⟩) = some r ∧
      r.actions = [.commit [⟨"EMM/KAY", "sell", "0.0000001", "5"⟩]] ∧
      r.tokenActions = [.lock "EMM" 5 3600] ∧
      ¬ r.actions.length + r.tokenActions.length = lockAndUnlock.length := by
  have hruns : (system.run start (lockAndUnlock.map fun a => ⟨a.documented, true⟩)).isSome := by
    decide +kernel
  obtain ⟨r, hrun⟩ := Option.isSome_iff_exists.mp hruns
  have hsent : (lockAndUnlock.map fun a => (⟨a.documented, true⟩ : Input)).map Input.json
      = lockAndUnlock.map StrategyAction.documented := by
    rw [List.map_map]
    rfl
  have hdocumented : ∀ a ∈ lockAndUnlock, a.documented.isSome = true := by decide
  obtain ⟨hactions, htokens, hiff⟩ := documented_session hdocumented hsent hrun
  refine ⟨r, hrun, hactions, htokens, fun hall => ?_⟩
  exact absurd (hiff.mp hall (.unlock 0) (by decide)) (by decide)

end StrategyRelay
