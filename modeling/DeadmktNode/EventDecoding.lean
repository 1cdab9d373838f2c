/-
# Decoding of chain events

The events of the contract arrive as JSON, with a type `ADDR::module::KIND`.  The decoder looks
for the name of an event anywhere in the type, one name after another.  An event that is routed
is decoded as itself exactly if its kind is among the names and no name that is tried before it
stands in the address or in the name of the module; a type is unknown exactly if no name stands
in it (`fromJson_exact_iff`).  Three kinds that are routed are not among the names.
-/
import DeadmktNode.Delimited
import DeadmktNode.IntegerText
import DeadmktNode.Orchestrator

/-! ## JSON values -/

/-- A JSON value. -/
inductive JsonValue where
  | null
  | bool (b : Bool)
  | number (text : String)
  | string (s : String)
  | array (elements : List JsonValue)
  | object (fields : List (String × JsonValue))

namespace JsonValue

/-- The value of a field; only objects have fields. -/
def get (name : String) : JsonValue → Option JsonValue
  | object fields => fields.lookup name
  | _ => none

def asStr : JsonValue → Option String
  | string s => some s
  | _ => none

def asBool : JsonValue → Option Bool
  | bool b => some b
  | _ => none

/-- A number that is written as a string; 0 if there is none. -/
def u64Field (data : JsonValue) (name : String) : UInt64 :=
  (fromStrRadix 10 (((data.get name).bind asStr).getD "0").toList).getD 0

/-- A string; empty if there is none. -/
def strField (data : JsonValue) (name : String) : String :=
  ((data.get name).bind asStr).getD ""

def boolField (data : JsonValue) (name : String) : Bool :=
  ((data.get name).bind asBool).getD false

end JsonValue

/-! ## Bytes in hexadecimal -/

/-- Drop every `0x` at the start. -/
def trimStartHex : List Char → List Char
  | '0' :: 'x' :: rest => trimStartHex rest
  | s => s

/-- Bytes that are written as a string of hexadecimal digits; none if the text is ill-formed. -/
def JsonValue.hexField [HexCrate] (data : JsonValue) (name : String) : Bytes :=
  (HexCrate.decode (String.ofList
    (trimStartHex (((data.get name).bind asStr).getD "0x").toList))).toOption.getD []

/-- The digits of a byte string do not start with another `0x`. -/
theorem trimStartHex_hexEncode (bs : Bytes) :
    trimStartHex ("0x" ++ hexEncode bs).toList = (hexEncode bs).toList := by
  have hx : ∀ rest, (hexEncode bs).toList ≠ '0' :: 'x' :: rest := by
    intro rest heq
    have hdecode := hexDecode_hexEncode bs
    rw [heq, hexDecode, if_neg (by decide)] at hdecode
    cases hdecode
  rw [String.toList_append]
  show trimStartHex (hexEncode bs).toList = _
  rw [trimStartHex.eq_def]
  split
  · rename_i rest heq
    exact absurd heq (hx rest)
  · rfl

/-! ## Decoded events -/

/-- The events of the contract as they are decoded.  The routed ones are those of the
orchestrator. -/
inductive DecodedEvent where
  | routed (event : ChainEvent)
  | withdrawalCancelled (nftId : UInt64) (token : String) (amount : UInt64)
  | holdingPeriodStarted (nftId expiresAtBatch : UInt64)
  | holdingPeriodCancelled (nftId : UInt64)
  | nftBlocked (nftId enforcementAtBatch : UInt64)
  | traderRegistered (nftId : UInt64)
  | traderDeregistered (nftId : UInt64)
  | nftPairMinted (nftId : UInt64) (sponsor : String) (mintFeePaid : UInt64)
      (cohortStarted : Bool)
  | burnExecuted (nftId : UInt64) (executor sponsor recipient : String)
      (refundSupra treasuryBefore treasuryAfter activeNftsBeforeBurn supraToRecipient : UInt64)
      (isFallback isLastNft : Bool) (nominalRefund : UInt64)
  | donationReceived (donor : String) (amount treasuryAfter : UInt64)
  | donationRejected (donor : String) (amountAttempted treasuryBalance : UInt64)
  | dvrfFunded (amount treasuryAfter dvrfBalanceAfter : UInt64)
  | automationOwnerTopped (amount : UInt64) (owner : String)
      (treasuryAfter ownerBalanceAfter : UInt64)
  | treasuryLowBalance (currentBalance threshold daysOfRunway : UInt64)
  | treasuryRecovered (currentBalance threshold : UInt64)
  | opsTreasuryConfigUpdated
  | adminKeyBurned (previousAdmin : String)
  | unknown (typeStr : String)
deriving DecidableEq

inductive TypesError where
  | deserializationError (message : String)
  | missingField (index : ℕ)
  | invalidNumber (message : String)
deriving DecidableEq

/-- One test of the decoder: names that are looked for in the type, and how the data is then
read. -/
structure EventDecoder where
  names : List String
  decode : [HexCrate] → JsonValue → DecodedEvent

open JsonValue in
/-- The tests in the order in which they are made. -/
def decoders : List EventDecoder :=
  [⟨["BatchTradeSettled"], fun data => .routed (.batchTradeSettled {
      batchId := data.u64Field "batch_id"
      poolId := data.u64Field "pool_id"
      tradeId := data.strField "trade_id"
      buyerNftId := data.u64Field "buyer_nft_id"
      sellerNftId := data.u64Field "seller_nft_id"
      symbol := data.hexField "symbol"
      buyerPrice := data.u64Field "buyer_price"
      sellerPrice := data.u64Field "seller_price"
      clearingPrice := data.u64Field "clearing_price"
      baseAmount := data.u64Field "base_amount"
      quoteAmount := data.u64Field "quote_amount"
      buyerOrderHash := data.strField "buyer_order_hash"
      sellerOrderHash := data.strField "seller_order_hash"
      gasPayer := data.strField "gas_payer"
      timestamp := data.u64Field "timestamp" })⟩,
    ⟨["WithdrawalRequested"], fun data => .routed (.withdrawalRequested
      (data.u64Field "nft_id") (data.strField "token_metadata") (data.u64Field "amount"))⟩,
    ⟨["WithdrawalCancelled"], fun data => .withdrawalCancelled
      (data.u64Field "nft_id") (data.strField "token_metadata") (data.u64Field "amount")⟩,
    ⟨["HoldingPeriodStarted"], fun data => .holdingPeriodStarted
      (data.u64Field "nft_id") (data.u64Field "expires_at_batch")⟩,
    ⟨["HoldingPeriodCancelled"], fun data => .holdingPeriodCancelled (data.u64Field "nft_id")⟩,
    ⟨["NFTBlocked", "NftBlocked"], fun data => .nftBlocked
      (if (data.get "accused_nft_id").isSome then data.u64Field "accused_nft_id"
        else data.u64Field "nft_id")
      (data.u64Field "enforcement_at_batch")⟩,
    ⟨["TraderRegistered"], fun data => .traderRegistered (data.u64Field "nft_id")⟩,
    ⟨["TraderDeregistered"], fun data => .traderDeregistered (data.u64Field "nft_id")⟩,
    ⟨["ParameterChangeQueued"], fun data => .routed (.parameterChangeQueued
      (data.u64Field "effective_at_batch") (data.strField "param_name")
      (data.u64Field "old_value") (data.u64Field "new_value"))⟩,
    ⟨["ParameterChangeApplied"], fun data => .routed (.parameterChangeApplied
      (data.u64Field "batch_id") (data.strField "param_name") (data.u64Field "new_value"))⟩,
    ⟨["PoolAdjustmentQueued"], fun data => .routed (.poolAdjustmentQueued
      (data.u64Field "effective_at_batch") (data.u64Field "new_num_pools"))⟩,
    ⟨["PoolAdjustmentCancelled"], fun _ => .routed .poolAdjustmentCancelled⟩,
    ⟨["PoolAdjusted"], fun data => .routed (.poolAdjusted
      (data.u64Field "batch_id") (data.u64Field "new_num_pools"))⟩,
    ⟨["PoolAdjustmentCancelled"], fun _ => .routed .poolAdjustmentCancelled⟩,
    ⟨["TrusteeNftMinted"], fun data => .nftPairMinted
      (data.u64Field "nft_id") (data.strField "sponsor") (data.u64Field "mint_fee_paid")
      (data.boolField "cohort_started")⟩,
    ⟨["BurnExecuted"], fun data => .burnExecuted
      (data.u64Field "nft_id") (data.strField "executor") (data.strField "sponsor")
      (data.strField "recipient") (data.u64Field "refund_supra")
      (data.u64Field "treasury_before") (data.u64Field "treasury_after")
      (data.u64Field "active_nfts_before_burn") (data.u64Field "supra_to_recipient")
      (data.boolField "is_fallback") (data.boolField "is_last_nft")
      (data.u64Field "nominal_refund")⟩,
    ⟨["DonationReceived"], fun data => .donationReceived
      (data.strField "donor") (data.u64Field "amount") (data.u64Field "treasury_after")⟩,
    ⟨["DonationRejected"], fun data => .donationRejected
      (data.strField "donor") (data.u64Field "amount_attempted")
      (data.u64Field "treasury_balance")⟩,
    ⟨["DvrfFunded"], fun data => .dvrfFunded
      (data.u64Field "amount") (data.u64Field "treasury_after")
      (data.u64Field "dvrf_balance_after")⟩,
    ⟨["AutomationOwnerTopped"], fun data => .automationOwnerTopped
      (data.u64Field "amount") (data.strField "owner") (data.u64Field "treasury_after")
      (data.u64Field "owner_balance_after")⟩,
    ⟨["TreasuryLowBalance"], fun data => .treasuryLowBalance
      (data.u64Field "current_balance") (data.u64Field "threshold")
      (data.u64Field "days_of_runway")⟩,
    ⟨["TreasuryRecovered"], fun data => .treasuryRecovered
      (data.u64Field "current_balance") (data.u64Field "threshold")⟩,
    ⟨["OpsTreasuryConfigUpdated"], fun _ => .opsTreasuryConfigUpdated⟩,
    ⟨["AdminKeyBurned"], fun data => .adminKeyBurned (data.strField "previous_admin")⟩]

/-- Does the text contain the name? -/
def Mentions (name text : String) : Prop := name.toList <:+: text.toList

instance (name text : String) : Decidable (Mentions name text) :=
  inferInstanceAs (Decidable (_ <:+: _))

/-- The event of a type and its data: that of the first test that succeeds. -/
def decodeEvent [HexCrate] (typeStr : String) (data : JsonValue) : DecodedEvent :=
  match decoders.find? fun d => d.names.any fun name => Mentions name typeStr with
  | some d => d.decode data
  | none => .unknown typeStr

/-- Decode an event.  It must have a type and data. -/
def DecodedEvent.fromJson [HexCrate] (json : JsonValue) : Except TypesError DecodedEvent :=
  match (json.get "type").bind JsonValue.asStr with
  | none => .error (.deserializationError "missing event type")
  | some typeStr =>
      match json.get "data" with
      | none => .error (.deserializationError "missing event data")
      | some data => .ok (decodeEvent typeStr data)

/-! ## Events as the contract writes them -/

namespace ChainEvent

/-- The name of a routed event in the contract; the other events have no name here. -/
def kind : ChainEvent → String
  | batchTradeSettled _ => "BatchTradeSettled"
  | marketPairAdded _ => "MarketPairAdded"
  | pauseQueued _ => "PauseQueued"
  | unpaused => "Unpaused"
  | withdrawalRequested .. => "WithdrawalRequested"
  | parameterChangeQueued .. => "ParameterChangeQueued"
  | parameterChangeApplied .. => "ParameterChangeApplied"
  | poolAdjustmentQueued .. => "PoolAdjustmentQueued"
  | poolAdjusted .. => "PoolAdjusted"
  | poolAdjustmentCancelled => "PoolAdjustmentCancelled"
  | other => ""

/-- A number as a decimal string. -/
def decimal (n : UInt64) : JsonValue := .string (toString n.toNat)

/-- A byte string as hexadecimal text after `0x`. -/
def hex (bs : Bytes) : JsonValue := .string ("0x" ++ hexEncode bs)

/-- The fields of a routed event under their names. -/
def fields : ChainEvent → List (String × JsonValue)
  | batchTradeSettled e =>
      [("batch_id", decimal e.batchId), ("pool_id", decimal e.poolId),
        ("trade_id", .string e.tradeId), ("buyer_nft_id", decimal e.buyerNftId),
        ("seller_nft_id", decimal e.sellerNftId), ("symbol", hex e.symbol),
        ("buyer_price", decimal e.buyerPrice), ("seller_price", decimal e.sellerPrice),
        ("clearing_price", decimal e.clearingPrice), ("base_amount", decimal e.baseAmount),
        ("quote_amount", decimal e.quoteAmount), ("buyer_order_hash", .string e.buyerOrderHash),
        ("seller_order_hash", .string e.sellerOrderHash), ("gas_payer", .string e.gasPayer),
        ("timestamp", decimal e.timestamp)]
  | marketPairAdded symbol => [("symbol", hex symbol)]
  | pauseQueued afterBatch => [("after_batch", decimal afterBatch)]
  | unpaused => []
  | withdrawalRequested nftId token amount =>
      [("nft_id", decimal nftId), ("token_metadata", .string token), ("amount", decimal amount)]
  | parameterChangeQueued effectiveAtBatch paramName oldValue newValue =>
      [("effective_at_batch", decimal effectiveAtBatch), ("param_name", .string paramName),
        ("old_value", decimal oldValue), ("new_value", decimal newValue)]
  | parameterChangeApplied batchId paramName newValue =>
      [("batch_id", decimal batchId), ("param_name", .string paramName),
        ("new_value", decimal newValue)]
  | poolAdjustmentQueued effectiveAtBatch newNumPools =>
      [("effective_at_batch", decimal effectiveAtBatch), ("new_num_pools", decimal newNumPools)]
  | poolAdjusted batchId newNumPools =>
      [("batch_id", decimal batchId), ("new_num_pools", decimal newNumPools)]
  | poolAdjustmentCancelled => []
  | other => []

end ChainEvent

/-- An event with its type and data. -/
def eventJson (typeStr : String) (data : JsonValue) : JsonValue :=
  .object [("type", .string typeStr), ("data", data)]

/-- The type of an event of a module. -/
def eventType (addr module kind : String) : String := addr ++ "::" ++ module ++ "::" ++ kind

/-! ## Reading the fields back -/

section

variable {data : JsonValue} {name : String}

theorem JsonValue.u64Field_of_get {n : UInt64} (h : data.get name = some (ChainEvent.decimal n)) :
    data.u64Field name = n := by
  have hread := fromStrRadix_toDigits (by decide : 1 < 10) (by decide) n
  rw [JsonValue.u64Field, h]
  show (fromStrRadix 10 (toString n.toNat).toList).getD 0 = n
  rw [Nat.toString_eq_ofList_toDigits, String.toList_ofList, hread]
  rfl

theorem JsonValue.strField_of_get {s : String} (h : data.get name = some (.string s)) :
    data.strField name = s := by
  rw [JsonValue.strField, h]
  rfl

theorem JsonValue.hexField_of_get [HexCrate] {bs : Bytes}
    (h : data.get name = some (ChainEvent.hex bs)) : data.hexField name = bs := by
  rw [JsonValue.hexField, h]
  show (HexCrate.decode (String.ofList
    (trimStartHex ("0x" ++ hexEncode bs).toList))).toOption.getD [] = bs
  rw [trimStartHex_hexEncode, String.ofList_toList, ← HexCrate.encode_eq,
    HexCrate.decode_encode]
  rfl

end

/-! ## The first test that succeeds -/

/-- All names that are looked for. -/
def testedNames : List String := decoders.flatMap EventDecoder.names

/-- The test for an event of the kind. -/
def decoderOf (kind : String) : Option EventDecoder := decoders.find? fun d => kind ∈ d.names

/-- The names that are looked for before the kind; all of them if the kind is not among them. -/
def testedBefore (kind : String) : List String :=
  (decoders.takeWhile fun d => kind ∉ d.names).flatMap EventDecoder.names

theorem decoderOf_isSome_iff {kind : String} : (decoderOf kind).isSome ↔ kind ∈ testedNames := by
  simp [decoderOf, testedNames, List.find?_isSome]

open JsonValue in
/-- **Round trip.**  The test for the kind of an event reads the event from its fields. -/
theorem decoderOf_decode [HexCrate] {event : ChainEvent} {d : EventDecoder}
    (h : decoderOf event.kind = some d) : d.decode (.object event.fields) = .routed event := by
  have hread : ∀ {d' : EventDecoder}, decoderOf event.kind = some d' →
      d'.decode (.object event.fields) = .routed event →
      d.decode (.object event.fields) = .routed event := by
    intro d' hd' hdecode
    rwa [← Option.some.inj (h.symm.trans hd')] at hdecode
  cases event with
  | batchTradeSettled e =>
      refine hread rfl (congrArg (DecodedEvent.routed ∘ ChainEvent.batchTradeSettled) ?_)
      cases e
      congr 1 <;> first
        | exact u64Field_of_get rfl
        | exact hexField_of_get rfl
  | withdrawalRequested | parameterChangeQueued | parameterChangeApplied
  | poolAdjustmentQueued | poolAdjusted =>
      refine hread rfl (congrArg DecodedEvent.routed ?_)
      congr 1 <;> exact u64Field_of_get rfl
  | poolAdjustmentCancelled => exact hread rfl rfl
  | marketPairAdded | pauseQueued | unpaused | other => cases h

/-- A test gives a routed event only of a kind that it looks for. -/
theorem kind_mem_names [HexCrate] {d : EventDecoder} (hd : d ∈ decoders) {data : JsonValue}
    {event : ChainEvent} (h : d.decode data = .routed event) : event.kind ∈ d.names := by
  revert d data event
  simp [decoders, ChainEvent.kind]

/-- A test never gives an unknown event. -/
theorem decode_ne_unknown [HexCrate] {d : EventDecoder} (hd : d ∈ decoders)
    (data : JsonValue) (typeStr : String) : d.decode data ≠ .unknown typeStr := by
  revert d data typeStr
  simp [decoders]

section

variable {kind typeStr : String} {data : JsonValue} {event : ChainEvent}

/-- The names before a kind are those of the tests before its own. -/
theorem testedBefore_eq {before after : List EventDecoder} {d : EventDecoder}
    (hsplit : decoders = before ++ d :: after) (hkind : kind ∈ d.names)
    (hbefore : ∀ d' ∈ before, kind ∉ d'.names) :
    testedBefore kind = before.flatMap EventDecoder.names := by
  rw [testedBefore, hsplit, List.takeWhile_append_of_pos (by simpa using hbefore),
    List.takeWhile_cons_of_neg (by simpa using hkind), List.append_nil]

/-- What the first test that succeeds decodes. -/
theorem decodeEvent_cases [HexCrate] :
    (∃ before d after, decoders = before ++ d :: after ∧ (∃ name ∈ d.names, Mentions name typeStr) ∧
        (∀ name ∈ before.flatMap EventDecoder.names, ¬ Mentions name typeStr) ∧
        decodeEvent typeStr data = d.decode data) ∨
      (∀ name ∈ testedNames, ¬ Mentions name typeStr) ∧
        decodeEvent typeStr data = .unknown typeStr := by
  unfold decodeEvent
  split
  · rename_i d hd
    obtain ⟨hmentions, before, after, hsplit, hbefore⟩ := List.find?_eq_some_iff_append.mp hd
    exact .inl ⟨before, d, after, hsplit, by simpa using hmentions,
      List.forall_mem_flatMap.mpr (by simpa using hbefore), rfl⟩
  · rename_i hnone
    exact .inr ⟨List.forall_mem_flatMap.mpr (by simpa using List.find?_eq_none.mp hnone), rfl⟩

/-- **Whose data.**  In a type that has its name, an event is decoded as itself if and only if
its name is looked for, and none that is looked for before stands in the type. -/
theorem decodeEvent_routed_iff [HexCrate] (hkind : Mentions event.kind typeStr) :
    decodeEvent typeStr (.object event.fields) = .routed event ↔
      event.kind ∈ testedNames ∧ ∀ name ∈ testedBefore event.kind, ¬ Mentions name typeStr := by
  constructor
  · intro h
    rcases decodeEvent_cases with ⟨before, d, after, hsplit, -, hbefore, hdecode⟩ | ⟨-, hdecode⟩
    · have hd : d ∈ decoders := by simp [hsplit]
      have hnames := kind_mem_names hd (hdecode.symm.trans h)
      -- the kind itself stands in the type, so no earlier test looks for it
      have hfirst : ∀ d' ∈ before, event.kind ∉ d'.names := fun d' hd' hmem =>
        hbefore _ (List.mem_flatMap.mpr ⟨d', hd', hmem⟩) hkind
      rw [testedBefore_eq hsplit hnames hfirst]
      exact ⟨List.mem_flatMap.mpr ⟨d, hd, hnames⟩, hbefore⟩
    · rw [h] at hdecode
      cases hdecode
  · rintro ⟨htested, hclear⟩
    obtain ⟨d, hd⟩ := Option.isSome_iff_exists.mp (decoderOf_isSome_iff.mpr htested)
    rw [← decoderOf_decode hd, decodeEvent]
    have hfind := List.find?_eq_some_iff_append.mp hd
    obtain ⟨hnames, before, after, hsplit, hbefore⟩ := hfind
    rw [testedBefore_eq hsplit (by simpa using hnames) (by simpa using hbefore)] at hclear
    have hfirst : decoders.find? (fun d => d.names.any fun name => Mentions name typeStr)
        = some d := by
      refine List.find?_eq_some_iff_append.mpr ⟨?_, before, after, hsplit, ?_⟩
      · exact List.any_eq_true.mpr ⟨_, by simpa using hnames, decide_eq_true hkind⟩
      · simpa using List.forall_mem_flatMap.mp hclear
    rw [hfirst]

/-- A type is unknown if and only if it has no name that is looked for. -/
theorem decodeEvent_unknown_iff [HexCrate] :
    decodeEvent typeStr data = .unknown typeStr ↔
      ∀ name ∈ testedNames, ¬ Mentions name typeStr := by
  rcases decodeEvent_cases with ⟨before, d, after, hsplit, ⟨name, hname, hmentions⟩, -, hdecode⟩
    | ⟨hclear, hdecode⟩
  · have hd : d ∈ decoders := by simp [hsplit]
    rw [hdecode]
    refine iff_of_false (decode_ne_unknown hd data typeStr) fun hclear => ?_
    exact hclear name (List.mem_flatMap.mpr ⟨d, hd, hname⟩) hmentions
  · exact iff_of_true hdecode hclear

end

/-! ## Types -/

/-- The kinds of the events that are routed. -/
def routedKinds : List String :=
  ["BatchTradeSettled", "PauseQueued", "Unpaused", "WithdrawalRequested", "ParameterChangeQueued",
    "ParameterChangeApplied", "PoolAdjustmentQueued", "PoolAdjusted", "PoolAdjustmentCancelled",
    "MarketPairAdded"]

/-- The part of a type after the last colon. -/
def lastSegment (typeStr : String) : String :=
  String.ofList (typeStr.toList.rtakeWhile (· ≠ ':'))

/-- No name that is looked for before a kind is part of it. -/
theorem not_mentions_kind (event : ChainEvent) :
    ∀ name ∈ testedBefore event.kind, ¬ Mentions name event.kind := by
  have hkinds : ∀ kind ∈ "" :: routedKinds, ∀ name ∈ testedBefore kind, ¬ Mentions name kind := by
    decide +kernel
  apply hkinds
  cases event <;> simp [ChainEvent.kind, routedKinds]

/-- A name stands in the address, in the module or in the kind. -/
theorem mentions_eventType_iff {name : String} (hcolon : ':' ∉ name.toList)
    (addr module kind : String) :
    Mentions name (eventType addr module kind) ↔
      Mentions name addr ∨ Mentions name module ∨ Mentions name kind := by
  have htype : (eventType addr module kind).toList
      = addr.toList
        ++ ':' :: ([] ++ ':' :: (module.toList ++ ':' :: ([] ++ ':' :: kind.toList))) := by
    unfold eventType
    rw [String.toList_append, String.toList_append, String.toList_append, String.toList_append,
      List.append_assoc, List.append_assoc, List.append_assoc]
    rfl
  have hnil : name.toList <:+: [] → name.toList <:+: addr.toList := by
    intro h
    rw [List.infix_nil.mp h]
    exact List.nil_infix
  unfold Mentions
  rw [htype, infix_append_cons_iff hcolon, infix_append_cons_iff hcolon,
    infix_append_cons_iff hcolon, infix_append_cons_iff hcolon]
  tauto

theorem colon_notMem_of_tested {name : String} (h : name ∈ testedNames) : ':' ∉ name.toList := by
  have hall : ∀ name ∈ testedNames, ':' ∉ name.toList := by decide +kernel
  exact hall name h

theorem testedBefore_subset (kind : String) : testedBefore kind ⊆ testedNames := by
  intro name hname
  obtain ⟨d, hd, hmem⟩ := List.mem_flatMap.mp hname
  exact List.mem_flatMap.mpr ⟨d, (List.takeWhile_subset _) hd, hmem⟩

/-- **Events.**  A routed event is decoded as itself if and only if its kind is looked for and
no name that is looked for before stands in the address or in the module.  A type whose last
segment is no event is unknown if and only if no name stands in it. -/
theorem fromJson_exact_iff [HexCrate] (addr module : String) (event : ChainEvent)
    (typeStr : String) (data : JsonValue) :
    (DecodedEvent.fromJson (eventJson (eventType addr module event.kind) (.object event.fields))
          = .ok (.routed event) ↔
        event.kind ∈ testedNames ∧ ∀ name ∈ testedBefore event.kind,
          ¬ Mentions name addr ∧ ¬ Mentions name module) ∧
      ((lastSegment typeStr ∉ testedNames ++ routedKinds →
            DecodedEvent.fromJson (eventJson typeStr data) = .ok (.unknown typeStr)) ↔
          (lastSegment typeStr ∉ testedNames ++ routedKinds →
            ∀ name ∈ testedNames, ¬ Mentions name typeStr)) := by
  have hjson : ∀ typeStr data, DecodedEvent.fromJson (eventJson typeStr data)
      = .ok (decodeEvent typeStr data) := fun _ _ => rfl
  constructor
  · have hkind : Mentions event.kind (eventType addr module event.kind) := by
      unfold Mentions eventType
      rw [String.toList_append]
      exact List.infix_append_right
    rw [hjson, Except.ok.injEq, decodeEvent_routed_iff hkind]
    refine and_congr_right fun _ => forall₂_congr fun name hname => ?_
    have hcolon := colon_notMem_of_tested (testedBefore_subset _ hname)
    have hnot := not_mentions_kind event name hname
    rw [mentions_eventType_iff hcolon]
    tauto
  · rw [hjson, Except.ok.injEq, decodeEvent_unknown_iff]

attribute [local instance] HexCrate.reference

/-- A pause is unknown, and a type that only starts with the name of an event is not. -/
theorem pause_unknown_prefix_decoded :
    (¬ ∀ (addr module : String) (event : ChainEvent), event ≠ .other →
      DecodedEvent.fromJson (eventJson (eventType addr module event.kind) (.object event.fields))
        = .ok (.routed event)) ∧
      ¬ ∀ (typeStr : String) (data : JsonValue),
        lastSegment typeStr ∉ testedNames ++ routedKinds →
          DecodedEvent.fromJson (eventJson typeStr data) = .ok (.unknown typeStr) := by
  constructor
  · intro h
    exact absurd (h "0x1" "governance" (.pauseQueued 7) (by decide)) (by decide +kernel)
  · intro h
    exact absurd (h "0x1::settlement::PoolAdjustedV2" (.object []) (by decide +kernel))
      (by decide +kernel)
