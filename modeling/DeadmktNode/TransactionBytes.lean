/-
# The bytes of a transaction

A call of the contract travels as a signed transaction in BCS: sender, sequence number, call, gas,
expiration and chain, and behind them the key and its signature over a fixed prefix and all of
these.  The settlements and the setup build it each in their own way; both put the byte of the
`MOVE` variant before it.

* A signed settlement is read back as the trade that was matched, and its signature stands for no
  other transaction (`signed_settlement_binds`).
* What a key signs for the chain is never what it signs for its peers, save by an order or a batch
  whose number is that of the prefix (`transaction_ne_signedData`).
* The two builders agree exactly when the stored key is the one of the secret
  (`submitEntryFunction_agrees_iff`).
-/
import DeadmktNode.AddressText
import DeadmktNode.BcsCollections
import DeadmktNode.MessageKinds
import DeadmktNode.SettleArgs

/-! ## Transactions -/

/-- A module of the contract. -/
structure ModuleId where
  address : AccountAddress
  name : String
deriving DecidableEq

/-- The type arguments, of which there are never any. -/
abbrev TypeTagStub := Unit

/-- A call of a function with encoded arguments. -/
structure EntryFunction where
  moduleId : ModuleId
  function : String
  tyArgs : List TypeTagStub
  args : List Bytes
deriving DecidableEq

/-- What a transaction does; the first two variants are only there for their numbers. -/
inductive TransactionPayload where
  | script
  | moduleBundle
  | entryFunction (call : EntryFunction)
deriving DecidableEq

/-- A transaction before it is signed. -/
structure RawTransaction where
  sender : AccountAddress
  sequenceNumber : UInt64
  payload : TransactionPayload
  maxGasAmount : UInt64
  gasUnitPrice : UInt64
  expirationTimestampSecs : UInt64
  chainId : UInt8
deriving DecidableEq

/-- A key and its signature. -/
structure Ed25519Authenticator where
  publicKey : Bytes
  signature : Bytes
deriving DecidableEq

inductive TransactionAuthenticator where
  | ed25519 (authenticator : Ed25519Authenticator)
deriving DecidableEq

/-- A transaction as it is submitted. -/
structure SignedTransaction where
  rawTxn : RawTransaction
  authenticator : TransactionAuthenticator
deriving DecidableEq

/-! ## Their encodings -/

/-- An address is its 32 bytes. -/
def AccountAddress.codec : Codec AccountAddress := Codec.vector 32

def ModuleId.codec : Codec ModuleId :=
  (AccountAddress.codec.pair Codec.string).iso (fun p => ⟨p.1, p.2⟩) (fun m => (m.address, m.name))
    (fun _ => rfl) (fun _ => rfl)

def EntryFunction.codec : Codec EntryFunction :=
  (ModuleId.codec.pair (Codec.string.pair (Codec.unit.list.pair Codec.bytes.list))).iso
    (fun p => ⟨p.1, p.2.1, p.2.2.1, p.2.2.2⟩)
    (fun f => (f.moduleId, f.function, f.tyArgs, f.args)) (fun _ => rfl) (fun _ => rfl)

namespace TransactionPayload

/-- What each variant holds. -/
def Fields : Fin 3 → Type
  | 0 => Unit
  | 1 => Unit
  | 2 => EntryFunction

def fieldsCodec : ∀ i, Codec (Fields i)
  | 0 => Codec.unit
  | 1 => Codec.unit
  | 2 => EntryFunction.codec

def ofFields : (Σ i, Fields i) → TransactionPayload
  | ⟨0, _⟩ => .script
  | ⟨1, _⟩ => .moduleBundle
  | ⟨2, call⟩ => .entryFunction call

def toFields : TransactionPayload → (Σ i, Fields i)
  | .script => ⟨0, ()⟩
  | .moduleBundle => ⟨1, ()⟩
  | .entryFunction call => ⟨2, call⟩

def codec : Codec TransactionPayload :=
  (Codec.tagged (by norm_num) fieldsCodec).iso ofFields toFields
    (fun p => by cases p <;> rfl)
    (fun p => by
      obtain ⟨i, b⟩ := p
      match i, b with
      | 0, () => rfl
      | 1, () => rfl
      | 2, _ => rfl)

end TransactionPayload

def RawTransaction.codec : Codec RawTransaction :=
  (AccountAddress.codec.pair (Codec.u64.pair (TransactionPayload.codec.pair (Codec.u64.pair
    (Codec.u64.pair (Codec.u64.pair Codec.u8)))))).iso
    (fun p => ⟨p.1, p.2.1, p.2.2.1, p.2.2.2.1, p.2.2.2.2.1, p.2.2.2.2.2.1, p.2.2.2.2.2.2⟩)
    (fun t => (t.sender, t.sequenceNumber, t.payload, t.maxGasAmount, t.gasUnitPrice,
      t.expirationTimestampSecs, t.chainId)) (fun _ => rfl) (fun _ => rfl)

def Ed25519Authenticator.codec : Codec Ed25519Authenticator :=
  (Codec.bytes.pair Codec.bytes).iso (fun p => ⟨p.1, p.2⟩) (fun a => (a.publicKey, a.signature))
    (fun _ => rfl) (fun _ => rfl)

/-- There is one variant, with the number 0. -/
def TransactionAuthenticator.codec : Codec TransactionAuthenticator :=
  (Codec.tagged (n := 1) (by norm_num) (fun _ => Ed25519Authenticator.codec)).iso
    (fun p => .ed25519 p.2) (fun | .ed25519 a => ⟨0, a⟩) (fun _ => rfl)
    (fun p => by
      obtain ⟨i, a⟩ := p
      obtain rfl := Subsingleton.elim i 0
      rfl)

def SignedTransaction.codec : Codec SignedTransaction :=
  (RawTransaction.codec.pair TransactionAuthenticator.codec).iso (fun p => ⟨p.1, p.2⟩)
    (fun t => (t.rawTxn, t.authenticator)) (fun _ => rfl) (fun _ => rfl)

/-- What else the node takes from third-party crates to sign for the chain. -/
class ChainExternals where
  /-- `Sha3_256::digest` -/
  sha3_256 : Bytes → Hash32
  /-- `SigningKey::verifying_key` -/
  verifyingKey : SigningKey → VerifyingKey

export ChainExternals (sha3_256 verifyingKey)

section

variable [Externals] [ChainExternals]

/-! ## Building and signing -/

/-- The prefix of what is signed: the digest of a fixed text. -/
def signingPrefix : Hash32 := sha3_256 "SUPRA::RawTransaction".toUTF8.data.toList

/-- A transaction that calls a function of the contract. -/
def buildRawTx (senderAddr contractAddr : AccountAddress) (moduleName functionName : String)
    (args : List Bytes) (sequenceNumber expirationSecs : UInt64) (chainId : UInt8)
    (maxGas gasPrice : UInt64) : RawTransaction where
  sender := senderAddr
  sequenceNumber := sequenceNumber
  payload := .entryFunction
    { moduleId := { address := contractAddr, name := moduleName }
      function := functionName
      tyArgs := []
      args := args }
  maxGasAmount := maxGas
  gasUnitPrice := gasPrice
  expirationTimestampSecs := expirationSecs
  chainId := chainId

/-- What is signed: the prefix and the encoded transaction. -/
def signingMessage (rawTx : RawTransaction) : Option Bytes :=
  (BcsCrate.toBytes RawTransaction.codec rawTx).map (signingPrefix.toList ++ ·)

/-- Encode a transaction with its signature, or with 64 zeros in its place; `none` is a BCS
error. -/
def encodeSignedTx (rawTx : RawTransaction) (signingKey : SigningKey) (doSign : Bool) :
    Option Bytes :=
  (if doSign then (signingMessage rawTx).map (sign signingKey)
    else some (List.replicate 64 0)).bind fun signature =>
      BcsCrate.toBytes SignedTransaction.codec
        { rawTxn := rawTx
          authenticator := .ed25519
            { publicKey := (verifyingKey signingKey).toList
              signature := signature } }

/-- The transaction of any call, signed. -/
def buildAndSignEntryFunction (signingKey : SigningKey) (senderAddr contractAddr : AccountAddress)
    (moduleName functionName : String) (args : List Bytes)
    (sequenceNumber expirationSecs : UInt64) (chainId : UInt8) (maxGas gasPrice : UInt64) :
    Option Bytes :=
  encodeSignedTx (buildRawTx senderAddr contractAddr moduleName functionName args sequenceNumber
    expirationSecs chainId maxGas gasPrice) signingKey true

/-- The same transaction for the simulation. -/
def buildSimulationEntryFunction (signingKey : SigningKey)
    (senderAddr contractAddr : AccountAddress) (moduleName functionName : String)
    (args : List Bytes) (sequenceNumber expirationSecs : UInt64) (chainId : UInt8)
    (maxGas gasPrice : UInt64) : Option Bytes :=
  encodeSignedTx (buildRawTx senderAddr contractAddr moduleName functionName args sequenceNumber
    expirationSecs chainId maxGas gasPrice) signingKey false

/-- Signer, contract and gas of the settlements. -/
structure SettlementSubmitter where
  signingKey : SigningKey
  contractAddr : AccountAddress
  senderAddr : AccountAddress
  chainId : UInt8
  maxGas : UInt64
  gasPrice : UInt64
deriving DecidableEq

namespace SettlementSubmitter

/-- The call that settles a match. -/
def rawTx (s : SettlementSubmitter) (m : Match) (sequenceNumber expirationSecs : UInt64) :
    Option RawTransaction :=
  (buildSettleArgs m).map fun args =>
    buildRawTx s.senderAddr s.contractAddr "settlement" "settle_match" args sequenceNumber
      expirationSecs s.chainId s.maxGas s.gasPrice

/-- The signed transaction of a match. -/
def buildSignedTx (s : SettlementSubmitter) (m : Match) (sequenceNumber expirationSecs : UInt64) :
    Option Bytes :=
  (s.rawTx m sequenceNumber expirationSecs).bind fun rawTx => encodeSignedTx rawTx s.signingKey true

/-- Its simulation. -/
def buildSimTx (s : SettlementSubmitter) (m : Match) (sequenceNumber expirationSecs : UInt64) :
    Option Bytes :=
  (s.rawTx m sequenceNumber expirationSecs).bind fun rawTx =>
    encodeSignedTx rawTx s.signingKey false

end SettlementSubmitter

/-- The body of a request: the `MOVE` variant and the transaction. -/
def supraEnvelope (signedTxBcs : Bytes) : Bytes := 0x01 :: signedTxBcs

/-- The signer of the setup; the public key is stored beside the secret. -/
structure SignerState where
  secretKey : SigningKey
  publicKey : VerifyingKey
  address : AccountAddress
deriving DecidableEq

/-- Contract and gas of the setup. -/
structure SupraSetupClient where
  contractAddr : AccountAddress
  signer : Option SignerState
  chainId : UInt8
  maxGasAmount : UInt64
  gasUnitPrice : UInt64
deriving DecidableEq

/-- The body that the setup submits for a call, signed at the time `now`; it lasts a minute.
A key that is not that of the secret is only reported on the console. -/
def SupraSetupClient.submitEntryFunction (c : SupraSetupClient) (moduleName functionName : String)
    (args : List Bytes) (sequenceNumber now : UInt64) : Option Bytes := do
  let signer ← c.signer
  let rawTx := buildRawTx signer.address c.contractAddr moduleName functionName args sequenceNumber
    (now + 60) c.chainId c.maxGasAmount c.gasUnitPrice
  let rawTxBytes ← BcsCrate.toBytes RawTransaction.codec rawTx
  let signature := sign signer.secretKey (signingPrefix.toList ++ rawTxBytes)
  let signedBytes ← BcsCrate.toBytes SignedTransaction.codec
    { rawTxn := rawTx
      authenticator := .ed25519
        { publicKey := signer.publicKey.toList
          signature := signature } }
  return supraEnvelope signedBytes

/-! ## What is submitted -/

/-- What stands under a signature, or the zeros of a simulation. -/
def signatureOf (signingKey : SigningKey) (body : Bytes) (doSign : Bool) : Bytes :=
  if doSign then sign signingKey (signingPrefix.toList ++ body) else List.replicate 64 0

/-- A transaction with a key and a signature. -/
def withSignature (rawTx : RawTransaction) (key : VerifyingKey) (signature : Bytes) :
    SignedTransaction where
  rawTxn := rawTx
  authenticator := .ed25519 { publicKey := key.toList, signature := signature }

omit [Externals] [ChainExternals] in
/-- The encoding of a signed transaction is that of the transaction, the number of the variant,
the key and the signature. -/
theorem toBytes_withSignature {rawTx : RawTransaction} {key : VerifyingKey}
    {signature bs : Bytes} :
    SignedTransaction.codec.toBytes (withSignature rawTx key signature) = some bs ↔
      ∃ body, RawTransaction.codec.toBytes rawTx = some body ∧
        signature.length ≤ Codec.maxSequenceLength ∧
        bs = body ++ (0 :: prefixed key.toList) ++ prefixed signature := by
  have hkey : Codec.bytes.put key.toList = some (prefixed key.toList) := by
    apply if_pos
    rw [Vector.length_toList]
    decide
  -- the authenticator: kind 0, then key and signature with their lengths
  have hauth : TransactionAuthenticator.codec.put
      (.ed25519 { publicKey := key.toList, signature := signature })
      = (Codec.bytes.put signature).map fun b => 0 :: (prefixed key.toList ++ b) := by
    show (((Codec.bytes.put key.toList).bind fun b =>
      (Codec.bytes.put signature).map (b ++ ·)).map (putUleb 0 ++ ·)) = _
    rw [hkey, Option.bind_some, Option.map_map, putUleb_of_lt (by norm_num)]
    rfl
  show ((RawTransaction.codec.put rawTx).bind fun b =>
    (TransactionAuthenticator.codec.put (.ed25519
      { publicKey := key.toList, signature := signature })).map (b ++ ·)) = some bs ↔ _
  rw [hauth]
  constructor
  · intro h
    obtain ⟨body, hbody, hmap⟩ := Option.bind_eq_some_iff.mp h
    rw [Option.map_map] at hmap
    obtain ⟨tail, htail, rfl⟩ := Option.map_eq_some_iff.mp hmap
    refine ⟨body, hbody, ?_, ?_⟩
    · apply Codec.isSome_toBytes_bytes.mp
      exact Option.isSome_of_eq_some htail
    · rw [toBytes_bytes htail]
      simp
  · rintro ⟨body, hbody, hlen, rfl⟩
    obtain ⟨tail, htail⟩ := Option.isSome_iff_exists.mp (Codec.isSome_toBytes_bytes.mpr hlen)
    have hput : Codec.bytes.put signature = some (prefixed signature) := by
      rw [← toBytes_bytes htail]
      exact htail
    rw [show RawTransaction.codec.put rawTx = some body from hbody, hput]
    simp

/-- An encoded transaction carries the key of its secret, and a signature over itself or the
zeros. -/
theorem encodeSignedTx_eq_some_iff {rawTx : RawTransaction} {signingKey : SigningKey}
    {doSign : Bool} {bs : Bytes} :
    encodeSignedTx rawTx signingKey doSign = some bs ↔
      ∃ body, RawTransaction.codec.toBytes rawTx = some body ∧
        SignedTransaction.codec.toBytes (withSignature rawTx (verifyingKey signingKey)
          (signatureOf signingKey body doSign)) = some bs := by
  constructor
  · intro h
    obtain ⟨signature, hsignature, hbs⟩ := Option.bind_eq_some_iff.mp h
    rw [BcsCrate.toBytes_layout] at hbs
    obtain ⟨body, hbody, -⟩ := toBytes_withSignature.mp hbs
    refine ⟨body, hbody, ?_⟩
    have heq : signatureOf signingKey body doSign = signature := by
      rw [signatureOf]
      split_ifs at hsignature ⊢
      · rw [signingMessage, BcsCrate.toBytes_layout, hbody] at hsignature
        exact Option.some.inj hsignature
      · exact Option.some.inj hsignature
    rw [heq]
    exact hbs
  · rintro ⟨body, hbody, hbs⟩
    rw [← BcsCrate.toBytes_layout] at hbs
    refine Option.bind_eq_some_iff.mpr ⟨signatureOf signingKey body doSign, ?_, hbs⟩
    rw [signatureOf]
    split_ifs
    · rw [signingMessage, BcsCrate.toBytes_layout, hbody]
      rfl
    · rfl

/-! ## A settlement -/

/-- The trade that a submitted transaction settles, and the contract that it is sent to. -/
def SignedTransaction.settlement (t : SignedTransaction) :
    Option (AccountAddress × SettledTrade) :=
  match t.rawTxn.payload with
  | .entryFunction call =>
      if call.moduleId.name = "settlement" ∧ call.function = "settle_match" then
        (readSettleArgs call.args).map fun trade => (call.moduleId.address, trade)
      else none
  | _ => none

/-- The message that the signature of submitted bytes is checked against. -/
def verifiedMessage (bs : Bytes) : Option Bytes :=
  (SignedTransaction.codec.fromBytes bs).bind fun t => signingMessage t.rawTxn

/-- Two messages to be signed are the same only for one transaction. -/
theorem signingMessage_inj {t t' : RawTransaction} {msg : Bytes}
    (h : signingMessage t = some msg) (h' : signingMessage t' = some msg) : t = t' := by
  obtain ⟨body, hbody, rfl⟩ := Option.map_eq_some_iff.mp h
  obtain ⟨body', hbody', heq⟩ := Option.map_eq_some_iff.mp h'
  obtain rfl := List.append_cancel_left heq
  rw [BcsCrate.toBytes_layout] at hbody hbody'
  exact RawTransaction.codec.put_inj hbody hbody'

/-- What a submitter sends for a match is read back as its call, with a signature over it. -/
theorem SettlementSubmitter.fromBytes_buildSignedTx {s : SettlementSubmitter} {m : Match}
    {sequenceNumber expirationSecs : UInt64} {bs : Bytes}
    (h : s.buildSignedTx m sequenceNumber expirationSecs = some bs) :
    ∃ args msg, buildSettleArgs m = some args ∧
      signingMessage (buildRawTx s.senderAddr s.contractAddr "settlement" "settle_match" args
        sequenceNumber expirationSecs s.chainId s.maxGas s.gasPrice) = some msg ∧
      SignedTransaction.codec.fromBytes bs = some (withSignature
        (buildRawTx s.senderAddr s.contractAddr "settlement" "settle_match" args
          sequenceNumber expirationSecs s.chainId s.maxGas s.gasPrice)
        (verifyingKey s.signingKey) (sign s.signingKey msg)) := by
  obtain ⟨rawTx, hraw, hbs⟩ := Option.bind_eq_some_iff.mp h
  obtain ⟨args, hargs, rfl⟩ := Option.map_eq_some_iff.mp hraw
  obtain ⟨body, hbody, henc⟩ := encodeSignedTx_eq_some_iff.mp hbs
  refine ⟨args, signingPrefix.toList ++ body, hargs, ?_, ?_⟩
  · rw [signingMessage, BcsCrate.toBytes_layout, hbody]
    rfl
  · exact SignedTransaction.codec.fromBytes_toBytes henc

omit [ChainExternals] in
/-- The symbols of the two orders of a match of a batch are its own. -/
theorem symbols_of_mem_runMatching {input : MatchingInput} {m : Match}
    (hm : m ∈ runMatching input) :
    m.buyer.order.symbol = m.symbol ∧ m.seller.order.symbol = m.symbol := by
  obtain ⟨⟨-, hbuyer, -⟩, -, hseller, -⟩ := terms_of_mem_runMatching hm
  exact ⟨hbuyer, hseller⟩

/-- **Signed settlements.**  The transaction that is submitted for a match of a batch is read back
as its trade, for the contract of the submitter, under the key of the submitter, whose signature
is over exactly this transaction.  Another transaction for a match, by any submitter, is checked
against the same message exactly when it has the same trade, sender, contract, chain, gas, number
and expiration. -/
theorem signed_settlement_binds {s : SettlementSubmitter} {input : MatchingInput} {m : Match}
    (hm : m ∈ runMatching input) {sequenceNumber expirationSecs : UInt64} {bs : Bytes}
    (h : s.buildSignedTx m sequenceNumber expirationSecs = some bs) :
    (∃ t msg, SignedTransaction.codec.fromBytes bs = some t ∧
      t.settlement = some (s.contractAddr, m.settledTrade) ∧
      t.rawTxn.sender = s.senderAddr ∧ verifiedMessage bs = some msg ∧
      t.authenticator = .ed25519
        { publicKey := (verifyingKey s.signingKey).toList
          signature := sign s.signingKey msg }) ∧
    ∀ (s' : SettlementSubmitter) (input' : MatchingInput) (m' : Match), m' ∈ runMatching input' →
      ∀ sequenceNumber' expirationSecs' bs',
        s'.buildSignedTx m' sequenceNumber' expirationSecs' = some bs' →
        (verifiedMessage bs' = verifiedMessage bs ↔
          m'.settledTrade = m.settledTrade ∧ s'.senderAddr = s.senderAddr ∧
            s'.contractAddr = s.contractAddr ∧ s'.chainId = s.chainId ∧ s'.maxGas = s.maxGas ∧
            s'.gasPrice = s.gasPrice ∧ sequenceNumber' = sequenceNumber ∧
            expirationSecs' = expirationSecs) := by
  obtain ⟨hbuyer, hseller⟩ := symbols_of_mem_runMatching hm
  obtain ⟨args, msg, hargs, hmsg, hread⟩ := s.fromBytes_buildSignedTx h
  have hverified : verifiedMessage bs = some msg := by
    rw [verifiedMessage, hread]
    exact hmsg
  refine ⟨⟨_, msg, hread, ?_, rfl, hverified, rfl⟩, ?_⟩
  -- the arguments are read back as the trade
  · have htrade := readSettleArgs_buildSettleArgs hbuyer hseller hargs
    show (if "settlement" = "settlement" ∧ "settle_match" = "settle_match" then
      (readSettleArgs args).map fun trade => (s.contractAddr, trade) else none) = _
    rw [if_pos ⟨rfl, rfl⟩, htrade]
    rfl
  · intro s' input' m' hm' sequenceNumber' expirationSecs' bs' h'
    obtain ⟨hbuyer', hseller'⟩ := symbols_of_mem_runMatching hm'
    obtain ⟨args', msg', hargs', hmsg', hread'⟩ := s'.fromBytes_buildSignedTx h'
    have hverified' : verifiedMessage bs' = some msg' := by
      rw [verifiedMessage, hread']
      exact hmsg'
    rw [hverified, hverified']
    constructor
    · intro heq
      obtain rfl := Option.some.inj heq
      -- the signed bytes determine the transaction, and this its arguments
      have hraw := signingMessage_inj hmsg hmsg'
      simp only [buildRawTx, RawTransaction.mk.injEq, TransactionPayload.entryFunction.injEq,
        EntryFunction.mk.injEq, ModuleId.mk.injEq] at hraw
      obtain ⟨hsender, hseq, ⟨⟨hcontract, -⟩, -, -, rfl⟩, hgas, hprice, hexp, hchain⟩ := hraw
      have htrade := (buildSettleArgs_eq_iff hbuyer hseller hbuyer' hseller' hargs).mp hargs'
      exact ⟨htrade, hsender.symm, hcontract.symm, hchain.symm, hgas.symm, hprice.symm,
        hseq.symm, hexp.symm⟩
    · rintro ⟨htrade, hsender, hcontract, hchain, hgas, hprice, rfl, rfl⟩
      have hsame := (buildSettleArgs_eq_iff hbuyer hseller hbuyer' hseller' hargs).mpr htrade
      obtain rfl := Option.some.inj (hargs'.symm.trans hsame)
      rw [hsender, hcontract, hchain, hgas, hprice] at hmsg'
      exact hmsg'.symm.trans hmsg

/-! ## Simulations -/

/-- **Simulation.**  A transaction that is submitted has a simulation, which is read back as the
same transaction under the same key; the two differ in nothing but the 64 bytes of the signature,
where the simulation has zeros. -/
theorem simulation_eq_but_signature {s : SettlementSubmitter} {m : Match}
    {sequenceNumber expirationSecs : UInt64} {bs : Bytes}
    (h : s.buildSignedTx m sequenceNumber expirationSecs = some bs) :
    ∃ common rawTx msg, signingMessage rawTx = some msg ∧
      bs = common ++ prefixed (sign s.signingKey msg) ∧ (sign s.signingKey msg).length = 64 ∧
      s.buildSimTx m sequenceNumber expirationSecs
        = some (common ++ prefixed (List.replicate 64 0)) ∧
      SignedTransaction.codec.fromBytes bs = some
        (withSignature rawTx (verifyingKey s.signingKey) (sign s.signingKey msg)) ∧
      SignedTransaction.codec.fromBytes (common ++ prefixed (List.replicate 64 0)) = some
        (withSignature rawTx (verifyingKey s.signingKey) (List.replicate 64 0)) := by
  obtain ⟨rawTx, hraw, hbs⟩ := Option.bind_eq_some_iff.mp h
  obtain ⟨body, hbody, henc⟩ := encodeSignedTx_eq_some_iff.mp hbs
  obtain ⟨body', hbody', -, hbytes⟩ := toBytes_withSignature.mp henc
  obtain rfl := Option.some.inj (hbody.symm.trans hbody')
  have hzeros : SignedTransaction.codec.toBytes (withSignature rawTx (verifyingKey s.signingKey)
      (List.replicate 64 0))
      = some (body ++ (0 :: prefixed (verifyingKey s.signingKey).toList)
        ++ prefixed (List.replicate 64 0)) := by
    apply toBytes_withSignature.mpr
    exact ⟨body, hbody, by decide, rfl⟩
  have hsim : encodeSignedTx rawTx s.signingKey false
      = some (body ++ (0 :: prefixed (verifyingKey s.signingKey).toList)
        ++ prefixed (List.replicate 64 0)) :=
    encodeSignedTx_eq_some_iff.mpr ⟨body, hbody, hzeros⟩
  refine ⟨_, rawTx, signingPrefix.toList ++ body, ?_, hbytes, Externals.length_ed25519Sign _ _, ?_,
    SignedTransaction.codec.fromBytes_toBytes henc,
    SignedTransaction.codec.fromBytes_toBytes hzeros⟩
  · rw [signingMessage, BcsCrate.toBytes_layout, hbody]
    rfl
  · rw [SettlementSubmitter.buildSimTx, hraw]
    exact hsim

/-! ## The two builders -/

/-- A call of the setup, where it is encoded, has the signature of the secret and the stored
key. -/
theorem SupraSetupClient.submitEntryFunction_eq_some_iff {c : SupraSetupClient} {sg : SignerState}
    (hsigner : c.signer = some sg) {moduleName functionName : String} {args : List Bytes}
    {sequenceNumber now : UInt64} {body : Bytes} :
    c.submitEntryFunction moduleName functionName args sequenceNumber now = some body ↔
      ∃ rawTxBytes bs, RawTransaction.codec.toBytes (buildRawTx sg.address c.contractAddr moduleName
          functionName args sequenceNumber (now + 60) c.chainId c.maxGasAmount c.gasUnitPrice)
          = some rawTxBytes ∧
        SignedTransaction.codec.toBytes (withSignature (buildRawTx sg.address c.contractAddr
          moduleName functionName args sequenceNumber (now + 60) c.chainId c.maxGasAmount
          c.gasUnitPrice) sg.publicKey (signatureOf sg.secretKey rawTxBytes true)) = some bs ∧
        body = supraEnvelope bs := by
  simp only [submitEntryFunction, BcsCrate.toBytes_layout]
  constructor
  · intro h
    obtain ⟨sg', hsg', h⟩ := Option.bind_eq_some_iff.mp h
    obtain rfl := Option.some.inj (hsigner.symm.trans hsg')
    obtain ⟨rawTxBytes, hraw, h⟩ := Option.bind_eq_some_iff.mp h
    obtain ⟨bs, hbs, hbody⟩ := Option.bind_eq_some_iff.mp h
    exact ⟨rawTxBytes, bs, hraw, hbs, (Option.some.inj hbody).symm⟩
  · rintro ⟨rawTxBytes, bs, hraw, hbs, rfl⟩
    exact Option.bind_eq_some_iff.mpr ⟨sg, hsigner, Option.bind_eq_some_iff.mpr ⟨rawTxBytes, hraw,
      Option.bind_eq_some_iff.mpr ⟨bs, hbs, rfl⟩⟩⟩

/-- **Two builders.**  What the setup submits for a call is what the settlements would submit for
it exactly when the stored public key is that of the secret: a stale key, which the setup only
reports, changes the bytes of every call. -/
theorem submitEntryFunction_agrees_iff {c : SupraSetupClient} {sg : SignerState}
    (hsigner : c.signer = some sg) {moduleName functionName : String} {args : List Bytes}
    {sequenceNumber now : UInt64} {body : Bytes}
    (h : c.submitEntryFunction moduleName functionName args sequenceNumber now = some body) :
    (buildAndSignEntryFunction sg.secretKey sg.address c.contractAddr moduleName functionName args
        sequenceNumber (now + 60) c.chainId c.maxGasAmount c.gasUnitPrice).map supraEnvelope
        = some body ↔
      sg.publicKey = verifyingKey sg.secretKey := by
  obtain ⟨rawTxBytes, bs, hraw, hbs, rfl⟩ :=
    (SupraSetupClient.submitEntryFunction_eq_some_iff hsigner).mp h
  constructor
  · intro hsame
    obtain ⟨bs', hbs', henvelope⟩ := Option.map_eq_some_iff.mp hsame
    obtain rfl : bs' = bs := (List.cons.inj henvelope).2
    obtain ⟨rawTxBytes', hraw', henc⟩ := encodeSignedTx_eq_some_iff.mp hbs'
    have ht := SignedTransaction.codec.put_inj henc hbs
    simp only [withSignature, SignedTransaction.mk.injEq, TransactionAuthenticator.ed25519.injEq,
      Ed25519Authenticator.mk.injEq] at ht
    exact (Vector.toList_inj.mp ht.2.1).symm
  · intro hkey
    refine Option.map_eq_some_iff.mpr ⟨bs, ?_, rfl⟩
    apply encodeSignedTx_eq_some_iff.mpr
    rw [← hkey]
    exact ⟨rawTxBytes, hraw, hbs⟩

/-! ## Transactions and peers -/

/-- The message of a transaction starts with the prefix and the sender. -/
theorem signingMessage_layout {rawTx : RawTransaction} {msg : Bytes}
    (h : signingMessage rawTx = some msg) :
    ∃ tail, msg = signingPrefix.toList ++ (rawTx.sender.toList ++ tail) := by
  obtain ⟨body, hbody, rfl⟩ := Option.map_eq_some_iff.mp h
  rw [BcsCrate.toBytes_layout] at hbody
  obtain ⟨sender, tail, hsender, -, rfl⟩ := Codec.put_pair
    (show (AccountAddress.codec.pair (Codec.u64.pair (TransactionPayload.codec.pair (Codec.u64.pair
      (Codec.u64.pair (Codec.u64.pair Codec.u8)))))).put (rawTx.sender, rawTx.sequenceNumber,
        rawTx.payload, rawTx.maxGasAmount, rawTx.gasUnitPrice, rawTx.expirationTimestampSecs,
        rawTx.chainId) = some body from hbody)
  obtain rfl := Option.some.inj hsender
  exact ⟨tail, rfl⟩

/-- The first two numbers of the prefix. -/
def prefixHead : UInt64 := UInt64.ofLeBytes (signingPrefix.toList.take 8)
def prefixSecond : UInt64 := UInt64.ofLeBytes ((signingPrefix.toList.drop 8).take 8)

/-- The messages for peers that could be taken for a transaction: the orders of one NFT, and the
`BatchComplete` messages of one batch and pool. -/
def MatchesPrefix : SignedData → Prop
  | .order o => o.nftId = prefixHead
  | .batchComplete batchId poolId .. => batchId = prefixHead ∧ poolId = prefixSecond
  | _ => False

omit [Externals] [ChainExternals] in
/-- A number at the start of a long enough byte string is that of its first eight bytes. -/
theorem eq_ofLeBytes_take {x : UInt64} {s p rest : Bytes} (h : x.toLeBytes ++ s = p ++ rest)
    (hp : 8 ≤ p.length) : x = UInt64.ofLeBytes (p.take 8) ∧ s = p.drop 8 ++ rest := by
  rw [← List.take_append_drop 8 p, List.append_assoc] at h
  obtain ⟨hx, hs⟩ := List.append_inj h (by simp; omega)
  refine ⟨?_, hs⟩
  rw [← hx, UInt64.ofLeBytes_toLeBytes]

/-- **Transactions and peers.**  The bytes that a key signs for a transaction are never those of a
commit or a settlement report, and never those of an order or a `BatchComplete` whose numbers are
not the first of the prefix. -/
theorem transaction_ne_signedData {rawTx : RawTransaction} {msg : Bytes}
    (h : signingMessage rawTx = some msg) {m : SignedData} (hm : ¬ MatchesPrefix m) :
    m.bytes ≠ some msg := by
  intro hbytes
  apply hm
  obtain ⟨tail, rfl⟩ := signingMessage_layout h
  have hlayout := (SignedData.bytes_layout hbytes).symm
  have hprefix : signingPrefix.toList.length = 32 := Vector.length_toList
  have hsender : rawTx.sender.toList.length = 32 := Vector.length_toList
  obtain ⟨hhead, htail⟩ := eq_ofLeBytes_take hlayout (by omega)
  have hlen := congrArg List.length htail
  simp only [List.length_append, List.length_drop, hprefix, hsender] at hlen
  cases m with
  | order o => exact hhead
  | batchComplete batchId poolId symbol avgSettlementPrice volume matchCount =>
      refine ⟨hhead, (eq_ofLeBytes_take htail ?_).1⟩
      rw [List.length_drop]
      omega
  | commit batchId poolId hash =>
      -- a commit ends 48 bytes after its start, within the sender
      exfalso
      simp [SignedData.tail] at hlen
      omega
  | settlementReport batchId matchHash settled bailerNft =>
      exfalso
      simp [SignedData.tail] at hlen
      omega

end

/-! ## The sample settlement

NFT 1 settles the sample trade; before that it has minted its NFT. -/

section

/-- The digest that signing starts with. -/
def realPrefix : Hash32 :=
  Sha256.toHash32
    [136, 209, 110, 209, 171, 166, 215, 125, 82, 26, 175, 173, 166, 214, 233, 45, 122, 23, 69,
      39, 173, 180, 87, 173, 250, 102, 169, 197, 160, 241, 254, 55]

/-- The functions for the chain, at the text of the prefix and at the key of NFT 1. -/
@[reducible] def sampleChainExternals : ChainExternals where
  sha3_256 bs :=
    if bs = "SUPRA::RawTransaction".toUTF8.data.toList then realPrefix else Vector.replicate 32 0
  verifyingKey secret :=
    if secret = Vector.replicate 32 1 then sellerKey else Vector.replicate 32 0

attribute [local instance] sampleChainExternals sampleExternals

/-- The account of NFT 1. -/
def sellerAddress : AccountAddress :=
  Sha256.toHash32
    [125, 244, 21, 229, 178, 27, 218, 168, 178, 148, 110, 143, 31, 66, 120, 179, 153, 4, 229, 26,
      105, 98, 116, 148, 205, 62, 111, 41, 150, 115, 47, 189]

/-- The contract `0x1`. -/
def sampleContract : AccountAddress := .ofBytes [1] (by decide)

def sampleSubmitter : SettlementSubmitter where
  signingKey := Vector.replicate 32 1
  contractAddr := sampleContract
  senderAddr := sellerAddress
  chainId := 6
  maxGas := 200
  gasPrice := 100000

def sampleSetup : SupraSetupClient where
  contractAddr := sampleContract
  signer := some ⟨Vector.replicate 32 1, sellerKey, sellerAddress⟩
  chainId := 6
  maxGasAmount := 5000
  gasUnitPrice := 100000

/-- The arguments of the mint: the key and the sponsor. -/
def mintArgs : List Bytes := [prefixed sellerKey.toList, sellerAddress.toList]

/-- What is signed for the sample settlement. -/
def settlementMessage : Bytes :=
  ((sampleSubmitter.rawTx tradedMatch 3 1000).bind signingMessage).getD []

/-- What is signed for the mint. -/
def mintMessage : Bytes :=
  (signingMessage (buildRawTx sellerAddress sampleContract "nft" "mint_trustee_nft" mintArgs
    0 1060 6 5000 100000)).getD []

/-- The signatures of NFT 1 on the two. -/
def settlementSignature : Bytes :=
  [120, 114, 162, 124, 186, 125, 48, 14, 10, 157, 180, 47, 209, 248, 189, 55, 149, 60, 36, 27,
    200, 25, 43, 146, 164, 190, 159, 237, 232, 252, 107, 126, 98, 7, 158, 40, 67, 165, 21, 119,
    171, 200, 71, 14, 44, 18, 212, 74, 149, 67, 128, 187, 41, 23, 235, 165, 28, 208, 236, 50, 61,
    5, 133, 2]
def mintSignature : Bytes :=
  [109, 88, 177, 52, 244, 167, 71, 31, 57, 198, 205, 43, 105, 104, 244, 15, 20, 211, 151, 252,
    33, 12, 20, 255, 195, 158, 26, 234, 177, 64, 214, 58, 124, 23, 21, 62, 128, 199, 209, 89, 49,
    190, 223, 51, 29, 171, 7, 172, 21, 189, 144, 78, 85, 70, 210, 155, 226, 53, 145, 13, 192, 15,
    105, 4]

/-- The reference implementation that knows the signatures of the orders and of the two
transactions. -/
@[reducible] def settlementExternals : Externals :=
  referenceExternals (sampleSignatures ++
    [⟨Vector.replicate 32 1, sellerKey, settlementMessage, settlementSignature⟩,
      ⟨Vector.replicate 32 1, sellerKey, mintMessage, mintSignature⟩])

attribute [local instance] settlementExternals

theorem signed_settlement_binds_sample :
    ∃ bs t msg, sampleSubmitter.buildSignedTx tradedMatch 3 1000 = some bs ∧
      SignedTransaction.codec.fromBytes bs = some t ∧
      t.settlement = some (sampleContract, tradedMatch.settledTrade) ∧
      verifiedMessage bs = some msg ∧
      t.authenticator = .ed25519
        { publicKey := sellerKey.toList, signature := sign (Vector.replicate 32 1) msg } := by
  have hm : tradedMatch ∈ runMatching tradedBatch := by decide +kernel
  have hsome : (sampleSubmitter.buildSignedTx tradedMatch 3 1000).isSome = true := by
    decide +kernel
  obtain ⟨bs, hbs⟩ := Option.isSome_iff_exists.mp hsome
  obtain ⟨⟨t, msg, hread, htrade, -, hmsg, hauth⟩, -⟩ := signed_settlement_binds hm hbs
  exact ⟨bs, t, msg, hbs, hread, htrade, hmsg, hauth⟩

theorem simulation_of_sample :
    ∃ common msg, sampleSubmitter.buildSignedTx tradedMatch 3 1000
        = some (common ++ prefixed (sign (Vector.replicate 32 1) msg)) ∧
      (sign (Vector.replicate 32 1) msg).length = 64 ∧
      sampleSubmitter.buildSimTx tradedMatch 3 1000
        = some (common ++ prefixed (List.replicate 64 0)) := by
  have hsome : (sampleSubmitter.buildSignedTx tradedMatch 3 1000).isSome = true := by
    decide +kernel
  obtain ⟨bs, hbs⟩ := Option.isSome_iff_exists.mp hsome
  obtain ⟨common, -, msg, -, rfl, hlength, hsim, -⟩ := simulation_eq_but_signature hbs
  exact ⟨common, msg, hbs, hlength, hsim⟩

theorem submitEntryFunction_agrees_sample :
    (buildAndSignEntryFunction (Vector.replicate 32 1) sellerAddress sampleContract "nft"
        "mint_trustee_nft" mintArgs 0 1060 6 5000 100000).map supraEnvelope
      = sampleSetup.submitEntryFunction "nft" "mint_trustee_nft" mintArgs 0 1000 := by
  have hsome : (sampleSetup.submitEntryFunction "nft" "mint_trustee_nft" mintArgs 0 1000).isSome
      = true := by
    decide +kernel
  obtain ⟨body, hbody⟩ := Option.isSome_iff_exists.mp hsome
  rw [hbody]
  exact (submitEntryFunction_agrees_iff rfl hbody).mpr (by decide +kernel)

theorem mint_ne_sampleSell :
    (SignedData.order sampleSell).bytes ≠ some mintMessage := by
  have hsome : signingMessage (buildRawTx sellerAddress sampleContract "nft" "mint_trustee_nft"
      mintArgs 0 1060 6 5000 100000) = some mintMessage := by
    decide +kernel
  exact transaction_ne_signedData hsome (by unfold MatchesPrefix; decide +kernel)

end
