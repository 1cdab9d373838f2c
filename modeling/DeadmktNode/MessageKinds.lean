/-
# When do two kinds of signed bytes agree?

Commits, orders, `BatchComplete` messages and settlement reports are signed with one key and
without a tag for their kind.  Each layout starts with a `u64`; behind it a commit has 40 bytes
and a report 41, so that these two never agree, while the length of the other two depends on a
symbol and a nonce.  `SignedData.Coincides` lists the coincidences, field by field, and
`SignedData.bytes_eq_iff` says that there are no others.
-/
import DeadmktNode.Crypto

/-! ## Layouts -/

theorem putUleb_of_lt {n : ℕ} (h : n < 128) : putUleb n = [UInt8.ofNat n] := by
  rw [putUleb, if_pos h]

theorem one_le_length_putUleb (n : ℕ) : 1 ≤ (putUleb n).length := by
  rw [putUleb]
  split_ifs
  · exact le_refl _
  · exact Nat.le_add_left 1 _

/-- A layout that starts with a `u64` determines it and the rest. -/
theorem toLeBytes_append_inj {x y : UInt64} {s t : Bytes} :
    x.toLeBytes ++ s = y.toLeBytes ++ t ↔ x = y ∧ s = t := by
  constructor
  · intro h
    obtain ⟨hxy, hst⟩ := List.append_inj h (by simp)
    refine ⟨?_, hst⟩
    rw [← UInt64.ofLeBytes_toLeBytes x, hxy, UInt64.ofLeBytes_toLeBytes]
  · rintro ⟨rfl, rfl⟩
    rfl

/-- So does one that ends with a `u64`. -/
theorem append_toLeBytes_inj {x y : UInt64} {s t : Bytes} :
    s ++ x.toLeBytes = t ++ y.toLeBytes ↔ s = t ∧ x = y := by
  constructor
  · intro h
    obtain ⟨hst, hxy⟩ := List.append_inj' h (by simp)
    refine ⟨hst, ?_⟩
    rw [← UInt64.ofLeBytes_toLeBytes x, hxy, UInt64.ofLeBytes_toLeBytes]
  · rintro ⟨rfl, rfl⟩
    rfl

/-- A byte string behind its length. -/
def prefixed (bs : Bytes) : Bytes := putUleb bs.length ++ bs

/-- The encoding of a byte string puts its length before it. -/
theorem toBytes_bytes {bs out : Bytes} (h : Codec.bytes.toBytes bs = some out) :
    out = prefixed bs := by
  replace h : (if bs.length ≤ Codec.maxSequenceLength then some (putUleb bs.length ++ bs)
    else none) = some out := h
  split_ifs at h
  exact (Option.some.inj h).symm

/-- The length takes at least one byte. -/
theorem lt_length_prefixed (bs : Bytes) : bs.length < (prefixed bs).length := by
  have h1 := one_le_length_putUleb bs.length
  rw [prefixed, List.length_append]
  omega

/-- A short string has one byte of length before it. -/
theorem prefixed_of_short {bs : Bytes} (h : (prefixed bs).length ≤ 128) :
    prefixed bs = UInt8.ofNat bs.length :: bs := by
  have hlt := lt_length_prefixed bs
  rw [prefixed, putUleb_of_lt (by omega), List.singleton_append]

/-- So it has one byte more. -/
theorem length_of_prefixed_short {bs : Bytes} (h : (prefixed bs).length ≤ 128) :
    (prefixed bs).length = bs.length + 1 := by
  rw [prefixed_of_short h, List.length_cons]

/-- The bytes of an order after its NFT. -/
def Order.rest (o : Order) : Bytes :=
  prefixed o.symbol ++ [o.side] ++ o.price.toLeBytes ++ o.quantity.toLeBytes
    ++ o.batchId.toLeBytes ++ prefixed o.nonce

/-- The five numbers of an order take 25 bytes. -/
theorem Order.length_rest (o : Order) :
    o.rest.length = (prefixed o.symbol).length + 25 + (prefixed o.nonce).length := by
  simp only [Order.rest, List.length_append, List.length_singleton, UInt64.length_toLeBytes]

/-- The bytes of a `BatchComplete` after its pool. -/
def batchCompleteRest (symbol : Bytes) (avgSettlementPrice volume matchCount : UInt64) : Bytes :=
  prefixed symbol ++ avgSettlementPrice.toLeBytes ++ volume.toLeBytes ++ matchCount.toLeBytes

/-- The three numbers of a `BatchComplete` take 24. -/
theorem length_batchCompleteRest (symbol : Bytes)
    (avgSettlementPrice volume matchCount : UInt64) :
    (batchCompleteRest symbol avgSettlementPrice volume matchCount).length
      = (prefixed symbol).length + 24 := by
  simp only [batchCompleteRest, List.length_append, UInt64.length_toLeBytes]

/-- An encoded order is its NFT and the rest. -/
theorem encodeOrder_layout [Externals] {o : Order} {bs : Bytes} (h : encodeOrder o = some bs) :
    bs = o.nftId.toLeBytes ++ o.rest := by
  rw [Externals.encode_layout] at h
  replace h : (Codec.u64.pair (Codec.bytes.pair (Codec.u8.pair (Codec.u64.pair
    (Codec.u64.pair (Codec.u64.pair Codec.bytes)))))).put o.toFields = some bs := h
  have hbytes : ∀ {b out : Bytes}, Codec.bytes.put b = some out → out = prefixed b :=
    fun hb => toBytes_bytes hb
  -- one field after another
  obtain ⟨_, _, h₁, k₁, rfl⟩ := Codec.put_pair h
  obtain ⟨_, _, h₂, k₂, rfl⟩ := Codec.put_pair k₁
  obtain ⟨_, _, h₃, k₃, rfl⟩ := Codec.put_pair k₂
  obtain ⟨_, _, h₄, k₄, rfl⟩ := Codec.put_pair k₃
  obtain ⟨_, _, h₅, k₅, rfl⟩ := Codec.put_pair k₄
  obtain ⟨_, _, h₆, h₇, rfl⟩ := Codec.put_pair k₅
  obtain rfl := Option.some.inj h₁
  obtain rfl := hbytes h₂
  obtain rfl := Option.some.inj h₃
  obtain rfl := Option.some.inj h₄
  obtain rfl := Option.some.inj h₅
  obtain rfl := Option.some.inj h₆
  obtain rfl := hbytes h₇
  simp only [Order.rest, Order.toFields, List.append_assoc]

/-- The message of a `BatchComplete` is batch, pool and the rest. -/
theorem batchCompleteMessage_layout [Externals] {batchId poolId : UInt64} {symbol bs : Bytes}
    {avgSettlementPrice volume matchCount : UInt64}
    (h : batchCompleteMessage batchId poolId symbol avgSettlementPrice volume matchCount
      = some bs) :
    bs = batchId.toLeBytes ++ (poolId.toLeBytes
      ++ batchCompleteRest symbol avgSettlementPrice volume matchCount) := by
  obtain ⟨symbolBcs, hsymbol, rfl⟩ := Option.map_eq_some_iff.mp h
  rw [BcsCrate.toBytes_layout] at hsymbol
  rw [toBytes_bytes hsymbol]
  simp only [batchCompleteRest, List.append_assoc]

/-! ## What is signed -/

/-- The fields under a signature. -/
inductive SignedData where
  | commit (batchId poolId : UInt64) (hash : Hash32)
  | order (o : Order)
  | batchComplete (batchId poolId : UInt64) (symbol : Bytes)
      (avgSettlementPrice volume matchCount : UInt64)
  | settlementReport (batchId : UInt64) (matchHash : Hash32) (settled : Bool)
      (bailerNft : UInt64)
deriving DecidableEq

inductive MessageKind where
  | commit
  | order
  | batchComplete
  | settlementReport
deriving DecidableEq, Repr

namespace SignedData

def kind : SignedData → MessageKind
  | .commit .. => .commit
  | .order _ => .order
  | .batchComplete .. => .batchComplete
  | .settlementReport .. => .settlementReport

/-- The bytes that are signed; `none` if the fields have no encoding. -/
def bytes [Externals] : SignedData → Option Bytes
  | .commit batchId poolId hash => some (commitMessage batchId poolId hash.toList)
  | .order o => encodeOrder o
  | .batchComplete batchId poolId symbol avgSettlementPrice volume matchCount =>
      batchCompleteMessage batchId poolId symbol avgSettlementPrice volume matchCount
  | .settlementReport batchId matchHash settled bailerNft =>
      some (settlementReportMessage batchId matchHash.toList settled bailerNft)

/-- The `u64` at the start: the NFT of an order, and the batch of the other kinds. -/
def head : SignedData → UInt64
  | .commit batchId .. => batchId
  | .order o => o.nftId
  | .batchComplete batchId .. => batchId
  | .settlementReport batchId .. => batchId

/-- The bytes behind it. -/
def tail : SignedData → Bytes
  | .commit _ poolId hash => poolId.toLeBytes ++ hash.toList
  | .order o => o.rest
  | .batchComplete _ poolId symbol avgSettlementPrice volume matchCount =>
      poolId.toLeBytes ++ batchCompleteRest symbol avgSettlementPrice volume matchCount
  | .settlementReport _ matchHash settled bailerNft =>
      matchHash.toList ++ [if settled then 1 else 0] ++ bailerNft.toLeBytes

/-- The signed bytes are the head and the tail. -/
theorem bytes_layout [Externals] {m : SignedData} {bs : Bytes} (h : m.bytes = some bs) :
    bs = m.head.toLeBytes ++ m.tail := by
  cases m with
  | commit batchId poolId hash =>
      obtain rfl := Option.some.inj h
      simp only [commitMessage, head, tail, List.append_assoc]
  | order o => exact encodeOrder_layout h
  | batchComplete batchId poolId symbol avgSettlementPrice volume matchCount =>
      exact batchCompleteMessage_layout h
  | settlementReport batchId matchHash settled bailerNft =>
      obtain rfl := Option.some.inj h
      simp only [settlementReportMessage, head, tail, List.append_assoc]

/-! ## Coincidences -/

/-- The fields of two messages of different kinds that are signed over the same bytes; an
order stands first, and a `BatchComplete` before a commit or a report. -/
def Coincides : SignedData → SignedData → Prop
  | .batchComplete b p symbol price volume count, .commit b' p' hash =>
      b = b' ∧ p = p' ∧ symbol.length = 7 ∧
        hash.toList = 7 :: symbol ++ price.toLeBytes ++ volume.toLeBytes ++ count.toLeBytes
  | .batchComplete b p symbol price volume count, .settlementReport b' matchHash settled bailer =>
      b = b' ∧ count = bailer ∧ symbol.length = 8 ∧
        matchHash.toList ++ [if settled then 1 else 0]
          = p.toLeBytes ++ (8 :: symbol ++ price.toLeBytes ++ volume.toLeBytes)
  | .order o, .commit b p hash =>
      o.nftId = b ∧ o.symbol.length + o.nonce.length = 13 ∧ o.rest = p.toLeBytes ++ hash.toList
  | .order o, .settlementReport b matchHash settled bailer =>
      o.nftId = b ∧ o.symbol.length + o.nonce.length = 14 ∧
        o.rest = matchHash.toList ++ [if settled then 1 else 0] ++ bailer.toLeBytes
  | .order o, .batchComplete b p symbol price volume count =>
      o.nftId = b ∧ o.rest = p.toLeBytes ++ batchCompleteRest symbol price volume count
  | _, _ => False

/-- A commit and a report differ in length. -/
theorem commit_tail_ne_report (poolId bailerNft : UInt64) (hash matchHash : Hash32)
    (settled : Bool) :
    poolId.toLeBytes ++ hash.toList
      ≠ matchHash.toList ++ [if settled then 1 else 0] ++ bailerNft.toLeBytes := by
  intro h
  have hlength := congrArg List.length h
  simp at hlength

/-- A `BatchComplete` for a symbol of seven bytes is as long as a commit. -/
theorem batchComplete_tail_eq_commit_iff {poolId poolId' : UInt64} {symbol : Bytes}
    {avgSettlementPrice volume matchCount : UInt64} {hash : Hash32} :
    poolId.toLeBytes ++ batchCompleteRest symbol avgSettlementPrice volume matchCount
        = poolId'.toLeBytes ++ hash.toList ↔
      poolId = poolId' ∧ symbol.length = 7 ∧
        hash.toList = 7 :: symbol ++ avgSettlementPrice.toLeBytes ++ volume.toLeBytes
          ++ matchCount.toLeBytes := by
  rw [toLeBytes_append_inj, and_congr_right_iff]
  intro _
  constructor
  · intro h
    have hlength := congrArg List.length h
    rw [length_batchCompleteRest, Vector.length_toList] at hlength
    -- a hash has room for eight bytes before the three numbers
    have hshort : (prefixed symbol).length ≤ 128 := by omega
    have hseven : symbol.length = 7 := by
      have := length_of_prefixed_short hshort
      omega
    refine ⟨hseven, ?_⟩
    rw [← h, batchCompleteRest, prefixed_of_short hshort, hseven]
    rfl
  · rintro ⟨hseven, hhash⟩
    rw [hhash, batchCompleteRest, prefixed, hseven, putUleb_of_lt (show 7 < 128 by omega)]
    rfl

/-- One for a symbol of eight bytes is as long as a report. -/
theorem batchComplete_tail_eq_report_iff {poolId bailerNft : UInt64} {symbol : Bytes}
    {avgSettlementPrice volume matchCount : UInt64} {matchHash : Hash32} {settled : Bool} :
    poolId.toLeBytes ++ batchCompleteRest symbol avgSettlementPrice volume matchCount
        = matchHash.toList ++ [if settled then 1 else 0] ++ bailerNft.toLeBytes ↔
      matchCount = bailerNft ∧ symbol.length = 8 ∧
        matchHash.toList ++ [if settled then 1 else 0]
          = poolId.toLeBytes
            ++ (8 :: symbol ++ avgSettlementPrice.toLeBytes ++ volume.toLeBytes) := by
  rw [batchCompleteRest, ← List.append_assoc, append_toLeBytes_inj, and_comm,
    and_congr_right_iff]
  intro _
  constructor
  · intro h
    have hlength := congrArg List.length h
    simp only [List.length_append, UInt64.length_toLeBytes, Vector.length_toList,
      List.length_singleton] at hlength
    -- hash and flag have room for nine bytes between the pool and the two numbers
    have hshort : (prefixed symbol).length ≤ 128 := by omega
    have height : symbol.length = 8 := by
      have := length_of_prefixed_short hshort
      omega
    refine ⟨height, ?_⟩
    rw [← h, prefixed_of_short hshort, height]
    rfl
  · rintro ⟨height, hhash⟩
    rw [hhash, prefixed, height, putUleb_of_lt (show 8 < 128 by omega)]
    rfl

/-- An order of at most 128 bytes behind its NFT has one byte before its symbol and one before
its nonce. -/
theorem symbol_add_nonce {o : Order} (h : o.rest.length ≤ 128) :
    o.rest.length = o.symbol.length + o.nonce.length + 27 := by
  have hlength := o.length_rest
  have hsymbol := @length_of_prefixed_short o.symbol (by omega)
  have hnonce := @length_of_prefixed_short o.nonce (by omega)
  omega

/-- Two messages are signed over the same bytes. -/
def Agrees (m m' : SignedData) : Prop := m.head = m'.head ∧ m.tail = m'.tail

theorem Agrees.symm {m m' : SignedData} (h : m.Agrees m') : m'.Agrees m :=
  ⟨h.1.symm, h.2.symm⟩

theorem not_commit_agrees_report {b p b' bailer : UInt64} {hash matchHash : Hash32}
    {settled : Bool} :
    ¬ (commit b p hash).Agrees (settlementReport b' matchHash settled bailer) :=
  fun h => commit_tail_ne_report p bailer hash matchHash settled h.2

theorem batchComplete_agrees_commit_iff {b p price volume count b' p' : UInt64}
    {symbol : Bytes} {hash : Hash32} :
    (batchComplete b p symbol price volume count).Agrees (commit b' p' hash) ↔
      (batchComplete b p symbol price volume count).Coincides (commit b' p' hash) :=
  and_congr_right fun _ => batchComplete_tail_eq_commit_iff

theorem batchComplete_agrees_report_iff {b p price volume count b' bailer : UInt64}
    {symbol : Bytes} {matchHash : Hash32} {settled : Bool} :
    (batchComplete b p symbol price volume count).Agrees
        (settlementReport b' matchHash settled bailer) ↔
      (batchComplete b p symbol price volume count).Coincides
        (settlementReport b' matchHash settled bailer) :=
  and_congr_right fun _ => batchComplete_tail_eq_report_iff

/-- An order of 40 bytes behind its NFT has 13 of symbol and nonce. -/
theorem order_agrees_commit_iff {o : Order} {b p : UInt64} {hash : Hash32} :
    (order o).Agrees (commit b p hash) ↔ (order o).Coincides (commit b p hash) := by
  refine and_congr_right fun _ => ⟨fun h => ⟨?_, h⟩, And.right⟩
  have hlength : o.rest.length = 40 := by
    rw [show o.rest = p.toLeBytes ++ hash.toList from h]
    simp
  have hsum := symbol_add_nonce (o := o) (by omega)
  omega

/-- One of 41 bytes has 14. -/
theorem order_agrees_report_iff {o : Order} {b bailer : UInt64} {matchHash : Hash32}
    {settled : Bool} :
    (order o).Agrees (settlementReport b matchHash settled bailer) ↔
      (order o).Coincides (settlementReport b matchHash settled bailer) := by
  refine and_congr_right fun _ => ⟨fun h => ⟨?_, h⟩, And.right⟩
  have hlength : o.rest.length = 41 := by
    rw [show o.rest = matchHash.toList ++ [if settled then 1 else 0] ++ bailer.toLeBytes from h]
    simp
  have hsum := symbol_add_nonce (o := o) (by omega)
  omega

/-- Messages of different kinds agree exactly in the listed cases. -/
theorem agrees_iff {m m' : SignedData} (hkind : m.kind ≠ m'.kind) :
    m.Agrees m' ↔ m.Coincides m' ∨ m'.Coincides m := by
  -- the twelve ordered pairs of kinds come down to six
  have hcomm : m.Agrees m' ↔ m'.Agrees m := ⟨Agrees.symm, Agrees.symm⟩
  cases m with
  | commit b p hash =>
      cases m' with
      | commit => exact absurd rfl hkind
      | order o => rw [hcomm, order_agrees_commit_iff]; exact (or_iff_right id).symm
      | batchComplete =>
          rw [hcomm, batchComplete_agrees_commit_iff]
          exact (or_iff_right id).symm
      | settlementReport =>
          simp only [Coincides, or_self, iff_false]
          exact not_commit_agrees_report
  | order o =>
      cases m' with
      | commit => rw [order_agrees_commit_iff]; exact (or_iff_left id).symm
      | order => exact absurd rfl hkind
      | batchComplete => exact (or_iff_left id).symm
      | settlementReport => rw [order_agrees_report_iff]; exact (or_iff_left id).symm
  | batchComplete b p symbol price volume count =>
      cases m' with
      | commit => rw [batchComplete_agrees_commit_iff]; exact (or_iff_left id).symm
      | order o => rw [hcomm]; exact (or_iff_right id).symm
      | batchComplete => exact absurd rfl hkind
      | settlementReport => rw [batchComplete_agrees_report_iff]; exact (or_iff_left id).symm
  | settlementReport b matchHash settled bailer =>
      cases m' with
      | commit =>
          rw [hcomm]
          simp only [Coincides, or_self, iff_false]
          exact not_commit_agrees_report
      | order o => rw [hcomm, order_agrees_report_iff]; exact (or_iff_right id).symm
      | batchComplete =>
          rw [hcomm, batchComplete_agrees_report_iff]
          exact (or_iff_right id).symm
      | settlementReport => exact absurd rfl hkind

/-- **Messages of different kinds are signed over the same bytes exactly in the listed
cases.** -/
theorem bytes_eq_iff [Externals] {m m' : SignedData} {bs bs' : Bytes} (hkind : m.kind ≠ m'.kind)
    (hm : m.bytes = some bs) (hm' : m'.bytes = some bs') :
    bs = bs' ↔ m.Coincides m' ∨ m'.Coincides m := by
  rw [bytes_layout hm, bytes_layout hm', toLeBytes_append_inj]
  exact agrees_iff hkind

/-! ### A symbol of seven bytes -/

/-- BCS alone; nothing is signed. -/
@[reducible] def emptyReference : Externals := referenceExternals []

section

attribute [local instance] emptyReference

/-- One fill of EMM/KAY in batch 7. -/
def completed : SignedData := .batchComplete 7 0 [69, 77, 77, 47, 75, 65, 89] 10 5 1

/-- A commit whose hash is the rest of the bytes signed for it. -/
def lookalike : SignedData :=
  .commit 7 0 #v[7, 69, 77, 77, 47, 75, 65, 89, 10, 0, 0, 0, 0, 0, 0, 0,
    5, 0, 0, 0, 0, 0, 0, 0, 1, 0, 0, 0, 0, 0, 0, 0]

/-- The signature under the `BatchComplete` is a signature under the commit. -/
theorem completed_bytes_eq_lookalike :
    ∃ bs bs', completed.bytes = some bs ∧ lookalike.bytes = some bs' ∧ bs = bs' := by
  have hsome : completed.bytes.isSome := by decide +kernel
  obtain ⟨bs, hbs⟩ := Option.isSome_iff_exists.mp hsome
  have hkind : completed.kind ≠ lookalike.kind := by decide
  have hcoincide : completed.Coincides lookalike :=
    ⟨rfl, rfl, rfl, by decide +kernel⟩
  exact ⟨bs, _, hbs, rfl, (bytes_eq_iff hkind hbs rfl).mpr (Or.inl hcoincide)⟩

/-- So the kinds are not told apart by their bytes. -/
theorem kinds_not_separated :
    ¬ ∀ (m m' : SignedData) (bs bs' : Bytes), m.kind ≠ m'.kind → m.bytes = some bs →
      m'.bytes = some bs' → bs ≠ bs' := by
  intro h
  refine h completed lookalike (completed.bytes.getD []) (lookalike.bytes.getD []) ?_ ?_ ?_ ?_
  all_goals decide +kernel

end

end SignedData
