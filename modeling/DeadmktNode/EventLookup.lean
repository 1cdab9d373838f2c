/-
# Whose match does a settlement event confirm?

An event is looked up under its trade id, and if no match is pending there, by batch, both
NFTs and base amount.  The symbol and the order hashes that the event carries are not read:
an event of another trade between the same two NFTs confirms our match.  It confirms its own
trade, in every iteration order of the map, exactly when its trade id is pending or the
pending matches that agree on the four fields are at most one and named by the event.
-/
import DeadmktNode.PendingInStep

open List

/-! ## The first hit in any order -/

section

variable {α : Type*} {l : List α} {p : α → Bool}

/-- An element can be moved to the front, so every hit is the first one in some order. -/
theorem exists_perm_find?_eq [DecidableEq α] {a : α} (ha : a ∈ l) (hp : p a = true) :
    ∃ order, order ~ l ∧ order.find? p = some a :=
  ⟨a :: l.erase a, (List.perm_cons_erase ha).symm, List.find?_cons_of_pos hp⟩

/-- With at most one hit the order does not matter. -/
theorem find?_eq_of_perm (hone : ∀ a ∈ l, ∀ b ∈ l, p a = true → p b = true → a = b)
    {order order' : List α} (h : order ~ l) (h' : order' ~ l) :
    order.find? p = order'.find? p := by
  have hmem : ∀ {order : List α} {a : α}, order ~ l → order.find? p = some a → a ∈ l :=
    fun h ha => h.mem_iff.mp (List.mem_of_find?_eq_some ha)
  cases ha : order.find? p with
  | none =>
      symm
      rw [List.find?_eq_none] at ha ⊢
      intro b hb
      exact ha b (h.mem_iff.mpr (h'.mem_iff.mp hb))
  | some a =>
      have hsome : (order'.find? p).isSome := by
        rw [List.find?_isSome]
        exact ⟨a, h'.mem_iff.mpr (hmem h ha), List.find?_some ha⟩
      obtain ⟨b, hb⟩ := Option.isSome_iff_exists.mp hsome
      rw [hb, hone a (hmem h ha) b (hmem h' hb) (List.find?_some ha) (List.find?_some hb)]

end

namespace SettlementManager

/-! ## The pending map is keyed by match hash -/

/-- A pending match is stored under its own hash. -/
def KeyedByHash [HexCrate] (mgr : SettlementManager) : Prop :=
  ∀ key ps, mgr.pending.lookup key = some ps → ps.m.hashHex = key

/-- What is pending in `mgr'` was pending in `mgr`. -/
def PendingFrom (mgr mgr' : SettlementManager) : Prop :=
  ∀ key ps', mgr'.pending.lookup key = some ps' →
    ∃ ps, mgr.pending.lookup key = some ps ∧ ps'.m = ps.m

/-- Nothing is dropped. -/
theorem pendingFrom_of_eq {mgr mgr' : SettlementManager} (h : mgr'.pending = mgr.pending) :
    mgr.PendingFrom mgr' :=
  fun key ps' hps' => ⟨ps', by rw [← h, hps'], rfl⟩

/-- Matches that are dropped leave the others as they were. -/
theorem pendingFrom_of_dropped {mgr mgr' : SettlementManager} {p : String → Prop}
    [DecidablePred p]
    (h : ∀ key, mgr'.pending.lookup key = if p key then none else mgr.pending.lookup key) :
    mgr.PendingFrom mgr' := by
  intro key ps' hps'
  rw [h] at hps'
  split_ifs at hps'
  exact ⟨ps', hps', rfl⟩

/-- A release drops one match. -/
theorem pendingFrom_releasePendingInternal (mgr : SettlementManager) (matchHash : String) :
    mgr.PendingFrom (mgr.releasePendingInternal matchHash) :=
  pendingFrom_of_dropped fun key => lookup_releasePendingInternal mgr matchHash key

/-- An abort drops the match or keeps it. -/
theorem pendingFrom_onSettlementFailed (mgr : SettlementManager) (matchHash : String)
    (code : AbortCode) : mgr.PendingFrom (mgr.onSettlementFailed matchHash code).2 := by
  cases code with
  | alreadySettled => exact pendingFrom_of_eq rfl
  | insufficientBalance => exact pendingFrom_of_eq rfl
  | _ => exact pendingFrom_releasePendingInternal (mgr.countAttempt _) matchHash

/-- A report changes at most the state of a match, not the match. -/
theorem pendingFrom_processResult (mgr : SettlementManager) (r : SettleResult) :
    mgr.PendingFrom (mgr.processResult r).2 := by
  cases r with
  | submitted matchHash txHash =>
      intro key ps' h
      replace h : (mgr.pending.modify matchHash _).lookup key = some ps' := h
      by_cases hkey : key = matchHash
      · subst hkey
        rw [AList.lookup_modify] at h
        obtain ⟨ps, hps, rfl⟩ := Option.map_eq_some_iff.mp h
        exact ⟨ps, hps, rfl⟩
      · rw [AList.lookup_modify_ne _ _ hkey] at h
        exact ⟨ps', h, rfl⟩
  | alreadySettled matchHash => exact mgr.pendingFrom_onSettlementFailed matchHash .alreadySettled
  | failed matchHash code => exact mgr.pendingFrom_onSettlementFailed matchHash code
  | rpcError => exact pendingFrom_of_eq rfl

/-- A confirmation drops the match that is found. -/
theorem pendingFrom_onSettlementConfirmed (mgr : SettlementManager) (order : List String)
    (event : BatchTradeSettledEvent) :
    mgr.PendingFrom (mgr.onSettlementConfirmed order event).2 := by
  unfold onSettlementConfirmed
  cases mgr.findPendingForEvent order event with
  | none => exact pendingFrom_of_eq rfl
  | some found =>
      refine pendingFrom_of_dropped (p := (· = found)) fun key => ?_
      show (mgr.pending.erase found).lookup key = _
      split_ifs with hkey
      · rw [hkey, AList.lookup_erase]
      · rw [AList.lookup_erase_ne hkey]

/-- What is pending after a registration: what was pending before, or the new match. -/
theorem pending_of_registerMatch [HexCrate] {mgr : SettlementManager} {args : MatchTerms}
    {result : Except SettlementError Unit × SettlementManager}
    (hreg : mgr.registerMatch args = some result) {key : String} {ps' : PendingSettlement}
    (h : result.2.pending.lookup key = some ps') :
    (∃ ps, mgr.pending.lookup key = some ps ∧ ps'.m = ps.m) ∨
      key = args.m.hashHex ∧ ps' = entryOf args := by
  rw [registerMatch_eq] at hreg
  split_ifs at hreg
  obtain rfl := Option.some.inj hreg
  generalize mgr.tracker.applyFlow args.m.hashHex (mgr.flowOf args) = r at h
  obtain ⟨e | _, tracker⟩ := r
  · exact .inl ⟨ps', h, rfl⟩
  · replace h : (mgr.pending.insert args.m.hashHex (entryOf args)).lookup key = some ps' := h
    by_cases hkey : key = args.m.hashHex
    · rw [hkey, AList.lookup_insert] at h
      exact .inr ⟨hkey, (Option.some.inj h).symm⟩
    · rw [AList.lookup_insert_ne hkey] at h
      exact .inl ⟨ps', h, rfl⟩

/-- Where the pending matches after a step come from: they were pending before, or the step
is their registration. -/
theorem pending_of_pendingStep [HexCrate] {mgr mgr' : SettlementManager} {input : PendingInput}
    (hstep : mgr.pendingStep input = some mgr') {key : String} {ps' : PendingSettlement}
    (h : mgr'.pending.lookup key = some ps') :
    (∃ ps, mgr.pending.lookup key = some ps ∧ ps'.m = ps.m) ∨
      ∃ args, input = .registerMatch args ∧ key = args.m.hashHex ∧ ps' = entryOf args := by
  -- only a registration makes an entry; the rest drop entries or change their state
  cases input with
  | registerMatch args =>
      obtain ⟨result, hreg, rfl⟩ := Option.map_eq_some_iff.mp hstep
      refine (pending_of_registerMatch hreg h).imp_right ?_
      rintro ⟨hkey, hentry⟩
      exact ⟨args, rfl, hkey, hentry⟩
  | registerSkipped matchHash reason =>
      obtain rfl := Option.some.inj hstep
      exact .inl (mgr.pendingFrom_releasePendingInternal matchHash key ps' h)
  | processResult r =>
      obtain rfl := Option.some.inj hstep
      exact .inl (mgr.pendingFrom_processResult r key ps' h)
  | onSettlementConfirmed order event =>
      obtain rfl := Option.some.inj hstep
      exact .inl (mgr.pendingFrom_onSettlementConfirmed order event key ps' h)
  | onSettlementFailed matchHash code =>
      obtain rfl := Option.some.inj hstep
      exact .inl (mgr.pendingFrom_onSettlementFailed matchHash code key ps' h)
  | expireStale b age =>
      obtain rfl := Option.some.inj hstep
      rw [expireStale, lookup_foldl_release] at h
      split_ifs at h
      exact .inl ⟨ps', h, rfl⟩
  | setConfirmed | earmarkWithdrawal | releaseEarmark =>
      obtain rfl := Option.some.inj hstep
      exact .inl ⟨ps', h, rfl⟩

/-- One step keeps the map keyed by match hash. -/
theorem KeyedByHash.pendingStep [HexCrate] {mgr mgr' : SettlementManager} {input : PendingInput}
    (h : mgr.KeyedByHash) (hstep : mgr.pendingStep input = some mgr') : mgr'.KeyedByHash := by
  intro key ps' hps'
  rcases pending_of_pendingStep hstep hps' with ⟨ps, hps, hm⟩ | ⟨args, -, rfl, rfl⟩
  · rw [hm]
    exact h key ps hps
  · rfl

/-- The map of every run is keyed by match hash. -/
theorem keyedByHash_run [HexCrate] {tracker : EscrowTracker} {own : UInt64}
    {inputs : List PendingInput} {mgr : SettlementManager}
    (hrun : pendingSystem.run (new tracker own) inputs = some mgr) : mgr.KeyedByHash := by
  refine pendingSystem.run_invariant (C := fun _ _ => True) (I := KeyedByHash)
    (fun s i s' hs _ hstep => hs.pendingStep hstep) ?_
    (pendingSystem.follows_of_forall (fun _ _ => trivial) _) hrun
  intro key ps h
  cases h

/-! ## What an event confirms -/

/-- The text of an event names an order hash: its hexadecimal digits, with or without `0x`. -/
def NamesHash [HexCrate] (text : String) (hash : Hash32) : Prop :=
  text = HexCrate.encode hash.toList ∨ text = "0x" ++ HexCrate.encode hash.toList

instance [HexCrate] (text : String) (hash : Hash32) : Decidable (NamesHash text hash) :=
  inferInstanceAs (Decidable (_ ∨ _))

/-- The event names the symbol and both orders of a pending match. -/
def NamesMatch [HexCrate] (event : BatchTradeSettledEvent) (ps : PendingSettlement) : Prop :=
  event.symbol = ps.m.symbol ∧ NamesHash event.buyerOrderHash ps.m.buyer.orderHash ∧
    NamesHash event.sellerOrderHash ps.m.seller.orderHash

instance [HexCrate] (event : BatchTradeSettledEvent) (ps : PendingSettlement) :
    Decidable (NamesMatch event ps) :=
  inferInstanceAs (Decidable (_ ∧ _))

/-- The pending map after an event, when the map is iterated in the order of the keys. -/
def pendingAfter (mgr : SettlementManager) (order : List String)
    (event : BatchTradeSettledEvent) : HashMap String PendingSettlement :=
  (mgr.onSettlementConfirmed order event).2.pending

/-- In every iteration order the event removes only a match that is its own, by its hash or
by its symbol and orders, and it removes the same one. -/
structure ConfirmsOwnTrade [HexCrate] (mgr : SettlementManager) (event : BatchTradeSettledEvent) :
    Prop where
  own : ∀ order, order ~ mgr.pending.keys → ∀ key ps, mgr.pending.lookup key = some ps →
    (mgr.pendingAfter order event).lookup key = none →
      event.tradeId = ps.m.hashHex ∨ NamesMatch event ps
  order_free : ∀ order order', order ~ mgr.pending.keys → order' ~ mgr.pending.keys →
    ∀ key, (mgr.pendingAfter order event).lookup key
      = (mgr.pendingAfter order' event).lookup key

/-- Do the four fields of the event agree with those of the match pending under a key? -/
def agreesAt (mgr : SettlementManager) (event : BatchTradeSettledEvent) (key : String) : Bool :=
  (mgr.pending.lookup key).any fun ps => fieldsMatch ps event

section

variable {mgr : SettlementManager} {event : BatchTradeSettledEvent}

/-- A match leaves the map when the lookup finds it, and only then. -/
theorem lookup_pendingAfter (order : List String) (key : String) :
    (mgr.pendingAfter order event).lookup key
      = if mgr.findPendingForEvent order event = some key then none
        else mgr.pending.lookup key := by
  unfold pendingAfter onSettlementConfirmed
  cases mgr.findPendingForEvent order event with
  | none => rfl
  | some k =>
      by_cases hk : key = k
      · subst hk
        rw [if_pos rfl]
        exact AList.lookup_erase _ _
      · rw [if_neg (fun h => hk (Option.some.inj h).symm)]
        exact AList.lookup_erase_ne hk

/-- Removed is exactly what the look-up finds. -/
theorem removed_iff {order : List String} {key : String} {ps : PendingSettlement}
    (h : mgr.pending.lookup key = some ps) :
    (mgr.pendingAfter order event).lookup key = none
      ↔ mgr.findPendingForEvent order event = some key := by
  rw [lookup_pendingAfter, h]
  split_ifs with hfind
  · simp [hfind]
  · simp [hfind]

/-- The trade id of the event comes first, if it is pending. -/
theorem findPendingForEvent_of_tradeId (h : (mgr.pending.lookup event.tradeId).isSome)
    (order : List String) : mgr.findPendingForEvent order event = some event.tradeId := by
  rw [findPendingForEvent, if_pos h]

/-- Otherwise the first match in the iteration order whose fields agree. -/
theorem findPendingForEvent_of_not_tradeId (h : ¬ (mgr.pending.lookup event.tradeId).isSome)
    (order : List String) :
    mgr.findPendingForEvent order event = order.find? (mgr.agreesAt event) := by
  rw [findPendingForEvent, if_neg h]
  rfl

/-- The test on a key is one on the match stored there. -/
theorem agreesAt_iff {key : String} :
    mgr.agreesAt event key = true
      ↔ ∃ ps, mgr.pending.lookup key = some ps ∧ fieldsMatch ps event = true := by
  rw [agreesAt, Option.any_eq_true]

/-- It succeeds on pending matches only. -/
theorem mem_keys_of_agreesAt {key : String} (h : mgr.agreesAt event key = true) :
    key ∈ mgr.pending.keys := by
  obtain ⟨ps, hps, -⟩ := agreesAt_iff.mp h
  exact AList.lookup_isSome.mp (by rw [hps]; rfl)

/-- An event confirms its own trade, in every iteration order, if and only if its trade id is
pending, or the pending matches that agree with it on batch, NFTs and amount are at most one
and named by the event. -/
theorem confirmsOwnTrade_iff [HexCrate] (hkeyed : mgr.KeyedByHash) :
    mgr.ConfirmsOwnTrade event ↔
      (mgr.pending.lookup event.tradeId).isSome ∨
        (∀ key ps, mgr.pending.lookup key = some ps → fieldsMatch ps event = true →
          NamesMatch event ps) ∧
        ∀ key key' ps ps', mgr.pending.lookup key = some ps →
          mgr.pending.lookup key' = some ps' → fieldsMatch ps event = true →
            fieldsMatch ps' event = true → key = key' := by
  by_cases htrade : (mgr.pending.lookup event.tradeId).isSome
  -- the lookup by trade id decides alone
  · refine iff_of_true ⟨?_, ?_⟩ (.inl htrade)
    · intro order _ key ps hps hgone
      left
      have hfind := (removed_iff hps).mp hgone
      rw [findPendingForEvent_of_tradeId htrade] at hfind
      rw [hkeyed key ps hps, Option.some.inj hfind]
    · intro order order' _ _ key
      rw [lookup_pendingAfter, lookup_pendingAfter, findPendingForEvent_of_tradeId htrade,
        findPendingForEvent_of_tradeId htrade]
  -- the fallback takes the first match that agrees, in the order of the map
  · rw [or_iff_right htrade]
    constructor
    · rintro ⟨hown, hfree⟩
      -- any match that agrees is the first one in some order
      have hfirst : ∀ key ps, mgr.pending.lookup key = some ps → fieldsMatch ps event = true →
          ∃ order, order ~ mgr.pending.keys ∧
            mgr.findPendingForEvent order event = some key := by
        intro key ps hps hfields
        have hagree : mgr.agreesAt event key = true := agreesAt_iff.mpr ⟨ps, hps, hfields⟩
        obtain ⟨order, horder, hfind⟩ :=
          exists_perm_find?_eq (mem_keys_of_agreesAt hagree) hagree
        exact ⟨order, horder, (findPendingForEvent_of_not_tradeId htrade order).trans hfind⟩
      constructor
      · intro key ps hps hfields
        obtain ⟨order, horder, hfind⟩ := hfirst key ps hps hfields
        rcases hown order horder key ps hps ((removed_iff hps).mpr hfind) with hid | hnames
        · rw [hid, hkeyed key ps hps, hps] at htrade
          exact absurd rfl htrade
        · exact hnames
      · intro key key' ps ps' hps hps' hfields hfields'
        obtain ⟨order, horder, hfind⟩ := hfirst key ps hps hfields
        obtain ⟨order', horder', hfind'⟩ := hfirst key' ps' hps' hfields'
        have hgone : (mgr.pendingAfter order' event).lookup key = none := by
          rw [← hfree order order' horder horder' key]
          exact (removed_iff hps).mpr hfind
        have hsame := (removed_iff hps).mp hgone
        rw [hfind'] at hsame
        exact (Option.some.inj hsame).symm
    · rintro ⟨hnames, hone⟩
      constructor
      · intro order _ key ps hps hgone
        right
        have hfind := (removed_iff hps).mp hgone
        rw [findPendingForEvent_of_not_tradeId htrade] at hfind
        obtain ⟨ps', hps', hfields⟩ := agreesAt_iff.mp (List.find?_some hfind)
        exact hnames key ps hps (Option.some.inj (hps'.symm.trans hps) ▸ hfields)
      · intro order order' horder horder' key
        have hsame : order.find? (mgr.agreesAt event) = order'.find? (mgr.agreesAt event) := by
          refine find?_eq_of_perm (fun a _ b _ ha hb => ?_) horder horder'
          obtain ⟨ps, hps, hfields⟩ := agreesAt_iff.mp ha
          obtain ⟨ps', hps', hfields'⟩ := agreesAt_iff.mp hb
          exact hone a b ps ps' hps hps' hfields hfields'
        rw [lookup_pendingAfter, lookup_pendingAfter, findPendingForEvent_of_not_tradeId htrade,
          findPendingForEvent_of_not_tradeId htrade, hsame]

end

/-! ### The trade of another market -/

section

attribute [local instance] sampleExternals

/-- NFT 2 has registered its buy of 5 `EMM`. -/
def buyerManager : SettlementManager :=
  (pendingSystem.run (new .new 2)
    [.setConfirmed "KAY" 100, .registerMatch (sampleSwap.terms 2 sampleMatch)]).getD (new .new 2)

/-- The same two NFTs also traded 5 of `ABC` in the batch. -/
def otherMarket : BatchTradeSettledEvent :=
  { sampleSettled with
    tradeId := "0xabc"
    symbol := [65, 66, 67, 47, 75, 65, 89]
    buyerOrderHash := "0x01"
    sellerOrderHash := "0x02" }

/-- The manager of a buyer with one pending match. -/
theorem buyerManager_run : pendingSystem.run (new .new 2)
    [.setConfirmed "KAY" 100, .registerMatch (sampleSwap.terms 2 sampleMatch)]
      = some buyerManager :=
  System.run_eq_some_getD _ (by decide +kernel)

/-- With its own event the buy is confirmed as its own trade. -/
theorem buyerManager_confirmsOwnTrade : buyerManager.ConfirmsOwnTrade sampleSettled :=
  (confirmsOwnTrade_iff (keyedByHash_run buyerManager_run)).mpr (.inl (by decide +kernel))

/-- The event of the other market removes the buy of `EMM`. -/
theorem other_market_confirms_buy :
    ¬ ∀ (mgr : SettlementManager) (event : BatchTradeSettledEvent), mgr.KeyedByHash →
      mgr.ConfirmsOwnTrade event := by
  intro h
  obtain ⟨hown, -⟩ := h buyerManager otherMarket (keyedByHash_run buyerManager_run)
  obtain ⟨hgone, hmap⟩ :
      (buyerManager.pendingAfter buyerManager.pending.keys otherMarket).lookup
          sampleMatch.hashHex = none ∧
        (buyerManager.pending.lookup sampleMatch.hashHex).map PendingSettlement.m
          = some sampleMatch := by
    decide +kernel
  obtain ⟨ps, hps, hm⟩ := Option.map_eq_some_iff.mp hmap
  have hcase := hown _ (List.Perm.refl _) _ ps hps hgone
  rw [NamesMatch, hm] at hcase
  revert hcase
  decide +kernel

end

end SettlementManager
