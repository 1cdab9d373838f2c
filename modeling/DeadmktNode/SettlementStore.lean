/-
# The settlements in storage

The node keeps its settlements in a table whose primary key is the hash of the match.  A
settlement is inserted as pending, an update writes its status, and after a crash those that are
pending or submitted are taken up again.  An insert replaces the row of its match and with it the
status.  So a settlement that was confirmed is taken up again as soon as it is inserted again,
and only then (`settled_iff`).
-/
import DeadmktNode.Bcs
import DeadmktNode.KeyedTable
import DeadmktNode.Runs

/-- A row of the table `settlements`. -/
structure SettlementRecord where
  matchHash : Bytes
  batchId : UInt64
  poolId : UInt64
  buyerNftId : UInt64
  sellerNftId : UInt64
  symbol : String
  fillQuantity : UInt64
  settlementPrice : UInt64
  outflowToken : String
  outflowAmount : UInt64
  inflowToken : String
  inflowAmount : UInt64
  txHash : Option String
  isGasPayer : Bool
  status : String
  abortCode : Option String
  submittedAt : Option UInt64
  confirmedAt : Option UInt64
  createdAt : UInt64
deriving DecidableEq, Repr

/-- What the node knows of a settlement that it inserts. -/
structure NewSettlement where
  matchHash : Bytes
  batchId : UInt64
  poolId : UInt64
  buyerNftId : UInt64
  sellerNftId : UInt64
  symbol : String
  fillQuantity : UInt64
  settlementPrice : UInt64
  outflowToken : String
  outflowAmount : UInt64
  inflowToken : String
  inflowAmount : UInt64
  isGasPayer : Bool
deriving DecidableEq, Repr

/-- The row of a new settlement: the columns that are not inserted have their defaults. -/
def NewSettlement.record (s : NewSettlement) (now : UInt64) : SettlementRecord where
  matchHash := s.matchHash
  batchId := s.batchId
  poolId := s.poolId
  buyerNftId := s.buyerNftId
  sellerNftId := s.sellerNftId
  symbol := s.symbol
  fillQuantity := s.fillQuantity
  settlementPrice := s.settlementPrice
  outflowToken := s.outflowToken
  outflowAmount := s.outflowAmount
  inflowToken := s.inflowToken
  inflowAmount := s.inflowAmount
  txHash := none
  isGasPayer := s.isGasPayer
  status := "pending"
  abortCode := none
  submittedAt := none
  confirmedAt := none
  createdAt := now

/-- The row after an update; the transaction and the times stay where none is given. -/
def SettlementRecord.withStatus (r : SettlementRecord) (status : String)
    (txHash abortCode : Option String) (submittedAt confirmedAt : Option UInt64) :
    SettlementRecord :=
  { r with
    status
    txHash := txHash.or r.txHash
    abortCode
    submittedAt := submittedAt.or r.submittedAt
    confirmedAt := confirmedAt.or r.confirmedAt }

theorem SettlementRecord.matchHash_withStatus (r : SettlementRecord) (status : String)
    (txHash abortCode : Option String) (submittedAt confirmedAt : Option UInt64) :
    (r.withStatus status txHash abortCode submittedAt confirmedAt).matchHash = r.matchHash := rfl

/-- The table `settlements`.  A `u64` is stored as the `i64` with its bits. -/
abbrev SettlementTable := KeyedTable SettlementRecord.matchHash

namespace SettlementTable

def insertSettlement (db : SettlementTable) (s : NewSettlement) (now : UInt64) :
    SettlementTable :=
  db.insertOrReplace (s.record now)

/-- Write the status of a settlement, and when it was submitted or confirmed. -/
def updateSettlementStatus (db : SettlementTable) (matchHash : Bytes) (status : String)
    (txHash abortCode : Option String) (now : UInt64) : SettlementTable :=
  let submittedAt := if status = "submitted" then some now else none
  let confirmedAt := if status = "confirmed" then some now else none
  db.update matchHash (fun r => r.withStatus status txHash abortCode submittedAt confirmedAt)
    fun r => r.matchHash_withStatus status txHash abortCode submittedAt confirmedAt

/-- The settlements to take up after a crash, the oldest first. -/
def getPendingSettlementsV2 (db : SettlementTable) : List SettlementRecord :=
  db.select (fun r => r.status = "pending" || r.status = "submitted")
    (fun r r' => r.createdAt.toInt64 ≤ r'.createdAt.toInt64)

/-- The status of a match. -/
def status? (db : SettlementTable) (matchHash : Bytes) : Option String :=
  (db.find? matchHash).map SettlementRecord.status

section

variable {db : SettlementTable} {h h' : Bytes}

theorem status?_insertSettlement_self {s : NewSettlement} {now : UInt64} :
    (db.insertSettlement s now).status? s.matchHash = some "pending" := by
  have hrow : (db.insertSettlement s now).find? s.matchHash = some (s.record now) :=
    KeyedTable.find?_insertOrReplace_self
  rw [status?, hrow]
  rfl

theorem status?_insertSettlement_of_ne {s : NewSettlement} {now : UInt64}
    (hne : h ≠ s.matchHash) : (db.insertSettlement s now).status? h = db.status? h := by
  have hrow : (db.insertSettlement s now).find? h = db.find? h :=
    KeyedTable.find?_insertOrReplace_of_ne hne
  rw [status?, hrow]
  rfl

theorem status?_update_self {status : String} {txHash abortCode : Option String}
    {now : UInt64} : (db.updateSettlementStatus h status txHash abortCode now).status? h
      = (db.status? h).map fun _ => status := by
  rw [status?, updateSettlementStatus, KeyedTable.find?_update_self, status?, Option.map_map,
    Option.map_map]
  rfl

theorem status?_update_of_ne {status : String} {txHash abortCode : Option String}
    {now : UInt64} (hne : h' ≠ h) :
    (db.updateSettlementStatus h status txHash abortCode now).status? h' = db.status? h' := by
  rw [status?, updateSettlementStatus, KeyedTable.find?_update_of_ne hne]
  rfl

/-- A match is taken up after a crash exactly if it is pending or submitted. -/
theorem exists_mem_getPendingSettlementsV2_iff :
    (∃ r ∈ db.getPendingSettlementsV2, r.matchHash = h) ↔
      db.status? h = some "pending" ∨ db.status? h = some "submitted" := by
  simp only [getPendingSettlementsV2, KeyedTable.mem_select, status?, Option.map_eq_some_iff,
    Bool.or_eq_true, decide_eq_true_eq]
  constructor
  · rintro ⟨r, ⟨hr, hstatus | hstatus⟩, rfl⟩
    · exact .inl ⟨r, hr, hstatus⟩
    · exact .inr ⟨r, hr, hstatus⟩
  · rintro (⟨r, hr, hstatus⟩ | ⟨r, hr, hstatus⟩)
    · obtain rfl := KeyedTable.key_of_find? hr
      exact ⟨r, ⟨hr, .inl hstatus⟩, rfl⟩
    · obtain rfl := KeyedTable.key_of_find? hr
      exact ⟨r, ⟨hr, .inr hstatus⟩, rfl⟩

end

/-! ## Calls, one after another -/

/-- A call, with the time at which it is made. -/
inductive StorageCall where
  | insertSettlement (s : NewSettlement) (now : UInt64)
  | updateSettlementStatus (matchHash : Bytes) (status : String)
      (txHash abortCode : Option String) (now : UInt64)
deriving DecidableEq

def system : System SettlementTable StorageCall where
  step
    | db, .insertSettlement s now => some (db.insertSettlement s now)
    | db, .updateSettlementStatus matchHash status txHash abortCode now =>
        some (db.updateSettlementStatus matchHash status txHash abortCode now)

/-- An update with the status of the row before it, if there was one. -/
structure StatusUpdate where
  matchHash : Bytes
  before : Option String
  status : String
deriving DecidableEq

/-- The updates that are made. -/
def statusUpdate (db : SettlementTable) : StorageCall → Option StatusUpdate
  | .insertSettlement _ _ => none
  | .updateSettlementStatus matchHash status _ _ _ =>
      some ⟨matchHash, db.status? matchHash, status⟩

/-- A match that has a row is confirmed. -/
def Confirms (h : Bytes) (u : StatusUpdate) : Prop :=
  u.matchHash = h ∧ u.before ≠ none ∧ u.status = "confirmed"

/-- The status of a match that has a row becomes another one. -/
def Changes (h : Bytes) (u : StatusUpdate) : Prop :=
  u.matchHash = h ∧ u.before ≠ none ∧ u.before ≠ some u.status

/-- The match was confirmed, and no later update changed its status. -/
def Settled (h : Bytes) (updates : List StatusUpdate) : Prop :=
  Standing (Confirms h) (Changes h) updates

/-- No settled match is taken up after a crash. -/
def SettledStayAway (updates : List StatusUpdate) (db : SettlementTable) : Prop :=
  ∀ h, Settled h updates → ∀ r ∈ db.getPendingSettlementsV2, r.matchHash ≠ h

/-- What is inserted is not confirmed already. -/
def InsertsOpen (db : SettlementTable) : StorageCall → Prop
  | .insertSettlement s _ => db.status? s.matchHash ≠ some "confirmed"
  | .updateSettlementStatus .. => True

/-- Matches that are confirmed are settled; those that are settled are confirmed, or pending
again. -/
structure Recorded (updates : List StatusUpdate) (db : SettlementTable) : Prop where
  settled : ∀ h, db.status? h = some "confirmed" → Settled h updates
  status : ∀ h, Settled h updates →
    db.status? h = some "confirmed" ∨ db.status? h = some "pending"

section

variable {db : SettlementTable} {updates : List StatusUpdate} {h : Bytes}

/-- As long as the settled matches stay away they are confirmed. -/
theorem Recorded.settledStayAway_iff (hrecorded : Recorded updates db) :
    SettledStayAway updates db ↔ ∀ h, Settled h updates → db.status? h = some "confirmed" := by
  refine forall₂_congr fun h hsettled => ?_
  have haway : (∀ r ∈ db.getPendingSettlementsV2, r.matchHash ≠ h) ↔
      ¬ (db.status? h = some "pending" ∨ db.status? h = some "submitted") := by
    rw [← exists_mem_getPendingSettlementsV2_iff]
    simp only [not_exists, not_and, ne_eq]
  rw [haway]
  rcases hrecorded.status h hsettled with hconfirmed | hpending
  · exact iff_of_true (by simp [hconfirmed]) hconfirmed
  · exact iff_of_false (by simp [hpending]) (by simp [hpending])

/-- An insert makes a match pending and leaves the others. -/
theorem Recorded.insert (hrecorded : Recorded updates db) (s : NewSettlement) (now : UInt64) :
    Recorded updates (db.insertSettlement s now) := by
  constructor
  · intro h hconfirmed
    by_cases hh : h = s.matchHash
    · rw [hh, status?_insertSettlement_self] at hconfirmed
      exact absurd hconfirmed (by decide)
    · rw [status?_insertSettlement_of_ne hh] at hconfirmed
      exact hrecorded.settled h hconfirmed
  · intro h hsettled
    by_cases hh : h = s.matchHash
    · rw [hh, status?_insertSettlement_self]
      exact .inr rfl
    · rw [status?_insertSettlement_of_ne hh]
      exact hrecorded.status h hsettled

/-- Where no update of a match is made, it stays settled or not. -/
theorem settled_snoc_of_ne {u : StatusUpdate} (hne : h ≠ u.matchHash) :
    Settled h (updates ++ [u]) ↔ Settled h updates := by
  rw [Settled, standing_snoc]
  constructor
  · rintro (hon | ⟨hsettled, -⟩)
    · exact absurd hon.1.symm hne
    · exact hsettled
  · intro hsettled
    exact .inr ⟨hsettled, fun hoff => hne hoff.1.symm⟩

/-- After an update of a match that has a row, the match is settled exactly if it is confirmed now,
or was settled and has kept its status. -/
theorem settled_snoc_self {status old : String} :
    Settled h (updates ++ [⟨h, some old, status⟩]) ↔
      status = "confirmed" ∨ Settled h updates ∧ old = status := by
  rw [Settled, standing_snoc]
  simp [Confirms, Changes, Settled]

/-- An update of a match without a row settles nothing. -/
theorem settled_snoc_none {status : String} :
    Settled h (updates ++ [⟨h, none, status⟩]) ↔ Settled h updates := by
  rw [Settled, standing_snoc]
  simp [Confirms, Changes, Settled]

/-- A match that is settled after an update is confirmed by it, or was settled and has kept its
status. -/
theorem status?_of_settled_update {status : String} {txHash abortCode : Option String}
    {now : UInt64} {h' : Bytes} (hsettled : Settled h' (updates ++ [⟨h, db.status? h, status⟩])) :
    (db.updateSettlementStatus h status txHash abortCode now).status? h' = some "confirmed" ∨
      Settled h' updates ∧
        (db.updateSettlementStatus h status txHash abortCode now).status? h' = db.status? h' := by
  by_cases hh : h' = h
  · subst hh
    rw [status?_update_self]
    cases hold : db.status? h' with
    | none =>
        rw [hold, settled_snoc_none] at hsettled
        exact .inr ⟨hsettled, rfl⟩
    | some old =>
        rw [hold, settled_snoc_self] at hsettled
        rcases hsettled with rfl | ⟨hsettled, rfl⟩
        · exact .inl rfl
        · exact .inr ⟨hsettled, rfl⟩
  · exact .inr ⟨(settled_snoc_of_ne hh).mp hsettled, status?_update_of_ne hh⟩

/-- An update preserves the record. -/
theorem Recorded.update (hrecorded : Recorded updates db) (h : Bytes) (status : String)
    (txHash abortCode : Option String) (now : UInt64) :
    Recorded (updates ++ [⟨h, db.status? h, status⟩])
      (db.updateSettlementStatus h status txHash abortCode now) := by
  constructor
  · intro h' hconfirmed
    by_cases hh : h' = h
    · subst hh
      rw [status?_update_self] at hconfirmed
      cases hold : db.status? h' with
      | none =>
          rw [hold] at hconfirmed
          cases hconfirmed
      | some old =>
          rw [hold] at hconfirmed
          exact settled_snoc_self.mpr (.inl (Option.some.inj hconfirmed))
    · rw [status?_update_of_ne hh] at hconfirmed
      exact (settled_snoc_of_ne hh).mpr (hrecorded.settled h' hconfirmed)
  · intro h' hsettled
    rcases status?_of_settled_update hsettled with hconfirmed | ⟨hsettled, hkept⟩
    · exact .inl hconfirmed
    · rw [hkept]
      exact hrecorded.status h' hsettled

/-- An update keeps the settled matches away. -/
theorem SettledStayAway.update (haway : SettledStayAway updates db)
    (hrecorded : Recorded updates db) (h : Bytes) (status : String)
    (txHash abortCode : Option String) (now : UInt64) :
    SettledStayAway (updates ++ [⟨h, db.status? h, status⟩])
      (db.updateSettlementStatus h status txHash abortCode now) := by
  rw [hrecorded.settledStayAway_iff] at haway
  rw [(hrecorded.update h status txHash abortCode now).settledStayAway_iff]
  intro h' hsettled
  rcases status?_of_settled_update hsettled with hconfirmed | ⟨hsettled, hkept⟩
  · exact hconfirmed
  · rw [hkept]
    exact haway h' hsettled

/-- After an insert the settled matches stay away exactly if the inserted one is not confirmed. -/
theorem SettledStayAway.insert_iff (haway : SettledStayAway updates db)
    (hrecorded : Recorded updates db) (s : NewSettlement) (now : UInt64) :
    SettledStayAway updates (db.insertSettlement s now) ↔
      db.status? s.matchHash ≠ some "confirmed" := by
  rw [hrecorded.settledStayAway_iff] at haway
  rw [(hrecorded.insert s now).settledStayAway_iff]
  constructor
  · intro haway' hconfirmed
    have hstatus := haway' s.matchHash (hrecorded.settled _ hconfirmed)
    rw [status?_insertSettlement_self] at hstatus
    exact absurd hstatus (by decide)
  · intro hopen h hsettled
    by_cases hh : h = s.matchHash
    · subst hh
      exact absurd (haway _ hsettled) hopen
    · rw [status?_insertSettlement_of_ne hh]
      exact haway h hsettled

end

/-- Nothing is recorded of an empty table. -/
theorem recorded_empty : Recorded [] KeyedTable.empty where
  settled := nofun
  status _ hsettled := absurd hsettled not_standing_nil

/-- Every call can be made. -/
theorem exists_run (db : SettlementTable) (calls : List StorageCall) :
    ∃ db', system.run db calls = some db' := by
  induction calls generalizing db with
  | nil => exact ⟨db, rfl⟩
  | cons call calls ih => cases call <;> exact ih _

/-- **A finished settlement stays finished.**  In every sequence of calls, a match that was
confirmed, and whose status no later update changed, is never taken up after a crash, if and only
if no match is inserted whose row is confirmed. -/
theorem settled_iff (calls : List StorageCall) :
    system.Throughout statusUpdate SettledStayAway [] KeyedTable.empty calls ↔
      system.Follows InsertsOpen KeyedTable.empty calls := by
  obtain ⟨last, hrun⟩ := exists_run KeyedTable.empty calls
  have hempty : SettledStayAway [] KeyedTable.empty :=
    fun _ hsettled => absurd hsettled not_standing_nil
  refine system.throughout_iff statusUpdate (J := Recorded) ?_ ?_ recorded_empty hempty hrun
  · intro updates db call db' hrecorded hstep
    cases call with
    | insertSettlement s now =>
        obtain rfl := Option.some.inj hstep
        rw [statusUpdate, Option.toList_none, List.append_nil]
        exact hrecorded.insert s now
    | updateSettlementStatus h status txHash abortCode now =>
        obtain rfl := Option.some.inj hstep
        exact hrecorded.update h status txHash abortCode now
  · intro updates db call db' hrecorded haway hstep
    cases call with
    | insertSettlement s now =>
        obtain rfl := Option.some.inj hstep
        rw [statusUpdate, Option.toList_none, List.append_nil]
        exact haway.insert_iff hrecorded s now
    | updateSettlementStatus h status txHash abortCode now =>
        obtain rfl := Option.some.inj hstep
        exact iff_of_true (haway.update hrecorded h status txHash abortCode now) trivial

/-! ## A confirmed match comes back -/

/-- A match of batch 100. -/
def sampleSettlement : NewSettlement :=
  ⟨[204], 100, 3, 42, 99, "EMM/KAY", 5000, 4900000, "KAY", 250, "EMM", 5000, true⟩

/-- It is confirmed, and inserted once more after a restart. -/
def insertedAgain : List StorageCall :=
  [.insertSettlement sampleSettlement 1000,
    .updateSettlementStatus [204] "confirmed" (some "0xTX") none 1010,
    .insertSettlement sampleSettlement 1020]

/-- The match that is inserted once more is pending again. -/
theorem confirmed_comes_back : ¬ ∀ calls : List StorageCall,
    system.Throughout statusUpdate SettledStayAway [] KeyedTable.empty calls := by
  intro h
  obtain ⟨last, hrun⟩ := exists_run KeyedTable.empty insertedAgain
  have hstatus : last.status? [204] = some "pending" := by
    obtain rfl := Option.some.inj hrun
    exact status?_insertSettlement_self
  have hshown : system.trace statusUpdate KeyedTable.empty insertedAgain
      = [⟨[204], some "pending", "confirmed"⟩] := by decide
  have hsettled : Settled [204] (system.trace statusUpdate KeyedTable.empty insertedAgain) := by
    rw [hshown]
    exact ⟨[], _, [], rfl, ⟨rfl, nofun, rfl⟩, nofun⟩
  obtain ⟨r, hr, hhash⟩ := exists_mem_getPendingSettlementsV2_iff.mpr (.inl hstatus)
  exact h insertedAgain insertedAgain List.prefix_rfl last hrun [204] hsettled r hr hhash

end SettlementTable
