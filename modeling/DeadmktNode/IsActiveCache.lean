/-
# The cache of active NFTs

Observations of whether an NFT is active, kept for a while and in bounded number.  A full cache
makes room for a new NFT by dropping its oldest observation.  What is held is read off the
history of the cache alone: the last observation of every NFT that was neither invalidated nor
dropped since (`lookup_iff_heldSince`).  Times are those of one clock, in nanoseconds.
-/
import DeadmktNode.HashMap
import DeadmktNode.Runs
import Mathlib.Data.List.MinMax

/-- An observation and its time. -/
structure CacheEntry where
  isActive : Bool
  fetchedAt : ℕ
deriving DecidableEq

/-- The cache has room for at least one entry. -/
structure IsActiveCache where
  entries : HashMap UInt64 CacheEntry
  ttl : ℕ
  maxEntries : ℕ
  pos : 0 < maxEntries

namespace IsActiveCache

/-! ## Operations -/

/-- An empty cache, with room for one entry at least. -/
def new (ttl maxEntries : ℕ) : IsActiveCache where
  entries := ∅
  ttl := ttl
  maxEntries := max maxEntries 1
  pos := by omega

/-- The value of an entry that is younger than its time to live. -/
def get (c : IsActiveCache) (now : ℕ) (nftId : UInt64) : Option Bool :=
  (c.entries.lookup nftId).bind fun e => if now - e.fetchedAt < c.ttl then some e.isActive else none

/-- The number of entries. -/
def len (c : IsActiveCache) : ℕ := c.entries.keys.length

/-- The time of an entry. -/
def entryTime (e : Σ _ : UInt64, CacheEntry) : ℕ := e.2.fetchedAt

/-- The key of the first entry, in the order of iteration, that has the smallest time. -/
def oldest (entries : List (Σ _ : UInt64, CacheEntry)) : Option UInt64 :=
  (entries.argmin entryTime).map Sigma.fst

/-- The entries after room is made for a key: a full cache drops its oldest entry for a new
key. -/
def makeRoom (c : IsActiveCache) (nftId : UInt64) : HashMap UInt64 CacheEntry :=
  if c.maxEntries ≤ c.len ∧ nftId ∉ c.entries then
    match oldest c.entries.entries with
    | some key => c.entries.erase key
    | none => c.entries
  else c.entries

/-- Record an observation. -/
def insert (c : IsActiveCache) (now : ℕ) (nftId : UInt64) (isActive : Bool) : IsActiveCache :=
  { c with entries := (c.makeRoom nftId).insert nftId ⟨isActive, now⟩ }

/-- The next look at the key finds nothing. -/
def invalidate (c : IsActiveCache) (nftId : UInt64) : IsActiveCache :=
  { c with entries := c.entries.erase nftId }

/-- The keys that are held before and not after an operation. -/
def lost (c c' : IsActiveCache) : List UInt64 := c.entries.keys.filter (· ∉ c'.entries.keys)

/-! ## Making room -/

section

variable {c : IsActiveCache} {nftId : UInt64}

/-- A cache that is not empty has an oldest entry. -/
theorem exists_oldest (h : 0 < c.len) : ∃ key e, oldest c.entries.entries = some key ∧
    c.entries.lookup key = some e ∧
      ∀ k e', c.entries.lookup k = some e' → e.fetchedAt ≤ e'.fetchedAt := by
  have hne : c.entries.entries ≠ [] := by
    intro hnil
    rw [len, AList.keys, hnil] at h
    exact absurd h (lt_irrefl 0)
  obtain ⟨⟨key, e⟩, hmin⟩ := Option.ne_none_iff_exists'.mp
    (mt (List.argmin_eq_none (f := entryTime)).mp hne)
  refine ⟨key, e, by rw [oldest, hmin]; rfl, ?_, fun k e' hk => ?_⟩
  · exact AList.mem_lookup_iff.mpr (List.argmin_mem hmin)
  · exact List.le_of_mem_argmin (f := entryTime) (AList.mem_lookup_iff.mp hk) hmin

/-- Room is made by dropping the oldest entry of a full cache for a new key, or is there. -/
theorem makeRoom_cases (c : IsActiveCache) (nftId : UInt64) :
    (c.maxEntries ≤ c.len ∧ nftId ∉ c.entries ∧ ∃ key e, c.entries.lookup key = some e ∧
        (∀ k e', c.entries.lookup k = some e' → e.fetchedAt ≤ e'.fetchedAt) ∧
        c.makeRoom nftId = c.entries.erase key) ∨
      (c.len < c.maxEntries ∨ nftId ∈ c.entries) ∧ c.makeRoom nftId = c.entries := by
  unfold makeRoom
  split_ifs with hfull
  · obtain ⟨key, e, hkey, hlookup, hmin⟩ := exists_oldest (c.pos.trans_le hfull.1)
    rw [hkey]
    exact .inl ⟨hfull.1, hfull.2, key, e, hlookup, hmin, rfl⟩
  · rw [not_and_or, not_le, not_not] at hfull
    exact .inr ⟨hfull, rfl⟩

/-- After an insertion the key has the new value, and the others are as room was made for it. -/
theorem lookup_insert (now : ℕ) (isActive : Bool) (k : UInt64) :
    (c.insert now nftId isActive).entries.lookup k
      = if k = nftId then some ⟨isActive, now⟩ else (c.makeRoom nftId).lookup k := by
  show ((c.makeRoom nftId).insert nftId ⟨isActive, now⟩).lookup k = _
  by_cases hk : k = nftId
  · rw [if_pos hk, hk, AList.lookup_insert]
  · rw [if_neg hk, AList.lookup_insert_ne hk]

/-- One more entry than there is room made for. -/
theorem len_insert (now : ℕ) (isActive : Bool) :
    (c.insert now nftId isActive).len = ((c.makeRoom nftId).keys.erase nftId).length + 1 := by
  show ((c.makeRoom nftId).insert nftId _).keys.length = _
  rw [AList.keys_insert, List.length_cons]

/-- **Bound.**  An insertion does not overfill the cache. -/
theorem len_insert_le (h : c.len ≤ c.maxEntries) (now : ℕ) (isActive : Bool) :
    (c.insert now nftId isActive).len ≤ c.maxEntries := by
  rw [len_insert]
  rcases makeRoom_cases c nftId with ⟨-, hnew, key, e, hkey, -, hroom⟩ | ⟨hspace | hheld, hroom⟩
  · -- one entry goes, one comes
    have hmem : key ∈ c.entries.keys := AList.lookup_isSome.mp (by rw [hkey]; rfl)
    have hle := List.length_erase_le (a := nftId) (l := (c.entries.keys.erase key))
    have hpos := List.length_pos_of_mem hmem
    have hlen : (c.entries.keys.erase key).length = c.len - 1 := List.length_erase_of_mem hmem
    rw [hroom, AList.keys_erase]
    have : 0 < c.len := hpos
    omega
  · have hle := List.length_erase_le (a := nftId) (l := c.entries.keys)
    rw [hroom]
    have : c.entries.keys.length = c.len := rfl
    omega
  · have hlen : (c.entries.keys.erase nftId).length = c.len - 1 := List.length_erase_of_mem hheld
    have : 0 < c.len := List.length_pos_of_mem hheld
    rw [hroom]
    omega

end

/-! ## History -/

/-- A call of the cache, at the time of the clock. -/
inductive CacheCall where
  | insert (now : ℕ) (nftId : UInt64) (isActive : Bool)
  | invalidate (now : ℕ) (nftId : UInt64)

/-- The time of a call. -/
def CacheCall.now : CacheCall → ℕ
  | .insert now .. => now
  | .invalidate now _ => now

/-- What a call did: an insertion with the keys that it evicted, or an invalidation. -/
inductive CacheNote where
  | inserted (now : ℕ) (nftId : UInt64) (isActive : Bool) (evicted : List UInt64)
  | invalidated (nftId : UInt64)

/-- The calls as a system. -/
def calls : System IsActiveCache CacheCall where
  step c
    | .insert now nftId isActive => some (c.insert now nftId isActive)
    | .invalidate _ nftId => some (c.invalidate nftId)

/-- What a call did. -/
def note (c : IsActiveCache) : CacheCall → Option CacheNote
  | .insert now nftId isActive =>
      some (.inserted now nftId isActive (c.lost (c.insert now nftId isActive)))
  | .invalidate _ nftId => some (.invalidated nftId)

/-- The note is the insertion of this observation at this time. -/
def CacheNote.Records (nftId : UInt64) (isActive : Bool) (time : ℕ) : CacheNote → Prop
  | .inserted now k v _ => k = nftId ∧ v = isActive ∧ now = time
  | .invalidated _ => False

/-- The note is of an operation on the key, or of an insertion that evicted it. -/
def CacheNote.Touches (nftId : UInt64) : CacheNote → Prop
  | .inserted _ k _ evicted => k = nftId ∨ nftId ∈ evicted
  | .invalidated k => k = nftId

/-- The last operation on the key was an insertion of this value at this time, and the key was
not evicted since. -/
def HeldSince (notes : List CacheNote) (nftId : UInt64) (isActive : Bool) (time : ℕ) : Prop :=
  Standing (CacheNote.Records nftId isActive time) (CacheNote.Touches nftId) notes

/-- Different keys have different times. -/
def DistinctTimes (c : IsActiveCache) : Prop :=
  ∀ j k e e', c.entries.lookup j = some e → c.entries.lookup k = some e' →
    e.fetchedAt = e'.fetchedAt → j = k

/-- After calls under a strictly increasing clock, every time is that of a call, and different
keys have different times. -/
def Timed (past : List CacheCall) (c : IsActiveCache) : Prop :=
  past.Pairwise (fun a b => a.now < b.now) →
    (∀ k e, c.entries.lookup k = some e → ∃ call ∈ past, call.now = e.fetchedAt) ∧
      c.DistinctTimes

section

variable {c c' : IsActiveCache} {nftId k : UInt64}

/-- Lost is what was there and is no longer. -/
theorem mem_lost : k ∈ c.lost c' ↔
    (c.entries.lookup k).isSome ∧ c'.entries.lookup k = none := by
  rw [lost, List.mem_filter, decide_eq_true_eq, AList.lookup_isSome, AList.lookup_eq_none]
  exact Iff.rfl

/-- Making room changes no entry but the one that it drops. -/
theorem lookup_makeRoom (c : IsActiveCache) (nftId k : UInt64) :
    (c.makeRoom nftId).lookup k = c.entries.lookup k ∨ (c.makeRoom nftId).lookup k = none := by
  rcases makeRoom_cases c nftId with ⟨-, -, key, e, -, -, hroom⟩ | ⟨-, hroom⟩
  · rw [hroom]
    by_cases hk : k = key
    · rw [hk, AList.lookup_erase]
      exact .inr rfl
    · exact .inl (AList.lookup_erase_ne hk)
  · rw [hroom]
    exact .inl rfl

/-- Only the key is forgotten. -/
theorem lookup_invalidate :
    (c.invalidate nftId).entries.lookup k
      = if k = nftId then none else c.entries.lookup k := by
  show (c.entries.erase nftId).lookup k = _
  by_cases hk : k = nftId
  · rw [if_pos hk, hk, AList.lookup_erase]
  · rw [if_neg hk, AList.lookup_erase_ne hk]

/-- The entries are those that the history holds. -/
def Remembers (notes : List CacheNote) (c : IsActiveCache) : Prop :=
  ∀ k isActive time,
    c.entries.lookup k = some ⟨isActive, time⟩ ↔ HeldSince notes k isActive time

/-- An invalidation is remembered. -/
theorem Remembers.invalidate {notes : List CacheNote} (h : Remembers notes c) (nftId : UInt64) :
    Remembers (notes ++ [.invalidated nftId]) (c.invalidate nftId) := by
  intro k isActive time
  rw [HeldSince, standing_snoc, lookup_invalidate]
  by_cases hk : k = nftId
  · rw [if_pos hk]
    exact iff_of_false nofun fun hor => hor.elim id fun hand => hand.2 hk.symm
  · rw [if_neg hk, h k isActive time]
    exact ⟨fun hheld => .inr ⟨hheld, fun heq => hk heq.symm⟩,
      fun hor => hor.elim False.elim And.left⟩

/-- An insertion evicts a key if room was made of it. -/
theorem touches_inserted_iff {now : ℕ} {v : Bool} (hk : k ≠ nftId) :
    CacheNote.Touches k (.inserted now nftId v (c.lost (c.insert now nftId v)))
      ↔ (c.entries.lookup k).isSome ∧ (c.makeRoom nftId).lookup k = none := by
  have hlookup : (c.insert now nftId v).entries.lookup k = _ := lookup_insert now v k
  rw [if_neg hk] at hlookup
  rw [← hlookup, ← mem_lost]
  exact or_iff_right fun heq => hk heq.symm

/-- So is an insertion. -/
theorem Remembers.insert {notes : List CacheNote} (h : Remembers notes c) (now : ℕ)
    (nftId : UInt64) (v : Bool) :
    Remembers (notes ++ [.inserted now nftId v (c.lost (c.insert now nftId v))])
      (c.insert now nftId v) := by
  intro k isActive time
  rw [HeldSince, standing_snoc, lookup_insert]
  by_cases hk : k = nftId
  · -- the key itself: only the new entry counts
    subst hk
    rw [if_pos rfl, Option.some.injEq, CacheEntry.mk.injEq]
    constructor
    · rintro ⟨rfl, rfl⟩
      exact .inl ⟨rfl, rfl, rfl⟩
    · rintro (⟨-, rfl, rfl⟩ | ⟨-, hnot⟩)
      · exact ⟨rfl, rfl⟩
      · exact absurd (.inl rfl) hnot
  · -- any other key: it is held unless it was evicted
    have hrecords : ¬ CacheNote.Records k isActive time
        (.inserted now nftId v (c.lost (c.insert now nftId v))) := fun hr => hk hr.1.symm
    rw [if_neg hk, or_iff_right hrecords, ← HeldSince, ← h k isActive time,
      touches_inserted_iff hk]
    rcases lookup_makeRoom c nftId k with hsame | hnone
    · rw [hsame]
      refine ⟨fun hsome => ⟨hsome, fun hand => ?_⟩, And.left⟩
      rw [hsome] at hand
      cases hand.2
    · rw [hnone]
      refine iff_of_false nofun fun hand => hand.2 ⟨?_, rfl⟩
      rw [hand.1]
      rfl

/-- **Step.**  A call keeps the entries in step with the history. -/
theorem Remembers.step {notes : List CacheNote} (h : Remembers notes c) {call : CacheCall}
    (hstep : calls.step c call = some c') : Remembers (notes ++ (c.note call).toList) c' := by
  cases call with
  | insert now nftId isActive =>
      obtain rfl := Option.some.inj hstep
      exact h.insert now nftId isActive
  | invalidate now nftId =>
      obtain rfl := Option.some.inj hstep
      exact h.invalidate nftId

/-- What is held after a call was held before, or it is what the call inserted. -/
theorem entry_cases {call : CacheCall} (hstep : calls.step c call = some c') {e : CacheEntry}
    (hk : c'.entries.lookup k = some e) :
    c.entries.lookup k = some e ∨
      ∃ v, call = .insert call.now k v ∧ e.fetchedAt = call.now := by
  cases call with
  | invalidate now nftId =>
      obtain rfl := Option.some.inj hstep
      rw [lookup_invalidate] at hk
      split_ifs at hk
      exact .inl hk
  | insert now nftId v =>
      obtain rfl := Option.some.inj hstep
      rw [lookup_insert] at hk
      split_ifs at hk with heq
      · subst heq
        obtain rfl := Option.some.inj hk
        exact .inr ⟨v, rfl, rfl⟩
      · rcases lookup_makeRoom c nftId k with hsame | hnone
        · exact .inl (hsame.symm.trans hk)
        · rw [hnone] at hk
          cases hk

/-- **Step.**  A call at a later time keeps the times apart. -/
theorem distinctTimes_step {past : List CacheCall} {call : CacheCall}
    (hpast : ∀ k e, c.entries.lookup k = some e → ∃ call ∈ past, call.now = e.fetchedAt)
    (hdistinct : c.DistinctTimes) (hlater : ∀ call' ∈ past, call'.now < call.now)
    (hstep : calls.step c call = some c') :
    (∀ k e, c'.entries.lookup k = some e → ∃ call' ∈ past ++ [call], call'.now = e.fetchedAt) ∧
      c'.DistinctTimes := by
  -- no entry that was held before has the time of the call
  have hold : ∀ i e, c.entries.lookup i = some e → e.fetchedAt ≠ call.now := by
    intro i e hi hnow
    obtain ⟨call', hmem, htime⟩ := hpast i e hi
    exact absurd (hlater call' hmem) (by omega)
  constructor
  · intro k e hk
    rcases entry_cases hstep hk with hheld | ⟨-, -, htime⟩
    · obtain ⟨call', hmem, hnow⟩ := hpast k e hheld
      exact ⟨call', List.mem_append_left _ hmem, hnow⟩
    · exact ⟨call, List.mem_append_right _ List.mem_cons_self, htime.symm⟩
  · intro j k e e' hj hk heq
    rcases entry_cases hstep hj with hj | ⟨v, hcall, htime⟩
    · rcases entry_cases hstep hk with hk | ⟨-, -, htime'⟩
      · exact hdistinct j k e e' hj hk heq
      · exact absurd (heq.trans htime') (hold j e hj)
    · rcases entry_cases hstep hk with hk | ⟨v', hcall', -⟩
      · exact absurd (heq.symm.trans htime) (hold k e' hk)
      · rw [hcall] at hcall'
        exact (CacheCall.insert.inj hcall').2.1

/-- **Run.**  Entries carry the times of the calls. -/
theorem timed_run {ttl maxEntries : ℕ} {past : List CacheCall}
    (hrun : calls.run (new ttl maxEntries) past = some c) : Timed past c := by
  have hnew : Timed [] (new ttl maxEntries) := fun _ => ⟨nofun, nofun⟩
  refine calls.run_history ?_ hnew hrun
  intro past c call c' h hstep hclock
  obtain ⟨hpairwise, -, hlater⟩ := List.pairwise_append.mp hclock
  obtain ⟨hpast, hdistinct⟩ := h hpairwise
  exact distinctTimes_step hpast hdistinct
    (fun call' hmem => hlater call' hmem call List.mem_cons_self) hstep

end

/-! ## Evictions -/

section

variable {c : IsActiveCache} {nftId key : UInt64}

/-- A key is evicted only from a full cache and for a new key, and no other is older. -/
theorem lost_insert {now : ℕ} {isActive : Bool} (h : key ∈ c.lost (c.insert now nftId isActive)) :
    nftId ∉ c.entries ∧ c.maxEntries ≤ c.len ∧ ∃ e, c.entries.lookup key = some e ∧
      (∀ k e', c.entries.lookup k = some e' → e.fetchedAt ≤ e'.fetchedAt) ∧
      c.makeRoom nftId = c.entries.erase key := by
  obtain ⟨hheld, hgone⟩ := mem_lost.mp h
  rw [lookup_insert] at hgone
  split_ifs at hgone with hkey
  rcases makeRoom_cases c nftId with ⟨hfull, hnew, oldest, e, hlookup, hmin, hroom⟩ | ⟨-, hroom⟩
  · have hoc : key = oldest := by
      by_contra hne
      rw [hroom, AList.lookup_erase_ne hne] at hgone
      rw [hgone] at hheld
      cases hheld
    subst hoc
    exact ⟨hnew, hfull, e, hlookup, hmin, hroom⟩
  · rw [hroom] at hgone
    rw [hgone] at hheld
    cases hheld

/-- At most one key is evicted. -/
theorem length_lost_insert_le (c : IsActiveCache) (now : ℕ) (nftId : UInt64) (isActive : Bool) :
    (c.lost (c.insert now nftId isActive)).length ≤ 1 := by
  have hnodup : (c.lost (c.insert now nftId isActive)).Nodup := c.entries.keys_nodup.filter _
  -- every evicted key is the one that room was made of
  have hall : ∀ key ∈ c.lost (c.insert now nftId isActive),
      ∀ key' ∈ c.lost (c.insert now nftId isActive), key = key' := by
    intro key hkey key' hkey'
    obtain ⟨-, -, e, he, -, hroom⟩ := lost_insert hkey
    obtain ⟨-, -, e', -, -, hroom'⟩ := lost_insert hkey'
    by_contra hne
    have hlookup := AList.lookup_erase_ne (s := c.entries) hne
    rw [← hroom', hroom, AList.lookup_erase, he] at hlookup
    cases hlookup
  by_contra hlong
  obtain ⟨x, y, rest, hlost⟩ :
      ∃ x y rest, c.lost (c.insert now nftId isActive) = x :: y :: rest := by
    match hl : c.lost (c.insert now nftId isActive) with
    | [] => simp [hl] at hlong
    | [x] => simp [hl] at hlong
    | x :: y :: rest => exact ⟨x, y, rest, rfl⟩
  rw [hlost] at hnodup hall
  have hxy := hall x List.mem_cons_self y (List.mem_cons_of_mem _ List.mem_cons_self)
  rw [hxy] at hnodup
  exact absurd List.mem_cons_self (List.nodup_cons.mp hnodup).1

end

/-- An insertion at this point of the history evicts at most one key, only for a new key and out
of a full cache, and then the one that was inserted first of those held. -/
def EvictsOldest (notes : List CacheNote) (capacity : ℕ) (c : IsActiveCache) (now : ℕ)
    (nftId : UInt64) (isActive : Bool) : Prop :=
  let evicted := c.lost (c.insert now nftId isActive)
  evicted.length ≤ 1 ∧ ∀ key ∈ evicted,
    (∀ v t, ¬ HeldSince notes nftId v t) ∧ c.len = capacity ∧
      ∃ v t, HeldSince notes key v t ∧ ∀ k v' t', HeldSince notes k v' t' → k ≠ key → t < t'

/-- What holds of the cache after a sequence of calls. -/
structure Invariant (ttl capacity : ℕ) (notes : List CacheNote) (c : IsActiveCache) : Prop where
  ttl_eq : c.ttl = ttl
  capacity_eq : c.maxEntries = capacity
  bounded : c.len ≤ c.maxEntries
  remembers : Remembers notes c

/-- **Step.**  Every call keeps the invariant. -/
theorem Invariant.step {ttl capacity : ℕ} {notes : List CacheNote} {c c' : IsActiveCache}
    (h : Invariant ttl capacity notes c) {call : CacheCall} (hstep : calls.step c call = some c') :
    Invariant ttl capacity (notes ++ (c.note call).toList) c' := by
  have hremembers := h.remembers.step hstep
  cases call with
  | insert now nftId isActive =>
      obtain rfl := Option.some.inj hstep
      exact ⟨h.ttl_eq, h.capacity_eq, len_insert_le h.bounded now isActive, hremembers⟩
  | invalidate now nftId =>
      obtain rfl := Option.some.inj hstep
      refine ⟨h.ttl_eq, h.capacity_eq, ?_, hremembers⟩
      refine le_trans ?_ h.bounded
      show (c.entries.erase nftId).keys.length ≤ _
      rw [AList.keys_erase]
      exact List.length_erase_le

/-- **The cache.**  After any calls under a strictly increasing clock the cache is bounded, it
answers what the history holds that is not too old, and an insertion evicts the oldest key. -/
theorem freshest_first (ttl maxEntries : ℕ) {past : List CacheCall}
    (hclock : past.Pairwise fun a b => a.now < b.now) {c : IsActiveCache}
    (hrun : calls.run (new ttl maxEntries) past = some c) :
    let notes := calls.trace note (new ttl maxEntries) past
    c.len ≤ max maxEntries 1 ∧
      (∀ nftId isActive now, c.get now nftId = some isActive ↔
        ∃ time, now - time < ttl ∧ HeldSince notes nftId isActive time) ∧
      ∀ now nftId isActive, EvictsOldest notes (max maxEntries 1) c now nftId isActive := by
  have hnew : Invariant ttl (max maxEntries 1) [] (new ttl maxEntries) :=
    ⟨rfl, rfl, Nat.zero_le _, fun k isActive time => iff_of_false nofun not_standing_nil⟩
  have hinv : Invariant ttl (max maxEntries 1) (calls.trace note (new ttl maxEntries) past) c :=
    calls.trace_history note (fun notes c call c' h hstep => h.step hstep) hnew hrun
  -- a strict clock gives every entry a time of its own
  have hdistinct : c.DistinctTimes := (timed_run hrun hclock).2
  refine ⟨hinv.capacity_eq ▸ hinv.bounded, ?_, ?_⟩
  · intro nftId isActive now
    rw [get, Option.bind_eq_some_iff, hinv.ttl_eq]
    constructor
    · rintro ⟨⟨v, time⟩, hlookup, hyoung⟩
      split_ifs at hyoung with htime
      obtain rfl := Option.some.inj hyoung
      exact ⟨time, htime, (hinv.remembers _ _ _).mp hlookup⟩
    · rintro ⟨time, htime, hheld⟩
      exact ⟨_, (hinv.remembers _ _ _).mpr hheld, if_pos htime⟩
  · intro now nftId isActive
    -- the entry that goes is the only oldest one
    refine ⟨length_lost_insert_le c now nftId isActive, fun key hkey => ?_⟩
    obtain ⟨hnew, hfull, ⟨v, t⟩, hlookup, hmin, -⟩ := lost_insert hkey
    refine ⟨fun v' t' hheld => ?_, ?_, v, t, (hinv.remembers _ _ _).mp hlookup, ?_⟩
    · have hsome := (hinv.remembers _ _ _).mpr hheld
      rw [AList.lookup_eq_none.mpr hnew] at hsome
      cases hsome
    · exact (le_antisymm hinv.bounded hfull).trans hinv.capacity_eq
    · intro k v' t' hheld hne
      have hk := (hinv.remembers _ _ _).mpr hheld
      refine lt_of_le_of_ne (hmin k _ hk) fun heq => hne ?_
      exact hdistinct k key _ _ hk hlookup heq.symm

/-- Four insertions into a cache of three. -/
def fourInsertions : List CacheCall :=
  [.insert 1 1 true, .insert 3 2 true, .insert 5 3 true, .insert 6 4 true]

/-- The first of the four is forgotten. -/
theorem first_forgotten :
    ∃ c, calls.run (new 10 3) fourInsertions = some c ∧ c.len ≤ max 3 1 ∧
      ¬ (∃ time, 7 - time < 10 ∧
        HeldSince (calls.trace note (new 10 3) fourInsertions) 1 true time) := by
  have hrun : calls.run (new 10 3) fourInsertions = some _ :=
    System.run_eq_some_getD _ (d := new 10 3) (by decide +kernel)
  have hcache := freshest_first 10 3 (by decide) hrun
  refine ⟨_, hrun, hcache.1, ?_⟩
  rw [← hcache.2.1 1 true 7]
  decide +kernel

end IsActiveCache
