/-
# Duplicate deliveries

Gossip delivers a message more than once.  A reveal that was accepted is ignored when it comes
again; a commit that was accepted is rejected, but only after it was counted against the quota
of its NFT.  Two runs are compared here, one with all deliveries and one without the
duplicates: they are twins that differ in their quota trackers alone
(`GossipValidator.Related`), and they give the same answers exactly as long as no commit is
within quota without the duplicates and over quota with them
(`GossipValidator.duplicates_harmless_iff`).
-/
import DeadmktNode.RevealSafety

namespace GossipValidation

/-- A message that gossip delivers. -/
inductive Delivery where
  | commit (c : Commit)
  | reveal (r : Reveal)
deriving DecidableEq

/-- What the validator answers. -/
inductive Answer where
  | commit (result : CommitResult)
  | reveal (result : RevealResult)
deriving DecidableEq

def Answer.isAccepted : Answer → Bool
  | .commit .accepted => true
  | .reveal .accepted => true
  | _ => false

/-- A message that was delivered, whether it is kept when duplicates are left out, and whether
it was accepted. -/
structure Delivered where
  message : Delivery
  kept : Bool
  accepted : Bool
deriving DecidableEq

section

variable {P R B : Type} [Externals] [PubkeyProvider P] [RegistrationProvider R]
  [BlockedProvider B]

/-! ## Deliveries -/

namespace GossipValidator

/-- Validate a message. -/
def deliver (v : GossipValidator P R B) : Delivery → Option (Answer × GossipValidator P R B)
  | .commit c => (v.validateCommit c).map fun a => (.commit a.1, a.2)
  | .reveal r => (v.validateReveal r).map fun a => (.reveal a.1, a.2)

/-- The validator under messages of which some are marked as kept. -/
def deliveries : System (GossipValidator P R B) (Delivery × Bool) where
  step v d := (v.deliver d.1).map Prod.snd

/-- The answer to a kept message. -/
def answerOf (v : GossipValidator P R B) (d : Delivery × Bool) : Option Answer :=
  if d.2 then (v.deliver d.1).map Prod.fst else none

/-- What a step shows: the message and what became of it. -/
def delivered (v : GossipValidator P R B) (d : Delivery × Bool) : Option Delivered :=
  some ⟨d.1, d.2, ((v.deliver d.1).map Prod.fst).any Answer.isAccepted⟩

end GossipValidator

namespace Settings

/-- Is the message an authentic commit of the NFT? -/
def sends (s : Settings P R B) (nftId : UInt64) : Delivery → Bool
  | .commit c => decide (s.Authentic c ∧ c.nftId = nftId)
  | .reveal _ => false

/-- The authentic commits of an NFT among the messages. -/
def sent (s : Settings P R B) (shown : List Delivered) (nftId : UInt64) : ℕ :=
  shown.countP fun e => s.sends nftId e.message

/-- Those among the messages that are kept. -/
def sentKept (s : Settings P R B) (shown : List Delivered) (nftId : UInt64) : ℕ :=
  shown.countP fun e => e.kept && s.sends nftId e.message

theorem sent_snoc (s : Settings P R B) (shown : List Delivered) (e : Delivered) (nftId : UInt64) :
    s.sent (shown ++ [e]) nftId
      = s.sent shown nftId + if s.sends nftId e.message then 1 else 0 := by
  unfold sent
  rw [List.countP_append, List.countP_singleton]

theorem sentKept_snoc (s : Settings P R B) (shown : List Delivered) (e : Delivered)
    (nftId : UInt64) :
    s.sentKept (shown ++ [e]) nftId
      = s.sentKept shown nftId + if e.kept && s.sends nftId e.message then 1 else 0 := by
  unfold sentKept
  rw [List.countP_append, List.countP_singleton]

/-- An authentic commit is one more that was sent. -/
theorem sent_snoc_commit {s : Settings P R B} {c : Commit} (hauth : s.Authentic c)
    (shown : List Delivered) (kept accepted : Bool) (nftId : UInt64) :
    s.sent (shown ++ [⟨.commit c, kept, accepted⟩]) nftId
      = s.sent shown nftId + if nftId = c.nftId then 1 else 0 := by
  rw [sent_snoc]
  simp [sends, hauth, eq_comm]

theorem sentKept_snoc_commit {s : Settings P R B} {c : Commit} (hauth : s.Authentic c)
    (shown : List Delivered) (accepted : Bool) (nftId : UInt64) :
    s.sentKept (shown ++ [⟨.commit c, true, accepted⟩]) nftId
      = s.sentKept shown nftId + if nftId = c.nftId then 1 else 0 := by
  rw [sentKept_snoc]
  simp [sends, hauth, eq_comm]

/-- Any other message is none. -/
theorem sends_eq_false {s : Settings P R B} {d : Delivery}
    (hother : ∀ c, d = .commit c → ¬ s.Authentic c) (nftId : UInt64) :
    s.sends nftId d = false := by
  cases d with
  | commit c => exact decide_eq_false fun h => hother c rfl h.1
  | reveal r => rfl

theorem sent_snoc_other {s : Settings P R B} {d : Delivery}
    (hother : ∀ c, d = .commit c → ¬ s.Authentic c) (shown : List Delivered)
    (kept accepted : Bool) : s.sent (shown ++ [⟨d, kept, accepted⟩]) = s.sent shown := by
  funext nftId
  rw [sent_snoc, if_neg (by simp [sends_eq_false hother]), Nat.add_zero]

theorem sentKept_snoc_other {s : Settings P R B} {d : Delivery}
    (hother : ∀ c, d = .commit c → ¬ s.Authentic c) (shown : List Delivered)
    (kept accepted : Bool) : s.sentKept (shown ++ [⟨d, kept, accepted⟩]) = s.sentKept shown := by
  funext nftId
  rw [sentKept_snoc, if_neg (by simp [sends_eq_false hother]), Nat.add_zero]

theorem sentKept_snoc_dropped (s : Settings P R B) (shown : List Delivered) (d : Delivery)
    (accepted : Bool) : s.sentKept (shown ++ [⟨d, false, accepted⟩]) = s.sentKept shown := by
  funext nftId
  rw [sentKept_snoc, if_neg (by simp), Nat.add_zero]

theorem sentKept_le (s : Settings P R B) (shown : List Delivered) (nftId : UInt64) :
    s.sentKept shown nftId ≤ s.sent shown nftId := by
  refine List.countP_mono_left fun e _ h => ?_
  rw [Bool.and_eq_true] at h
  exact h.2

end Settings

/-! ## Twins -/

/-- The counts of a tracker that started as `t₀` and counted `n` commits of each NFT. -/
structure CommitQuotaTracker.Counted (t₀ : CommitQuotaTracker) (n : UInt64 → ℕ)
    (t : CommitQuotaTracker) : Prop where
  quota : t.commitsPerBatch = t₀.commitsPerBatch
  counts : ∀ nftId, (t.countOf nftId).toNat = max (t₀.countOf nftId).toNat
    (min ((t₀.countOf nftId).toNat + n nftId) t₀.commitsPerBatch.toNat)

namespace CommitQuotaTracker

variable {t₀ t : CommitQuotaTracker} {n : UInt64 → ℕ}

omit [Externals] in
/-- An NFT is under quota exactly when its commits are. -/
theorem Counted.under_iff (h : Counted t₀ n t) (nftId : UInt64) :
    t.countOf nftId < t.commitsPerBatch ↔
      (t₀.countOf nftId).toNat + n nftId < t₀.commitsPerBatch.toNat := by
  rw [UInt64.lt_iff_toNat_lt, h.counts, h.quota]
  omega

omit [Externals] in
/-- One more commit is counted. -/
theorem Counted.record (h : Counted t₀ n t) {n' : UInt64 → ℕ} {nftId : UInt64}
    (hn : ∀ m, n' m = n m + if m = nftId then 1 else 0) (batchId poolId : UInt64) (hash : Hash32)
    (signature : Bytes) :
    Counted t₀ n' (t.checkAndRecord nftId batchId poolId hash signature).2 := by
  refine ⟨(t.commitsPerBatch_checkAndRecord _ _ _ _ _).trans h.quota, fun m => ?_⟩
  have hcount := h.counts m
  rw [countOf_checkAndRecord, hn]
  by_cases hm : m = nftId
  · subst hm
    have hunder := h.under_iff m
    rw [if_pos (rfl : m = m)]
    by_cases hlt : t.countOf m < t.commitsPerBatch
    · have hbound := t₀.commitsPerBatch.toNat_lt
      have hroom := hunder.mp hlt
      rw [if_pos ⟨rfl, hlt⟩, UInt64.toNat_add, hcount, UInt64.toNat_one]
      omega
    · have hfull := mt hunder.mpr hlt
      rw [if_neg (fun hboth : m = m ∧ _ => hlt hboth.2), hcount]
      omega
  · rw [if_neg (fun hboth : m = nftId ∧ _ => hm hboth.1), if_neg hm, Nat.add_zero]
    exact hcount

end CommitQuotaTracker

namespace GossipValidator

/-- The validator holds what an accepted message left in it. -/
def Settled (v : GossipValidator P R B) : Delivery → Prop
  | .commit c => v.toSettings.Authentic c ∧ (v.pendingCommits.lookup c.hash).isSome
  | .reveal r => orderHash r.order ∈ v.revealedHashes

/-- Two runs after the messages that were shown: the first took all of them, the second the
kept ones.  They differ in their quota trackers alone. -/
structure Related (v : GossipValidator P R B) (shown : List Delivered)
    (w w' : GossipValidator P R B) : Prop where
  settings : w.toSettings = v.toSettings
  twin : w' = { w with quotaTracker := w'.quotaTracker }
  all : v.quotaTracker.Counted (v.toSettings.sent shown) w.quotaTracker
  kept : v.quotaTracker.Counted (v.toSettings.sentKept shown) w'.quotaTracker
  settled : ∀ e ∈ shown, e.accepted = true → w.Settled e.message

omit [RegistrationProvider R] [BlockedProvider B] in
/-- Whatever one validator answers to a reveal, its twin answers. -/
theorem validateReveal_twin (w : GossipValidator P R B) (t : CommitQuotaTracker) (r : Reveal) :
    { w with quotaTracker := t }.validateReveal r
      = (w.validateReveal r).map fun a => (a.1, { a.2 with quotaTracker := t }) := by
  unfold validateReveal
  dsimp only
  split_ifs
  · rfl
  · cases encodeOrder r.order with
    | none => rfl
    | some orderBytes =>
        dsimp only
        cases w.pendingCommits.lookup (sha256 orderBytes) with
        | none => rfl
        | some commit =>
            dsimp only
            split_ifs
            · rfl
            · rfl
            · cases PubkeyProvider.getPubkey w.pubkeys r.order.nftId with
              | none => rfl
              | some pubkey =>
                  dsimp only
                  split_ifs
                  · rfl
                  · rfl

/-- To any message but an authentic commit, twins give the same answer. -/
theorem deliver_twin {w : GossipValidator P R B} {d : Delivery}
    (hother : ∀ c, d = .commit c → ¬ w.toSettings.Authentic c) (t : CommitQuotaTracker) :
    { w with quotaTracker := t }.deliver d
      = (w.deliver d).map fun a => (a.1, { a.2 with quotaTracker := t }) := by
  cases d with
  | commit c =>
      unfold deliver
      dsimp only
      rw [validateCommit_eq, validateCommit_eq]
      cases hcheck : w.toSettings.checkCommit c with
      | none => rfl
      | some reason =>
          rcases Settings.checkCommit_cases hcheck with ⟨hauth, -⟩ | ⟨-, reason', rfl⟩
          · exact absurd hauth (hother c rfl)
          · rfl
  | reveal r =>
      unfold deliver
      dsimp only
      rw [validateReveal_twin, Option.map_map, Option.map_map]
      rfl

/-- Such a message does not touch the quota tracker. -/
theorem quotaTracker_deliver {w : GossipValidator P R B} {d : Delivery}
    {a : Answer × GossipValidator P R B}
    (hother : ∀ c, d = .commit c → ¬ w.toSettings.Authentic c) (ha : w.deliver d = some a) :
    a.2.quotaTracker = w.quotaTracker := by
  cases d with
  | commit c =>
      obtain ⟨b, hb, rfl⟩ := Option.map_eq_some_iff.mp ha
      rcases validateCommit_cases hb with ⟨hauth, -⟩ | ⟨-, hsame, -⟩
      · exact absurd hauth (hother c rfl)
      · exact congrArg quotaTracker hsame
  | reveal r =>
      obtain ⟨b, hb, rfl⟩ := Option.map_eq_some_iff.mp ha
      rcases validateReveal_cases hb with ⟨-, -, rfl⟩ | ⟨-, -, hsame⟩
      · rfl
      · exact congrArg quotaTracker hsame

/-- An authentic commit goes on to quota and duplicates in all twins or in none. -/
theorem deliver_commit {w : GossipValidator P R B} {c : Commit}
    {a : Answer × GossipValidator P R B} (hauth : w.toSettings.Authentic c)
    (ha : w.deliver (.commit c) = some a) (t : CommitQuotaTracker) :
    { w with quotaTracker := t }.deliver (.commit c)
      = some (.commit ({ w with quotaTracker := t }.recordCommit c).1,
        ({ w with quotaTracker := t }.recordCommit c).2) := by
  obtain ⟨b, hb, -⟩ := Option.map_eq_some_iff.mp ha
  rw [validateCommit_eq] at hb
  obtain ⟨reason, hcheck, -⟩ := Option.map_eq_some_iff.mp hb
  rcases Settings.checkCommit_cases hcheck with ⟨-, rfl⟩ | ⟨hnot, -⟩
  · unfold deliver
    dsimp only
    rw [validateCommit_eq, hcheck]
    rfl
  · exact absurd hauth hnot

section

omit [Externals] [PubkeyProvider P] [RegistrationProvider R] [BlockedProvider B]

theorem quotaTracker_recordCommit (w : GossipValidator P R B) (c : Commit) :
    (w.recordCommit c).2.quotaTracker = w.tracked c := by
  rw [recordCommit_eq]
  split_ifs
  · rfl
  · rfl
  · rfl

/-- A commit whose hash is held changes the quota tracker alone. -/
theorem recordCommit_of_held {w : GossipValidator P R B} {c : Commit}
    (hheld : (w.pendingCommits.lookup c.hash).isSome) :
    (w.recordCommit c).2 = { w with quotaTracker := w.tracked c } := by
  rw [recordCommit_eq]
  split_ifs
  · rfl
  · rfl

/-- Twins that agree on the quota record a commit alike. -/
theorem recordCommit_twin {w : GossipValidator P R B} {t : CommitQuotaTracker} {c : Commit}
    (hquota : t.countOf c.nftId < t.commitsPerBatch ↔
      w.quotaTracker.countOf c.nftId < w.quotaTracker.commitsPerBatch) :
    { w with quotaTracker := t }.recordCommit c
      = ((w.recordCommit c).1,
        { (w.recordCommit c).2 with
          quotaTracker := { w with quotaTracker := t }.tracked c }) := by
  rw [recordCommit_eq, recordCommit_eq]
  by_cases hlt : w.quotaTracker.countOf c.nftId < w.quotaTracker.commitsPerBatch
  · rw [if_pos hlt, if_pos (hquota.mpr hlt)]
    dsimp only
    split_ifs
    · rfl
    · rfl
  · rw [if_neg hlt, if_neg (mt hquota.mp hlt)]

/-- A commit is over quota exactly if its NFT is not under it. -/
theorem recordCommit_overQuota_iff (w : GossipValidator P R B) (c : Commit) :
    (w.recordCommit c).1 = .rejected .overQuota ↔
      ¬ w.quotaTracker.countOf c.nftId < w.quotaTracker.commitsPerBatch := by
  rw [recordCommit_eq]
  split_ifs with hlt
  · simp [hlt]
  · simp [hlt]
  · simp [hlt]

end

/-! ### What stays -/

/-- Nothing that the validator holds was lost. -/
structure Extends (w w₁ : GossipValidator P R B) : Prop where
  settings : w₁.toSettings = w.toSettings
  pending : ∀ hash, (w.pendingCommits.lookup hash).isSome →
    (w₁.pendingCommits.lookup hash).isSome
  revealed : w.revealedHashes ⊆ w₁.revealedHashes

omit [Externals] [PubkeyProvider P] [RegistrationProvider R] [BlockedProvider B] in
theorem Extends.refl (w : GossipValidator P R B) : w.Extends w :=
  ⟨rfl, fun _ h => h, fun _ h => h⟩

omit [Externals] [PubkeyProvider P] [RegistrationProvider R] [BlockedProvider B] in
theorem extends_recordCommit (w : GossipValidator P R B) (c : Commit) :
    w.Extends (w.recordCommit c).2 := by
  rw [recordCommit_eq]
  split_ifs
  · exact ⟨rfl, fun _ h => h, fun _ h => h⟩
  · refine ⟨rfl, fun hash h => ?_, fun _ h => h⟩
    show ((w.pendingCommits.insert c.hash _).lookup hash).isSome
    by_cases hhash : hash = c.hash
    · rw [hhash, AList.lookup_insert]
      rfl
    · rwa [AList.lookup_insert_ne hhash]
  · exact ⟨rfl, fun _ h => h, fun _ h => h⟩

omit [Externals] [PubkeyProvider P] [RegistrationProvider R] [BlockedProvider B] in
theorem extends_markRevealed (w : GossipValidator P R B) (hash : Hash32) :
    w.Extends (w.markRevealed hash) := by
  refine ⟨rfl, fun k h => ?_, Finset.subset_insert _ _⟩
  rwa [lookup_markRevealed, Option.isSome_map]

theorem extends_deliver {w : GossipValidator P R B} {d : Delivery}
    {a : Answer × GossipValidator P R B} (ha : w.deliver d = some a) : w.Extends a.2 := by
  cases d with
  | commit c =>
      obtain ⟨b, hb, rfl⟩ := Option.map_eq_some_iff.mp ha
      rcases validateCommit_cases hb with ⟨-, rfl⟩ | ⟨-, hsame, -⟩
      · exact w.extends_recordCommit c
      · exact hsame ▸ Extends.refl w
  | reveal r =>
      obtain ⟨b, hb, rfl⟩ := Option.map_eq_some_iff.mp ha
      rcases validateReveal_cases hb with ⟨-, -, rfl⟩ | ⟨-, -, hsame⟩
      · exact w.extends_markRevealed _
      · exact hsame ▸ Extends.refl w

/-- What is held stays held. -/
theorem Settled.mono {w w₁ : GossipValidator P R B}
    {d : Delivery} (h : w.Settled d) (hext : w.Extends w₁) : w₁.Settled d := by
  cases d with
  | commit c => exact ⟨hext.settings.symm ▸ h.1, hext.pending _ h.2⟩
  | reveal r => exact hext.revealed h

/-- What is accepted is held from then on. -/
theorem settled_of_accepted {w : GossipValidator P R B} {d : Delivery}
    {a : Answer × GossipValidator P R B} (ha : w.deliver d = some a)
    (haccepted : a.1.isAccepted = true) : a.2.Settled d := by
  cases d with
  | commit c =>
      obtain ⟨b, hb, rfl⟩ := Option.map_eq_some_iff.mp ha
      rcases validateCommit_cases hb with ⟨hauth, rfl⟩ | ⟨-, -, reason, hreason⟩
      · refine ⟨(w.extends_recordCommit c).settings.symm ▸ hauth, ?_⟩
        revert haccepted
        -- held already, new or over the quota: only a new one is accepted
        rw [recordCommit_eq]
        split_ifs
        · exact fun h => absurd h Bool.false_ne_true
        · intro _
          show ((w.pendingCommits.insert c.hash _).lookup c.hash).isSome
          rw [AList.lookup_insert]
          rfl
        · exact fun h => absurd h Bool.false_ne_true
      · dsimp only at haccepted
        rw [hreason] at haccepted
        cases haccepted
  | reveal r =>
      obtain ⟨b, hb, rfl⟩ := Option.map_eq_some_iff.mp ha
      rcases validateReveal_cases hb with ⟨-, -, rfl⟩ | ⟨-, hnot, -⟩
      · exact Finset.mem_insert_self _ _
      · exfalso
        dsimp only at haccepted
        cases hresult : b.1 with
        | accepted => exact hnot hresult
        | rejected reason =>
            rw [hresult] at haccepted
            cases haccepted
        | duplicateIgnored =>
            rw [hresult] at haccepted
            cases haccepted

/-! ### One delivery -/

/-- A message that is kept and within quota without the duplicates is within it with them. -/
def KeepsQuota (v : GossipValidator P R B) (shown : List Delivered) (_ : GossipValidator P R B)
    (d : Delivery × Bool) : Prop :=
  ∀ c, d = (.commit c, true) → v.toSettings.Authentic c →
    (v.quotaTracker.countOf c.nftId).toNat + v.toSettings.sentKept shown c.nftId
      < v.quotaTracker.commitsPerBatch.toNat →
    (v.quotaTracker.countOf c.nftId).toNat + v.toSettings.sent shown c.nftId
      < v.quotaTracker.commitsPerBatch.toNat

instance (v : GossipValidator P R B) (shown : List Delivered) (w : GossipValidator P R B) :
    (d : Delivery × Bool) → Decidable (KeepsQuota v shown w d)
  | (.commit c, true) => decidable_of_iff
      (v.toSettings.Authentic c →
        (v.quotaTracker.countOf c.nftId).toNat + v.toSettings.sentKept shown c.nftId
          < v.quotaTracker.commitsPerBatch.toNat →
        (v.quotaTracker.countOf c.nftId).toNat + v.toSettings.sent shown c.nftId
          < v.quotaTracker.commitsPerBatch.toNat)
      ⟨fun h c' heq => by cases heq; exact h, fun h => h c rfl⟩
  | (.commit _, false) => isTrue fun _ heq => by cases heq
  | (.reveal _, _) => isTrue fun _ heq => by cases heq

/-- A message that is left out repeats one that was accepted. -/
def Repeats (shown : List Delivered) (_ : GossipValidator P R B) (d : Delivery × Bool) : Prop :=
  d.2 = false → ∃ e ∈ shown, e.message = d.1 ∧ e.accepted = true

instance (shown : List Delivered) (w : GossipValidator P R B) (d : Delivery × Bool) :
    Decidable (Repeats shown w d) :=
  inferInstanceAs (Decidable (_ → _))

section

variable {v w w' : GossipValidator P R B} {shown : List Delivered} {d : Delivery} {c : Commit}
  {kept : Bool} {a : Answer × GossipValidator P R B}

/-- One more message has been shown. -/
theorem Related.snoc {w₁ w₁' : GossipValidator P R B} (h : Related v shown w w')
    (ha : w.deliver d = some a) (hw₁ : a.2 = w₁)
    (htwin : w₁' = { w₁ with quotaTracker := w₁'.quotaTracker })
    (hall : v.quotaTracker.Counted
      (v.toSettings.sent (shown ++ [⟨d, kept, a.1.isAccepted⟩])) w₁.quotaTracker)
    (hkept : v.quotaTracker.Counted
      (v.toSettings.sentKept (shown ++ [⟨d, kept, a.1.isAccepted⟩])) w₁'.quotaTracker) :
    Related v (shown ++ [⟨d, kept, a.1.isAccepted⟩]) w₁ w₁' := by
  subst hw₁
  have hext := extends_deliver ha
  refine ⟨hext.settings.trans h.settings, htwin, hall, hkept, fun e he haccepted => ?_⟩
  rcases List.mem_append.mp he with hold | hlast
  · exact (h.settled e hold haccepted).mono hext
  · obtain rfl := List.mem_singleton.mp hlast
    exact settled_of_accepted ha haccepted

/-- A repeated message moves the counts of the first run alone. -/
theorem Related.dropped (h : Related v shown w w') (ha : w.deliver d = some a)
    (hrepeats : ∃ e ∈ shown, e.message = d ∧ e.accepted = true) :
    Related v (shown ++ [⟨d, false, a.1.isAccepted⟩]) a.2 w' := by
  obtain ⟨e, he, rfl, haccepted⟩ := hrepeats
  have hsettled := h.settled e he haccepted
  have hkept := h.kept
  rw [← Settings.sentKept_snoc_dropped _ shown e.message a.1.isAccepted] at hkept
  cases hd : e.message with
  -- a commit that is held is not stored again, but the quota history goes on
  | commit c =>
      rw [hd] at hsettled ha hkept
      obtain ⟨hauth, hheld⟩ := hsettled
      obtain rfl := Option.some.inj (ha.symm.trans (deliver_commit hauth ha w.quotaTracker))
      refine h.snoc ha rfl ?_ ?_ hkept
      · dsimp only
        rw [recordCommit_of_held hheld]
        exact h.twin
      · dsimp only
        rw [quotaTracker_recordCommit]
        exact h.all.record (Settings.sent_snoc_commit (h.settings ▸ hauth) shown _ _) _ _ _ _
  | reveal r =>
      rw [hd] at hsettled ha hkept
      have hother : ∀ c, Delivery.reveal r = .commit c → ¬ v.toSettings.Authentic c := by
        intro c heq
        cases heq
      -- a second reveal is ignored
      have hsame : a.2 = w := by
        obtain ⟨b, hb, rfl⟩ := Option.map_eq_some_iff.mp ha
        rcases validateReveal_cases hb with ⟨-, hawaits, -⟩ | ⟨-, -, hsame⟩
        · exact absurd hsettled hawaits.2
        · exact hsame
      rw [hsame]
      refine h.snoc ha hsame h.twin ?_ hkept
      rw [Settings.sent_snoc_other hother]
      exact h.all

/-- The quota of the twins, in numbers. -/
theorem Related.under_all (h : Related v shown w w') (nftId : UInt64) :
    w.quotaTracker.countOf nftId < w.quotaTracker.commitsPerBatch ↔
      (v.quotaTracker.countOf nftId).toNat + v.toSettings.sent shown nftId
        < v.quotaTracker.commitsPerBatch.toNat :=
  h.all.under_iff nftId

theorem Related.under_kept (h : Related v shown w w') (nftId : UInt64) :
    w'.quotaTracker.countOf nftId < w'.quotaTracker.commitsPerBatch ↔
      (v.quotaTracker.countOf nftId).toNat + v.toSettings.sentKept shown nftId
        < v.quotaTracker.commitsPerBatch.toNat :=
  h.kept.under_iff nftId

/-- Within quota the twins give the same answer to a kept message and stay twins. -/
theorem Related.keep (h : Related v shown w w') (ha : w.deliver d = some a)
    (hquota : KeepsQuota v shown w (d, true)) :
    ∃ a', w'.deliver d = some a' ∧ a'.1 = a.1 ∧
      Related v (shown ++ [⟨d, true, a.1.isAccepted⟩]) a.2 a'.2 := by
  by_cases hother : ∀ c, d = .commit c → ¬ v.toSettings.Authentic c
  · have hother' : ∀ c, d = .commit c → ¬ w.toSettings.Authentic c := h.settings ▸ hother
    have ha' := deliver_twin hother' w'.quotaTracker
    rw [← h.twin, ha] at ha'
    refine ⟨_, ha', rfl, h.snoc ha rfl rfl ?_ ?_⟩
    · rw [Settings.sent_snoc_other hother, quotaTracker_deliver hother' ha]
      exact h.all
    · rw [Settings.sentKept_snoc_other hother]
      exact h.kept
  · push Not at hother
    obtain ⟨c, rfl, hauth⟩ := hother
    have hauth' : w.toSettings.Authentic c := h.settings ▸ hauth
    obtain rfl := Option.some.inj (ha.symm.trans (deliver_commit hauth' ha w.quotaTracker))
    -- the quota grants the commit to both or to none
    have hboth : w'.quotaTracker.countOf c.nftId < w'.quotaTracker.commitsPerBatch ↔
        w.quotaTracker.countOf c.nftId < w.quotaTracker.commitsPerBatch := by
      rw [h.under_all, h.under_kept]
      have hle := v.toSettings.sentKept_le shown c.nftId
      exact ⟨hquota c rfl hauth, fun hlt => by omega⟩
    have ha' := deliver_commit hauth' ha w'.quotaTracker
    rw [recordCommit_twin hboth] at ha'
    rw [← h.twin] at ha'
    refine ⟨_, ha', rfl, h.snoc ha rfl rfl ?_ ?_⟩
    · dsimp only
      rw [quotaTracker_recordCommit]
      exact h.all.record (Settings.sent_snoc_commit hauth shown _ _) _ _ _ _
    · dsimp only
      exact h.kept.record (Settings.sentKept_snoc_commit hauth shown _) _ _ _ _

/-- A commit that only the duplicates put over quota is answered differently. -/
theorem Related.break (h : Related v shown w w') (ha : w.deliver d = some a)
    (hquota : ¬ KeepsQuota v shown w (d, true)) :
    ∃ a', w'.deliver d = some a' ∧ a'.1 ≠ a.1 := by
  unfold KeepsQuota at hquota
  push Not at hquota
  obtain ⟨c, hd, hauth, hunder, hover⟩ := hquota
  obtain rfl : d = .commit c := congrArg Prod.fst hd
  have hauth' : w.toSettings.Authentic c := h.settings ▸ hauth
  obtain rfl := Option.some.inj (ha.symm.trans (deliver_commit hauth' ha w.quotaTracker))
  have ha' := deliver_commit hauth' ha w'.quotaTracker
  rw [← h.twin] at ha'
  refine ⟨_, ha', fun heq => ?_⟩
  have hrefused : (w.recordCommit c).1 = .rejected .overQuota :=
    (w.recordCommit_overQuota_iff c).mpr (mt (h.under_all c.nftId).mp (by omega))
  have hsame := (Answer.commit.inj heq).trans hrefused
  exact (w'.recordCommit_overQuota_iff c).mp hsame ((h.under_kept c.nftId).mpr hunder)

end

/-! ## Runs with and without the duplicates -/

/-- The validator at the start is its own twin. -/
theorem related_nil (v : GossipValidator P R B) : Related v [] v v := by
  have hcounted : v.quotaTracker.Counted (fun _ => 0) v.quotaTracker :=
    ⟨rfl, fun nftId => by omega⟩
  refine ⟨rfl, rfl, hcounted, hcounted, ?_⟩
  intro e he
  cases he

/-- A delivered message is answered, and shown with what became of it. -/
theorem step_of_deliver {w : GossipValidator P R B} {d : Delivery}
    {a : Answer × GossipValidator P R B} (h : w.deliver d = some a) (kept : Bool) :
    deliveries.step w (d, kept) = some a.2 ∧
      (delivered w (d, kept)).toList = [⟨d, kept, a.1.isAccepted⟩] := by
  constructor
  · show (w.deliver d).map Prod.snd = _
    rw [h]
    rfl
  · unfold delivered
    rw [h]
    rfl

/-- Both runs give the same answers to the kept messages and end with the same commits. -/
def SameWithout (w w' : GossipValidator P R B) (ds : List (Delivery × Bool))
    (last : GossipValidator P R B) : Prop :=
  deliveries.trace answerOf w ds = deliveries.trace answerOf w' (ds.filter Prod.snd) ∧
    ∃ last', deliveries.run w' (ds.filter Prod.snd) = some last' ∧
      last'.pendingCommits = last.pendingCommits ∧ last'.revealedHashes = last.revealedHashes

/-- **Two runs.**  From twins on, the runs with and without the duplicates agree if and only
if no kept message is put over quota by the duplicates. -/
theorem Related.sameWithout_iff {v w w' last : GossipValidator P R B} {shown : List Delivered}
    {ds : List (Delivery × Bool)} (h : Related v shown w w')
    (hrun : deliveries.run w ds = some last)
    (hdup : deliveries.FollowsSince delivered Repeats shown w ds) :
    SameWithout w w' ds last ↔ deliveries.FollowsSince delivered (KeepsQuota v) shown w ds := by
  induction ds generalizing shown w w' with
  | nil =>
      obtain rfl := Option.some.inj hrun
      refine iff_of_true ⟨rfl, w', rfl, ?_, ?_⟩ trivial
      · rw [h.twin]
      · rw [h.twin]
  | cons d ds ih =>
      obtain ⟨d, kept⟩ := d
      obtain ⟨w₁, hstep, hrest⟩ := Option.bind_eq_some_iff.mp hrun
      obtain ⟨a, ha, rfl⟩ := Option.map_eq_some_iff.mp hstep
      have hshown := (step_of_deliver ha kept).2
      rw [System.followsSince_cons _ _ hstep, hshown] at hdup ⊢
      obtain ⟨hrepeats, hdup⟩ := hdup
      cases kept with
      | false =>
          -- a repeat is left out: the condition is about the others
          have hquota : KeepsQuota v shown w (d, false) := by
            intro c heq
            cases (Prod.mk.inj heq).2
          rw [and_iff_right hquota, ← ih (h.dropped ha (hrepeats rfl)) hrest hdup]
          unfold SameWithout
          rw [System.trace_cons _ _ hstep]
          exact Iff.rfl
      | true =>
          by_cases hquota : KeepsQuota v shown w (d, true)
          · obtain ⟨a', ha', hsame, hrel⟩ := h.keep ha hquota
            have hstep' := (step_of_deliver ha' true).1
            rw [and_iff_right hquota, ← ih hrel hrest hdup]
            unfold SameWithout
            rw [List.filter_cons_of_pos rfl, System.trace_cons _ _ hstep,
              System.trace_cons _ _ hstep', System.run_cons, hstep', Option.bind_some]
            -- the quota is kept, so both validators give the same answer
            have hanswer : answerOf w (d, true) = answerOf w' (d, true) := by
              unfold answerOf
              rw [ha, ha', Option.map_some, Option.map_some, hsame]
            rw [hanswer]
            exact and_congr_left fun _ => List.append_right_inj _
          · refine iff_of_false ?_ fun hboth => hquota hboth.1
            -- the quota is passed by the repeats alone: the answers differ at once
            rintro ⟨htrace, -⟩
            obtain ⟨a', ha', hdiffers⟩ := h.break ha hquota
            have hstep' := (step_of_deliver ha' true).1
            rw [List.filter_cons_of_pos rfl, System.trace_cons _ _ hstep,
              System.trace_cons _ _ hstep'] at htrace
            unfold answerOf at htrace
            rw [if_pos rfl, if_pos rfl, ha, ha'] at htrace
            exact hdiffers (List.cons.inj htrace).1.symm

/-- When duplicates of accepted messages are left out, the other messages get the same answers
and the same commits and reveals are held at the end, if and only if every commit that is
within quota without the duplicates is within it with them. -/
theorem duplicates_harmless_iff {v last : GossipValidator P R B} {ds : List (Delivery × Bool)}
    (hrun : deliveries.run v ds = some last)
    (hdup : deliveries.FollowsSince delivered Repeats [] v ds) :
    SameWithout v v ds last ↔ deliveries.FollowsSince delivered (KeepsQuota v) [] v ds :=
  (related_nil v).sameWithout_iff hrun hdup

end GossipValidator

end

namespace GossipValidator

/-! ## A commit that comes twice -/

section

attribute [local instance] commitExternals

/-- NFT 2 commits to its buy, gossip delivers that commit again, and NFT 2 commits to another
hash. -/
def deliveredTwice : List (Delivery × Bool) :=
  [(.commit buyCommit, true), (.commit buyCommit, false), (.commit otherCommit, true)]

/-- With a quota of three the second delivery does no harm. -/
theorem third_commit_is_free :
    SameWithout (sampleValidator 3) (sampleValidator 3) deliveredTwice
      ((deliveries.run (sampleValidator 3) deliveredTwice).getD (sampleValidator 3)) :=
  (duplicates_harmless_iff (System.run_eq_some_getD _ (by decide +kernel))
    (by decide +kernel)).mpr (by decide +kernel)

/-- With a quota of two it costs NFT 2 its other commit. -/
theorem second_delivery_spends_quota :
    ¬ ∀ (v last : GossipValidator (UInt64 → Option VerifyingKey) (UInt64 → Bool) (UInt64 → Bool))
      (ds : List (Delivery × Bool)), deliveries.run v ds = some last →
      deliveries.FollowsSince delivered Repeats [] v ds → SameWithout v v ds last := by
  intro h
  have hsame := h (sampleValidator 2) _ deliveredTwice
    (System.run_eq_some_getD _ (d := sampleValidator 2) (by decide +kernel)) (by decide +kernel)
  have hdiffers : deliveries.trace answerOf (sampleValidator 2) deliveredTwice
      ≠ deliveries.trace answerOf (sampleValidator 2) (deliveredTwice.filter Prod.snd) := by
    decide +kernel
  exact hdiffers hsame.1

end

end GossipValidator

end GossipValidation
