/-
# Batch numbers across parameter changes

When the parameters change the batches get another length, and `compute_new_epoch` moves the
anchor.  As long as no `u64` overflows, the batch of a block is a numbering that changes pace
(`Era.pace`): batch numbers start at the first anchor, never decrease, skip nothing, and every new
epoch is anchored at the first block of its first batch (`batchIdAt_of_changes`).
-/
import DeadmktNode.BatchClock
import DeadmktNode.Pace

/-! ## Epochs and their parameters -/

/-- A parameter change; a batch has blocks. -/
structure ParamsChange where
  effectiveAtBatch : UInt64
  params : BatchParams
  blocks_pos : 0 < params.blocksPerBatch

/-- An epoch with the parameters that hold in it. -/
structure Era where
  epoch : BatchEpoch
  params : BatchParams
  blocks_pos : 0 < params.blocksPerBatch

namespace Era

/-- The batch of a block in an era. -/
def batchId (e : Era) (blockHeight : UInt64) : UInt64 :=
  computeBatchId blockHeight e.epoch e.params

/-- The era after a change. -/
def next (e : Era) (c : ParamsChange) : Era where
  epoch := computeNewEpoch e.epoch e.params c.effectiveAtBatch
  params := c.params
  blocks_pos := c.blocks_pos

/-- The change takes effect no earlier than the era, and its anchor is a `u64`. -/
structure Admits (e : Era) (c : ParamsChange) : Prop where
  batch_le : e.epoch.anchorBatchId ≤ c.effectiveAtBatch
  anchor_lt : e.epoch.anchorBlock.toNat
    + (c.effectiveAtBatch.toNat - e.epoch.anchorBatchId.toNat) * e.params.blocksPerBatch.toNat
      < 2 ^ 64

/-- Every change of the list, one after the other. -/
def AdmitsAll : Era → List ParamsChange → Prop
  | _, [] => True
  | e, c :: cs => e.Admits c ∧ (e.next c).AdmitsAll cs

/-- The batch of the block is a `u64`. -/
def Numbers (e : Era) (blockHeight : UInt64) : Prop :=
  e.epoch.anchorBatchId.toNat
    + (blockHeight.toNat - e.epoch.anchorBlock.toNat) / e.params.blocksPerBatch.toNat < 2 ^ 64

end Era

/-- The eras that a list of changes makes of a first one. -/
def eras (e : Era) (cs : List ParamsChange) : List Era := cs.scanl Era.next e

/-- The last era whose anchor is at or below a block. -/
def eraAt (es : List Era) (blockHeight : UInt64) : Option Era :=
  (es.filter (fun e => e.epoch.anchorBlock ≤ blockHeight)).getLast?

/-- The batch of a block. -/
def batchIdAt (es : List Era) (blockHeight : UInt64) : Option UInt64 :=
  (eraAt es blockHeight).map (fun e => e.batchId blockHeight)

/-- The computation of the batch of a block does not overflow. -/
def NumbersAt (es : List Era) (blockHeight : UInt64) : Prop :=
  ∀ e, eraAt es blockHeight = some e → e.Numbers blockHeight

/-! ## An era is a pace -/

namespace Era

/-- The pace of an era. -/
def pace (e : Era) : Pace where
  start := e.epoch.anchorBlock.toNat
  first := e.epoch.anchorBatchId.toNat
  length := e.params.blocksPerBatch.toNat
  length_pos := UInt64.lt_iff_toNat_lt.mp e.blocks_pos

/-- Without overflow an era numbers blocks at its pace. -/
theorem toNat_batchId {e : Era} {h : UInt64} (hnumbers : e.Numbers h) :
    (e.batchId h).toNat = e.pace.number h.toNat := by
  show (e.epoch.anchorBatchId
    + h.saturatingSub e.epoch.anchorBlock / e.params.blocksPerBatch).toNat = _
  rw [UInt64.toNat_add, UInt64.toNat_div, UInt64.toNat_saturatingSub]
  exact Nat.mod_eq_of_lt hnumbers

/-- Without overflow the next era takes over from this one. -/
theorem Admits.follows {e : Era} {c : ParamsChange} (h : e.Admits c) :
    Pace.Follows e.pace (e.next c).pace where
  first_le := UInt64.le_iff_toNat_le.mp h.batch_le
  start_eq := by
    have hanchor := h.anchor_lt
    show (e.epoch.anchorBlock + c.effectiveAtBatch.saturatingSub e.epoch.anchorBatchId
      * e.params.blocksPerBatch).toNat = _
    rw [UInt64.toNat_add, UInt64.toNat_mul, UInt64.toNat_saturatingSub,
      Nat.mod_eq_of_lt (a := _ * _) (by omega)]
    exact Nat.mod_eq_of_lt hanchor

/-- The first block of the first batch of a change, by the numbers of the era before it. -/
theorem Admits.isLeast_anchorBlock {e : Era} {c : ParamsChange} (h : e.Admits c) :
    IsLeast {b | e.epoch.anchorBlock ≤ b ∧ e.batchId b = c.effectiveAtBatch}
      (e.next c).epoch.anchorBlock := by
  have hleast := h.follows.isLeast_start
  have hfirst : (e.next c).pace.first < 2 ^ 64 := c.effectiveAtBatch.toNat_lt
  -- a block that numbers at most `effective_at_batch` does not overflow
  have hnumber : ∀ b : UInt64, e.pace.number b.toNat ≤ (e.next c).pace.first →
      (e.batchId b).toNat = e.pace.number b.toNat :=
    fun b hb => toNat_batchId (hb.trans_lt hfirst)
  constructor
  · refine ⟨UInt64.le_iff_toNat_le.mpr hleast.1.1, ?_⟩
    apply UInt64.toNat_inj.mp
    rw [hnumber _ hleast.1.2.le]
    exact hleast.1.2
  · rintro b ⟨hafter, hb⟩
    by_contra hlt
    have hlt : b.toNat < (e.next c).pace.start :=
      UInt64.lt_iff_toNat_lt.mp (UInt64.not_le.mp hlt)
    have hless : e.pace.number b.toNat < (e.next c).pace.first := by
      rcases h.follows.number_lt hlt with hless | hbefore
      · exact hless
      · exact absurd (UInt64.le_iff_toNat_le.mp hafter) (Nat.not_le.mpr hbefore)
    have hnat := hnumber b hless.le
    rw [hb] at hnat
    exact hless.ne hnat.symm

end Era

/-! ## The chain of eras -/

section

variable {e : Era} {cs : List ParamsChange}

theorem eras_cons (e : Era) (c : ParamsChange) (cs : List ParamsChange) :
    eras e (c :: cs) = e :: eras (e.next c) cs := List.scanl_cons

theorem exists_eras_eq_cons (e : Era) (cs : List ParamsChange) : ∃ es, eras e cs = e :: es := by
  cases cs with
  | nil => exact ⟨[], rfl⟩
  | cons c cs => exact ⟨_, eras_cons e c cs⟩

/-- The paces of the eras take over from one another. -/
theorem Era.AdmitsAll.chained (h : e.AdmitsAll cs) :
    Pace.Chained ((eras e cs).map Era.pace) := by
  induction cs generalizing e with
  | nil => exact List.isChain_singleton _
  | cons c cs ih =>
      have hrest := ih h.2
      obtain ⟨es, hes⟩ := exists_eras_eq_cons (e.next c) cs
      rw [eras_cons, hes, List.map_cons, List.map_cons]
      rw [hes, List.map_cons] at hrest
      exact List.isChain_cons_cons.mpr ⟨h.1.follows, hrest⟩

/-- The `i`-th change leads from the `i`-th era to the next. -/
theorem Era.AdmitsAll.getElem? (h : e.AdmitsAll cs) {i : ℕ} {c : ParamsChange}
    (hc : cs[i]? = some c) : ∃ old, (eras e cs)[i]? = some old ∧
      (eras e cs)[i + 1]? = some (old.next c) ∧ old.Admits c := by
  induction cs generalizing e i with
  | nil => cases hc
  | cons d cs ih =>
      rw [eras_cons]
      cases i with
      | zero =>
          obtain rfl := Option.some.inj hc
          obtain ⟨es, hes⟩ := exists_eras_eq_cons (e.next d) cs
          refine ⟨e, rfl, ?_, h.1⟩
          rw [hes]
          rfl
      | succ i => exact ih h.2 hc

theorem map_eraAt (es : List Era) (h : UInt64) :
    (eraAt es h).map Era.pace = Pace.current (es.map Era.pace) h.toNat := by
  rw [eraAt, Pace.current, List.filter_map, List.getLast?_map]
  -- blocks are compared as numbers
  rfl

/-- **Refinement.**  Without overflow blocks are numbered at the paces of the eras. -/
theorem toNat_batchIdAt {es : List Era} {h b : UInt64} (hnumbers : NumbersAt es h)
    (hb : batchIdAt es h = some b) :
    Pace.numberAt (es.map Era.pace) h.toNat = some b.toNat := by
  obtain ⟨e, he, rfl⟩ := Option.map_eq_some_iff.mp hb
  rw [Pace.numberAt, ← map_eraAt, he, Option.map_some, Option.map_some,
    Era.toNat_batchId (hnumbers e he)]

/-- Every block from the first anchor on has a batch. -/
theorem exists_batchIdAt (cs : List ParamsChange) {h : UInt64} (hh : e.epoch.anchorBlock ≤ h) :
    ∃ b, batchIdAt (eras e cs) h = some b := by
  obtain ⟨es, hes⟩ := exists_eras_eq_cons e cs
  obtain ⟨n, hn⟩ := Pace.exists_numberAt (p := e.pace) (es.map Era.pace)
    (UInt64.le_iff_toNat_le.mp hh)
  rw [hes]
  rw [Pace.numberAt, ← List.map_cons, ← map_eraAt] at hn
  obtain ⟨p, hp, -⟩ := Option.map_eq_some_iff.mp hn
  obtain ⟨e', he', -⟩ := Option.map_eq_some_iff.mp hp
  exact ⟨_, by rw [batchIdAt, he', Option.map_some]⟩

section

variable (hadmits : e.AdmitsAll cs)

include hadmits

/-- The batch of the first anchor; nothing overflows there. -/
theorem batchIdAt_anchorBlock :
    batchIdAt (eras e cs) e.epoch.anchorBlock = some e.epoch.anchorBatchId := by
  have hchain := hadmits.chained
  obtain ⟨es, hes⟩ := exists_eras_eq_cons e cs
  rw [hes, List.map_cons] at hchain
  have hstart := Pace.numberAt_start hchain
  obtain ⟨b, hb⟩ := exists_batchIdAt cs (UInt64.le_refl e.epoch.anchorBlock)
  have hnumbers : NumbersAt (eras e cs) e.epoch.anchorBlock := by
    intro e' he'
    rw [hes] at he'
    rw [Pace.numberAt, ← List.map_cons, show e.pace.start = e.epoch.anchorBlock.toNat from rfl,
      ← map_eraAt, he', Option.map_some, Option.map_some] at hstart
    have hnumber : e'.pace.number e.epoch.anchorBlock.toNat = e.pace.first :=
      Option.some.inj hstart
    show e'.pace.number e.epoch.anchorBlock.toNat < 2 ^ 64
    rw [hnumber]
    exact e.epoch.anchorBatchId.toNat_lt
  have hnat := toNat_batchIdAt hnumbers hb
  rw [hes, List.map_cons] at hnat
  rw [hb, UInt64.toNat_inj.mp (Option.some.inj (hnat.symm.trans hstart))]

/-- A block below one whose batch does not overflow has a batch that does not. -/
theorem NumbersAt.of_le {h h' : UInt64} (hh : e.epoch.anchorBlock ≤ h) (hle : h ≤ h')
    (hnumbers : NumbersAt (eras e cs) h') : NumbersAt (eras e cs) h := by
  intro e' he'
  have hchain := hadmits.chained
  obtain ⟨b, hb⟩ := exists_batchIdAt cs (UInt64.le_trans hh hle)
  have hnat := toNat_batchIdAt hnumbers hb
  have hn : Pace.numberAt ((eras e cs).map Era.pace) h.toNat = some (e'.pace.number h.toNat) := by
    rw [Pace.numberAt, ← map_eraAt, he', Option.map_some, Option.map_some]
  obtain ⟨es, hes⟩ := exists_eras_eq_cons e cs
  rw [hes, List.map_cons] at hchain hnat hn
  exact (Pace.numberAt_mono hchain (UInt64.le_iff_toNat_le.mp hh) (UInt64.le_iff_toNat_le.mp hle)
    hn hnat).trans_lt b.toNat_lt

end

/-- **Batch numbers across parameter changes.**  For changes that take effect one after the other,
absent overflow: the first anchor has the first batch; batch numbers never decrease, and from a
block to the next they go up by at most one; and each era is anchored at the first block, from the
anchor of the era before it on, that this era gives the first batch of the change. -/
theorem batchIdAt_of_changes (hadmits : e.AdmitsAll cs) :
    batchIdAt (eras e cs) e.epoch.anchorBlock = some e.epoch.anchorBatchId ∧
      (∀ h h' : UInt64, e.epoch.anchorBlock ≤ h → h ≤ h' → NumbersAt (eras e cs) h' →
        ∃ b b', batchIdAt (eras e cs) h = some b ∧ batchIdAt (eras e cs) h' = some b' ∧ b ≤ b' ∧
          (h'.toNat = h.toNat + 1 → b'.toNat ≤ b.toNat + 1)) ∧
      ∀ (i : ℕ) (c : ParamsChange), cs[i]? = some c →
        ∃ old new, (eras e cs)[i]? = some old ∧ (eras e cs)[i + 1]? = some new ∧
          new.epoch.anchorBatchId = c.effectiveAtBatch ∧
          IsLeast {h | old.epoch.anchorBlock ≤ h ∧ old.batchId h = c.effectiveAtBatch}
            new.epoch.anchorBlock := by
  refine ⟨batchIdAt_anchorBlock hadmits, ?_, ?_⟩
  · intro h h' hh hle hnumbers
    obtain ⟨b, hb⟩ := exists_batchIdAt cs hh
    obtain ⟨b', hb'⟩ := exists_batchIdAt cs (UInt64.le_trans hh hle)
    have hn := toNat_batchIdAt (hnumbers.of_le hadmits hh hle) hb
    have hn' := toNat_batchIdAt hnumbers hb'
    -- the eras follow each other without gaps, so the numbers are those of one pace
    have hchain := hadmits.chained
    have hstart := UInt64.le_iff_toNat_le.mp hh
    refine ⟨b, b', hb, hb', ?_, ?_⟩
    · obtain ⟨es, hes⟩ := exists_eras_eq_cons e cs
      rw [hes, List.map_cons] at hchain hn hn'
      exact UInt64.le_iff_toNat_le.mpr
        (Pace.numberAt_mono hchain hstart (UInt64.le_iff_toNat_le.mp hle) hn hn')
    · intro hsucc
      rw [hsucc] at hn'
      obtain ⟨es, hes⟩ := exists_eras_eq_cons e cs
      rw [hes, List.map_cons] at hchain hn hn'
      exact (Pace.numberAt_succ hchain hstart hn hn').2
  · intro i c hc
    obtain ⟨old, hold, hnew, hold'⟩ := hadmits.getElem? hc
    exact ⟨old, old.next c, hold, hnew, rfl, hold'.isLeast_anchorBlock⟩

end

/-! ## A network that slows down and speeds up -/

/-- Batch 50 starts at block 1000; a batch has 10 blocks. -/
def sampleEra : Era := ⟨⟨1000, 50⟩, ⟨10, 4, 3, 1, 2, 3⟩, by decide⟩

/-- From batch 55 on a batch has 20 blocks, then 7 in batch 55 already, and 12 from batch 60 on. -/
def sampleChanges : List ParamsChange :=
  [⟨55, ⟨20, 14, 3, 1, 2, 3⟩, by decide⟩, ⟨55, ⟨7, 1, 3, 1, 2, 3⟩, by decide⟩,
    ⟨60, ⟨12, 6, 3, 1, 2, 3⟩, by decide⟩]

/-- The batch numbers around the changes. -/
theorem sample_batch_numbers :
    batchIdAt (eras sampleEra sampleChanges) 1000 = some 50 ∧
      ∃ b b', batchIdAt (eras sampleEra sampleChanges) 1049 = some b ∧
        batchIdAt (eras sampleEra sampleChanges) 1050 = some b' ∧ b ≤ b' ∧
        b'.toNat ≤ b.toNat + 1 := by
  have hadmits : sampleEra.AdmitsAll sampleChanges :=
    ⟨⟨by decide, by decide⟩, ⟨by decide, by decide⟩, ⟨by decide, by decide⟩, trivial⟩
  have hnumbers : NumbersAt (eras sampleEra sampleChanges) 1050 := by
    intro e he
    obtain rfl := Option.some.inj he
    show _ < _
    decide
  obtain ⟨hfirst, hstep, -⟩ := batchIdAt_of_changes hadmits
  obtain ⟨b, b', hb, hb', hle, hsucc⟩ := hstep 1049 1050 (by decide) (by decide) hnumbers
  exact ⟨hfirst, b, b', hb, hb', hle, hsucc rfl⟩
