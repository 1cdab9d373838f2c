/-
# A commit that passes validation can be settled

The balance check of a commit counts one worst-case outflow for each order.  Settlement
reserves for each fill on its own: a buy pays the floor of its quote amount fill by fill.
Floor division is superadditive, so the reservations of all fills of an order stay within
the outflow that was counted for it (`sum_map_mul_div_le`), and confirmations and releases
only raise the projected balances.  Hence no registration of a fill is refused, in whatever
order the fills are registered (`validated_fills_register`).
-/
import DeadmktNode.Runs
import DeadmktNode.Settlement
import DeadmktNode.StrategyConvert

open List

/-! ## Sums over parts -/

/-- The floors of the parts sum to at most the floor of the whole. -/
theorem sum_map_mul_div_le (parts : List ℕ) (price divisor : ℕ) :
    (parts.map fun a => a * price / divisor).sum ≤ parts.sum * price / divisor := by
  induction parts with
  | nil => simp
  | cons a parts ih =>
      rw [List.map_cons, List.sum_cons, List.sum_cons, Nat.add_mul]
      calc a * price / divisor + (parts.map fun a => a * price / divisor).sum
          ≤ a * price / divisor + parts.sum * price / divisor := Nat.add_le_add_left ih _
        _ ≤ (a * price + parts.sum * price) / divisor := Nat.div_add_div_le_add_div

/-- Items are charged to budgets by their index, counted from `k` on.  If the items of each
budget cost at most that budget, all items cost at most the sum of the budgets. -/
theorem sum_map_le_sum_budgets {α : Type*} (cost : α → ℕ) (budgets : List ℕ) (k : ℕ)
    (items : List (ℕ × α)) (hindex : ∀ x ∈ items, k ≤ x.1 ∧ x.1 < k + budgets.length)
    (hbudget : ∀ i b, budgets[i]? = some b →
      ((items.filter fun x => x.1 = k + i).map fun x => cost x.2).sum ≤ b) :
    (items.map fun x => cost x.2).sum ≤ budgets.sum := by
  induction budgets generalizing k items with
  | nil =>
      cases items with
      | nil => simp
      | cons x items =>
          have hx := hindex x List.mem_cons_self
          rw [List.length_nil] at hx
          omega
  | cons b budgets ih =>
      -- the items of the first budget, and the others
      have hsplit : (items.map fun x => cost x.2).sum
          = ((items.filter fun x => x.1 = k).map fun x => cost x.2).sum
            + ((items.filter fun x => ¬ x.1 = k).map fun x => cost x.2).sum := by
        rw [← List.sum_append, ← List.map_append]
        refine ((List.Perm.map _ ?_).sum_eq).symm
        simpa using List.filter_append_perm (fun x : ℕ × α => decide (x.1 = k)) items
      have hfirst := hbudget 0 b rfl
      rw [Nat.add_zero] at hfirst
      have hrest : ((items.filter fun x => ¬ x.1 = k).map fun x => cost x.2).sum
          ≤ budgets.sum := by
        refine ih (k + 1) _ ?_ ?_
        · intro x hx
          rw [List.mem_filter, decide_eq_true_eq] at hx
          have hbounds := hindex x hx.1
          rw [List.length_cons] at hbounds
          omega
        · intro i c hc
          have hitems := hbudget (i + 1) c hc
          have hsame : (items.filter fun x => ¬ x.1 = k).filter (fun x => x.1 = k + 1 + i)
              = items.filter fun x => x.1 = k + (i + 1) := by
            rw [List.filter_filter]
            refine List.filter_congr fun x _ => ?_
            rw [← Bool.decide_and, decide_eq_decide]
            omega
          rwa [hsame]
      rw [hsplit, List.sum_cons]
      exact Nat.add_le_add hfirst hrest

/-! ## Covered reservations -/

namespace EscrowTracker

/-- What is reserved and earmarked is covered by the confirmed balance of every token. -/
def Solvent (t : EscrowTracker) : Prop :=
  ∀ token, exactSum (t.balance token).pendingOut + (t.balance token).earmarked.toNat
    ≤ (t.balance token).confirmed.toNat

/-- The match has no entry on any token. -/
def Unseen (t : EscrowTracker) (matchHash : String) : Prop :=
  ∀ token, (t.balance token).pendingOut.lookup matchHash = none ∧
    (t.balance token).pendingIn.lookup matchHash = none

/-- A match without an entry is one that is not pending. -/
theorem unseen_iff {t : EscrowTracker} {matchHash : String} :
    t.Unseen matchHash ↔ t.hasPending matchHash = false := by
  have hbal : ∀ bal : TokenBalance, bal.hasPending matchHash = false ↔
      bal.pendingOut.lookup matchHash = none ∧ bal.pendingIn.lookup matchHash = none := by
    intro bal
    rw [TokenBalance.hasPending, Bool.or_eq_false_iff, Option.isSome_eq_false_iff,
      Option.isNone_iff_eq_none, Option.isSome_eq_false_iff, Option.isNone_iff_eq_none]
  rw [hasPending, List.any_eq_false]
  constructor
  · intro h bal hmem
    obtain ⟨token, htoken⟩ := AList.mem_values.mp hmem
    have ht := h token
    rw [balance, htoken, Option.getD_some, ← hbal] at ht
    rw [ht]
    exact Bool.false_ne_true
  · intro h token
    unfold balance
    cases htoken : t.balances.lookup token with
    | none => exact ⟨rfl, rfl⟩
    | some bal =>
        rw [Option.getD_some, ← hbal]
        exact Bool.eq_false_iff.mpr (h bal (AList.mem_values.mpr ⟨token, htoken⟩))

section

variable {t : EscrowTracker} {matchHash : String}

/-- The projected balance of a solvent tracker is what is confirmed beyond the reservations
and the earmark. -/
theorem Solvent.projected_add (h : t.Solvent) (token : String) :
    (t.projected token).toNat
        + (exactSum (t.balance token).pendingOut + (t.balance token).earmarked.toNat)
      = (t.balance token).confirmed.toNat := by
  have hle := h token
  have hlt := (t.balance token).confirmed.toNat_lt
  rw [projected_eq, TokenBalance.toNat_projected (by omega)]
  omega

/-- **Registration.**  A fill of a new match that the projected balance covers is
registered.  It lowers the projected balance of the token that it pays in by its amount. -/
theorem Solvent.applyFlow {flow : EscrowFlow} (h : t.Solvent) (hnew : t.Unseen matchHash)
    (hcover : flow.outAmount.toNat ≤ (t.projected flow.outToken).toNat) :
    (t.applyFlow matchHash flow).1 = .ok () ∧ (t.applyFlow matchHash flow).2.Solvent ∧
      ∀ token, (t.projected token).toNat
        ≤ ((t.applyFlow matchHash flow).2.projected token).toNat
          + if flow.outToken = token then flow.outAmount.toNat else 0 := by
  -- neither a duplicate nor too much
  have hgrant : ¬ (t.balance flow.outToken).Refuses matchHash flow.outAmount := by
    rintro (hdup | hlow)
    · rw [(hnew flow.outToken).1] at hdup
      cases hdup
    · rw [projected_eq] at hcover
      have := UInt64.lt_iff_toNat_lt.mp hlow
      omega
  have hout : ∀ token, exactSum ((t.applyFlow matchHash flow).2.balance token).pendingOut
      = exactSum (t.balance token).pendingOut
        + if flow.outToken = token then flow.outAmount.toNat else 0 := by
    intro token
    rw [pendingOut_applyFlow]
    by_cases htoken : token = flow.outToken
    · rw [if_pos ⟨htoken, hgrant⟩, if_pos htoken.symm, exactSum_insert (hnew token).1, Nat.add_comm]
    · rw [if_neg (fun hj => htoken hj.1), if_neg (Ne.symm htoken), Nat.add_zero]
  have hsolvent : (t.applyFlow matchHash flow).2.Solvent := by
    intro token
    obtain ⟨hconf, hear⟩ := frame_applyFlow t matchHash flow token
    have hadd := h.projected_add token
    rw [hout, hconf, hear]
    split_ifs with htoken
    · rw [htoken] at hcover
      omega
    · omega
  refine ⟨?_, hsolvent, ?_⟩
  · obtain ⟨t₁, ht₁, heq⟩ := applyFlow_of_not_refuses hgrant
    have hin : ((t₁.balance flow.inToken).pendingIn.lookup matchHash) = none := by
      rw [pendingIn_of_addOut ht₁]
      exact (hnew flow.inToken).2
    rw [heq, trackInflow_fst, TokenBalance.trackResult, hin]
    rfl
  · intro token
    obtain ⟨hconf, hear⟩ := frame_applyFlow t matchHash flow token
    have hbefore := h.projected_add token
    have hafter := hsolvent.projected_add token
    rw [hout, hconf, hear] at hafter
    omega

/-- A registration gives no other match an entry. -/
theorem Unseen.applyFlow {other : String} {flow : EscrowFlow} (h : t.Unseen other)
    (hne : other ≠ matchHash) : (t.applyFlow matchHash flow).2.Unseen other := by
  intro token
  constructor
  · rw [pendingOut_applyFlow]
    split_ifs
    · rw [AList.lookup_insert_ne hne]
      exact (h token).1
    · exact (h token).1
  · rw [Option.eq_none_iff_forall_ne_some]
    intro a ha
    rcases pendingIn_applyFlow t matchHash flow ha with hold | ⟨heq, -⟩
    · rw [(h token).2] at hold
      cases hold
    · exact hne heq

/-- Erasing a key finds no new bindings. -/
theorem lookup_erase_of_none {m : HashMap String UInt64} {j : String} (k : String)
    (h : m.lookup j = none) : (m.erase k).lookup j = none := by
  by_cases hjk : j = k
  · rw [hjk, AList.lookup_erase]
  · rw [AList.lookup_erase_ne hjk, h]

/-- Where as much is confirmed, as much is earmarked and no more is on its way out, no projected
balance is lower. -/
theorem Solvent.mono {t' : EscrowTracker} (h : t.Solvent)
    (hconf : ∀ token, (t.balance token).confirmed.toNat ≤ (t'.balance token).confirmed.toNat)
    (hear : ∀ token, (t'.balance token).earmarked = (t.balance token).earmarked)
    (hout : ∀ token, exactSum (t'.balance token).pendingOut
      ≤ exactSum (t.balance token).pendingOut) :
    t'.Solvent ∧ ∀ token, (t.projected token).toNat ≤ (t'.projected token).toNat := by
  have hsolvent : t'.Solvent := by
    intro token
    have hle := h token
    have hmore := hconf token
    have hlt := hout token
    rw [hear]
    omega
  refine ⟨hsolvent, fun token => ?_⟩
  have hbefore := h.projected_add token
  have hafter := hsolvent.projected_add token
  have hmore := hconf token
  have hlt := hout token
  rw [hear] at hafter
  omega

/-- **Confirmation.**  If no confirmed balance overflows, a confirmation lowers no projected
balance. -/
theorem Solvent.confirmSettlement (h : t.Solvent)
    (hfits : ∀ token, (t.balance token).confirmed.toNat
      + (((t.balance token).pendingIn.lookup matchHash).getD 0).toNat < 2 ^ 64) :
    (t.confirmSettlement matchHash).2.Solvent ∧
      ∀ token, (t.projected token).toNat
        ≤ ((t.confirmSettlement matchHash).2.projected token).toNat := by
  apply h.mono
  · intro token
    rw [balance_confirmSettlement, TokenBalance.confirm_confirmed, UInt64.toNat_add,
      Nat.mod_eq_of_lt (hfits token)]
    exact Nat.le_add_right _ _
  · intro token
    rw [balance_confirmSettlement]
    rfl
  · intro token
    rw [balance_confirmSettlement]
    exact exactSum_erase_le _ _

theorem Unseen.confirmSettlement {other : String} (h : t.Unseen other) :
    (t.confirmSettlement matchHash).2.Unseen other := by
  intro token
  rw [balance_confirmSettlement]
  exact ⟨lookup_erase_of_none _ (h token).1, lookup_erase_of_none _ (h token).2⟩

/-- **Release.**  A release lowers no projected balance. -/
theorem Solvent.releasePending (h : t.Solvent) :
    (t.releasePending matchHash).2.Solvent ∧
      ∀ token, (t.projected token).toNat
        ≤ ((t.releasePending matchHash).2.projected token).toNat := by
  apply h.mono
  · intro token
    rw [balance_releasePending]
    exact le_refl _
  · intro token
    rw [balance_releasePending]
    rfl
  · intro token
    rw [balance_releasePending]
    exact exactSum_erase_le _ _

theorem Unseen.releasePending {other : String} (h : t.Unseen other) :
    (t.releasePending matchHash).2.Unseen other := by
  intro token
  rw [balance_releasePending]
  exact ⟨lookup_erase_of_none _ (h token).1, lookup_erase_of_none _ (h token).2⟩

end

end EscrowTracker

/-! ## Registrations in any order -/

namespace SettlementManager

section

variable [HexCrate]

/-- What happens to the tracker of a node that settles a commit: fills are registered, each
with the position of its order in the commit, and matches are confirmed or released. -/
inductive CoverInput where
  | register (i : ℕ) (args : MatchTerms)
  | confirm (matchHash : String)
  | release (matchHash : String)
deriving DecidableEq

def coverStep (mgr : SettlementManager) : CoverInput → Option SettlementManager
  | .register _ args => (mgr.registerMatch args).map Prod.snd
  | .confirm matchHash => some { mgr with
      tracker := (mgr.tracker.confirmSettlement matchHash).2
      pending := mgr.pending.erase matchHash }
  | .release matchHash => some { mgr with
      tracker := (mgr.tracker.releasePending matchHash).2
      pending := mgr.pending.erase matchHash }

def coverSystem : System SettlementManager CoverInput := ⟨coverStep⟩

@[simp] theorem coverSystem_step : coverSystem.step = coverStep := rfl

/-- The registrations among the inputs. -/
def registrations : List CoverInput → List (ℕ × MatchTerms)
  | [] => []
  | .register i args :: inputs => (i, args) :: registrations inputs
  | .confirm _ :: inputs | .release _ :: inputs => registrations inputs

/-- A registration succeeds. -/
def Registers (mgr : SettlementManager) : CoverInput → Prop
  | .register _ args => ∃ mgr', mgr.registerMatch args = some (.ok (), mgr')
  | _ => True

/-- A confirmation overflows no confirmed balance. -/
def ConfirmFits (mgr : SettlementManager) : CoverInput → Prop
  | .confirm matchHash => ∀ token, (mgr.tracker.balance token).confirmed.toNat
      + (((mgr.tracker.balance token).pendingIn.lookup matchHash).getD 0).toNat < 2 ^ 64
  | _ => True

/-- What a registration reserves of a token. -/
def reservation (mgr : SettlementManager) (token : String) (args : MatchTerms) : ℕ :=
  if (mgr.flowOf args).outToken = token then (mgr.flowOf args).outAmount.toNat else 0

omit [HexCrate] in
theorem reservation_congr {mgr mgr' : SettlementManager} (h : mgr'.ownNftId = mgr.ownNftId) :
    mgr'.reservation = mgr.reservation := by
  funext token args
  unfold reservation
  rw [flowOf_congr h]

/-- A registration that the tracker answers with success. -/
theorem registerMatch_of_ok {mgr : SettlementManager} {args : MatchTerms}
    (hdiv : EscrowTracker.priceDivisor args.baseDecimals args.quoteDecimals ≠ 0)
    (h : (mgr.tracker.applyFlow args.m.hashHex (mgr.flowOf args)).1 = .ok ()) :
    ∃ mgr', mgr.registerMatch args = some (.ok (), mgr') ∧
      mgr'.tracker = (mgr.tracker.applyFlow args.m.hashHex (mgr.flowOf args)).2 ∧
      mgr'.ownNftId = mgr.ownNftId := by
  rw [registerMatch_eq, if_neg hdiv]
  generalize mgr.tracker.applyFlow args.m.hashHex (mgr.flowOf args) = r at h
  obtain ⟨answer, tracker⟩ := r
  subst h
  exact ⟨_, rfl, rfl, rfl⟩

/-- **Run.**  If the projected balances cover the reservations of all registrations, which
are of new and pairwise distinct matches, every one of them succeeds, wherever
confirmations and releases come in between. -/
theorem registers_of_covered {mgr : SettlementManager} {inputs : List CoverInput}
    (hsolvent : mgr.tracker.Solvent)
    (hdiv : ∀ x ∈ registrations inputs,
      EscrowTracker.priceDivisor x.2.baseDecimals x.2.quoteDecimals ≠ 0)
    (hnew : ∀ x ∈ registrations inputs, mgr.tracker.Unseen x.2.m.hashHex)
    (hdistinct : ((registrations inputs).map fun x => x.2.m.hashHex).Nodup)
    (hcover : ∀ token, ((registrations inputs).map fun x => mgr.reservation token x.2).sum
      ≤ (mgr.tracker.projected token).toNat)
    (hfits : coverSystem.Follows ConfirmFits mgr inputs) :
    coverSystem.Follows Registers mgr inputs := by
  induction inputs generalizing mgr with
  | nil => trivial
  | cons input inputs ih =>
      cases input with
      | register i args =>
          rw [registrations] at hdiv hnew hdistinct hcover
          -- what this registration reserves leaves the later ones covered
          have hall : ∀ token, mgr.reservation token args
              + ((registrations inputs).map fun x => mgr.reservation token x.2).sum
                ≤ (mgr.tracker.projected token).toNat := by
            intro token
            have h := hcover token
            rwa [List.map_cons, List.sum_cons] at h
          have hargs : (mgr.flowOf args).outAmount.toNat
              ≤ (mgr.tracker.projected (mgr.flowOf args).outToken).toNat := by
            have h := hall (mgr.flowOf args).outToken
            rw [reservation, if_pos rfl] at h
            omega
          have hunseen : mgr.tracker.Unseen args.m.hashHex := hnew (i, args) List.mem_cons_self
          have hdivArgs : EscrowTracker.priceDivisor args.baseDecimals args.quoteDecimals ≠ 0 :=
            hdiv (i, args) List.mem_cons_self
          obtain ⟨hok, hsolvent', hlower⟩ := hsolvent.applyFlow hunseen hargs
          obtain ⟨mgr', hstep, htracker, hown⟩ :=
            registerMatch_of_ok hdivArgs hok
          refine ⟨⟨mgr', hstep⟩, fun s hs => ?_⟩
          have hfits' := hfits.2 s hs
          rw [coverSystem_step, coverStep, hstep, Option.map_some] at hs
          obtain rfl : mgr' = s := Option.some.inj hs
          rw [List.map_cons, List.nodup_cons] at hdistinct
          refine ih (htracker ▸ hsolvent') (fun x hx => hdiv x (List.mem_cons_of_mem _ hx)) ?_
            hdistinct.2 (fun token => ?_) hfits'
          · intro x hx
            rw [htracker]
            refine (hnew x (List.mem_cons_of_mem _ hx)).applyFlow fun heq => hdistinct.1 ?_
            exact heq ▸ List.mem_map_of_mem hx
          · have hsum := hall token
            have hone := hlower token
            rw [reservation] at hsum
            rw [reservation_congr hown, htracker]
            omega
      | confirm matchHash =>
          obtain ⟨hsolvent', hraise⟩ := hsolvent.confirmSettlement hfits.1
          refine ⟨trivial, fun s hs => ?_⟩
          have hfits' := hfits.2 s hs
          obtain rfl := Option.some.inj hs
          exact ih hsolvent' hdiv (fun x hx => (hnew x hx).confirmSettlement) hdistinct
            (fun token => (hcover token).trans (hraise token)) hfits'
      | release matchHash =>
          obtain ⟨hsolvent', hraise⟩ := @EscrowTracker.Solvent.releasePending _ matchHash hsolvent
          refine ⟨trivial, fun s hs => ?_⟩
          have hfits' := hfits.2 s hs
          obtain rfl := Option.some.inj hs
          exact ih hsolvent' hdiv (fun x hx => (hnew x hx).releasePending) hdistinct
            (fun token => (hcover token).trans (hraise token)) hfits'

end

end SettlementManager

/-! ## The fills of a commit -/

/-- The price scale of a pair is a power of ten that 128 bits hold. -/
def PowerScale (tokenDecimals : HashMap String UInt8) (pair : String) : Prop :=
  (decimalsOf tokenDecimals (quoteToken pair)).toNat
      ≤ (decimalsOf tokenDecimals (baseToken pair)).toNat + 8 ∧
    (decimalsOf tokenDecimals (baseToken pair)).toNat + 8
      - (decimalsOf tokenDecimals (quoteToken pair)).toNat ≤ 38

instance (tokenDecimals : HashMap String UInt8) (pair : String) :
    Decidable (PowerScale tokenDecimals pair) := inferInstanceAs (Decidable (_ ∧ _))

/-- The divisor of such a pair is that power. -/
theorem priceDivisor_of_powerScale {tokenDecimals : HashMap String UInt8} {pair : String}
    (h : PowerScale tokenDecimals pair) :
    EscrowTracker.priceDivisor (decimalsOf tokenDecimals (baseToken pair))
        (decimalsOf tokenDecimals (quoteToken pair))
      = 10 ^ ((decimalsOf tokenDecimals (baseToken pair)).toNat + 8
          - (decimalsOf tokenDecimals (quoteToken pair)).toNat) := by
  obtain ⟨hle, hsmall⟩ := h
  generalize decimalsOf tokenDecimals (baseToken pair) = b at hle hsmall
  generalize decimalsOf tokenDecimals (quoteToken pair) = q at hle hsmall
  have hb := b.toNat_lt
  have hq := q.toNat_lt
  have hexp : (b.toUInt32 + 8 - q.toUInt32).toNat = b.toNat + 8 - q.toNat := by
    rw [UInt32.toNat_sub, UInt32.toNat_add, UInt8.toNat_toUInt32, UInt8.toNat_toUInt32,
      show (8 : UInt32).toNat = 8 from rfl]
    omega
  have hlt := Nat.pow_le_pow_right (show 0 < 10 by decide) hsmall
  unfold EscrowTracker.priceDivisor EscrowTracker.pow10
  rw [hexp, if_pos (by omega), Nat.mod_eq_of_lt (hlt.trans_lt (by decide))]

/-- What a fill of an order costs of a token in the worst case. -/
def fillCost (tokenDecimals : HashMap String UInt8) (token : String)
    (p : OrderSpec × CanonicalOrder) (fillQuantity : ℕ) : ℕ :=
  if p.2.side = 1 then
    if token = quoteToken p.1.pair then
      fillQuantity * p.2.price.toNat
        / 10 ^ ((decimalsOf tokenDecimals (baseToken p.1.pair)).toNat + 8
          - (decimalsOf tokenDecimals (quoteToken p.1.pair)).toNat)
    else 0
  else if token = baseToken p.1.pair then fillQuantity else 0

section

variable (tokenDecimals : HashMap String UInt8) (token : String) (p : OrderSpec × CanonicalOrder)

/-- Splitting a fill does not raise its cost. -/
theorem sum_map_fillCost_le (fills : List ℕ) :
    (fills.map (fillCost tokenDecimals token p)).sum
      ≤ fillCost tokenDecimals token p fills.sum := by
  unfold fillCost
  split_ifs
  · exact sum_map_mul_div_le fills _ _
  · simp
  · simp
  · simp

theorem fillCost_mono {a b : ℕ} (h : a ≤ b) :
    fillCost tokenDecimals token p a ≤ fillCost tokenDecimals token p b := by
  unfold fillCost
  split_ifs
  · exact Nat.div_le_div_right (Nat.mul_le_mul_right _ h)
  · exact le_refl _
  · exact h
  · exact le_refl _

end

namespace SettlementManager

/-- A registration is a fill of an own order, on the order's side, with the tokens of its
pair and the decimals that it was validated with. -/
structure FillsOrder (tokenDecimals : HashMap String UInt8) (ownNftId : UInt64)
    (p : OrderSpec × CanonicalOrder) (args : MatchTerms) : Prop where
  order : if p.2.side = 1 then args.m.buyer.order = p.2.toOrder
    else args.m.seller.order = p.2.toOrder ∧ args.m.buyer.order.nftId ≠ ownNftId
  base : args.baseToken = baseToken p.1.pair
  quote : args.quoteToken = quoteToken p.1.pair
  baseScale : args.baseDecimals = decimalsOf tokenDecimals args.baseToken
  quoteScale : args.quoteDecimals = decimalsOf tokenDecimals args.quoteToken

/-- A fill reserves at most its cost. -/
theorem FillsOrder.reservation_le {mgr : SettlementManager}
    {tokenDecimals : HashMap String UInt8} {p : OrderSpec × CanonicalOrder} {args : MatchTerms}
    (h : FillsOrder tokenDecimals mgr.ownNftId p args) (hown : p.2.nftId = mgr.ownNftId)
    (hscale : PowerScale tokenDecimals p.1.pair) (token : String) :
    mgr.reservation token args
      ≤ fillCost tokenDecimals token p args.m.fillQuantity.toNat := by
  have horder := h.order
  unfold reservation flowOf sideOf fillCost
  rw [h.baseScale, h.quoteScale, h.base, h.quote, priceDivisor_of_powerScale hscale]
  by_cases hside : p.2.side = 1
  · rw [if_pos hside] at horder
    have hbuyer : args.m.buyer.order.nftId = mgr.ownNftId := by
      rw [horder]
      exact hown
    have hprice : args.m.buyer.order.price = p.2.price := by rw [horder]; rfl
    rw [if_pos hbuyer, if_pos hside, hprice]
    show (if quoteToken p.1.pair = token then
      (EscrowTracker.quoteAmount args.m.fillQuantity p.2.price _).toNat else 0) ≤ _
    by_cases htoken : token = quoteToken p.1.pair
    · rw [if_pos htoken.symm, if_pos htoken, EscrowTracker.quoteAmount, UInt64.toNat_ofNat']
      exact Nat.mod_le _ _
    · rw [if_neg (Ne.symm htoken)]
      exact Nat.zero_le _
  · rw [if_neg hside] at horder
    rw [if_neg horder.2, if_neg hside]
    show (if baseToken p.1.pair = token then args.m.fillQuantity.toNat else 0) ≤ _
    by_cases htoken : token = baseToken p.1.pair
    · rw [if_pos htoken.symm, if_pos htoken]
    · rw [if_neg (Ne.symm htoken)]
      exact Nat.zero_le _

/-- What the inputs fill of the order at position `i` of the commit. -/
def filledAt (i : ℕ) (inputs : List CoverInput) : ℕ :=
  (((registrations inputs).filter fun x => x.1 = i).map fun x => x.2.m.fillQuantity.toNat).sum

/-- The fills of a commit reserve at most the outflow that its orders were checked with. -/
theorem sum_reservation_le {mgr : SettlementManager} {tokenDecimals : HashMap String UInt8}
    {orders : List (OrderSpec × CanonicalOrder)} {inputs : List CoverInput}
    (hown : ∀ p ∈ orders, p.2.nftId = mgr.ownNftId)
    (hscale : ∀ p ∈ orders, PowerScale tokenDecimals p.1.pair)
    (hfills : ∀ x ∈ registrations inputs, ∃ p, orders[x.1]? = some p ∧
      FillsOrder tokenDecimals mgr.ownNftId p x.2)
    (hquantity : ∀ i p, orders[i]? = some p → filledAt i inputs ≤ p.2.quantity.toNat)
    (token : String) :
    ((registrations inputs).map fun x => mgr.reservation token x.2).sum
      ≤ totalOutflow tokenDecimals token orders := by
  -- every order pays for its own fills, its outflow being the budget
  refine sum_map_le_sum_budgets (mgr.reservation token)
    (orders.map (exactOutflow tokenDecimals token)) 0 (registrations inputs) ?_ ?_
  · intro x hx
    obtain ⟨p, hp, -⟩ := hfills x hx
    have hlt := (List.getElem?_eq_some_iff.mp hp).1
    rw [List.length_map]
    omega
  · intro i b hb
    rw [List.getElem?_map] at hb
    obtain ⟨p, hp, rfl⟩ := Option.map_eq_some_iff.mp hb
    have hmem := List.mem_of_getElem? hp
    rw [Nat.zero_add]
    calc (((registrations inputs).filter fun x => x.1 = i).map
            fun x => mgr.reservation token x.2).sum
        ≤ (((registrations inputs).filter fun x => x.1 = i).map
            fun x => fillCost tokenDecimals token p x.2.m.fillQuantity.toNat).sum := by
          refine List.sum_le_sum fun x hx => ?_
          rw [List.mem_filter, decide_eq_true_eq] at hx
          obtain ⟨p', hp', hfill⟩ := hfills x hx.1
          rw [hx.2, hp] at hp'
          obtain rfl := Option.some.inj hp'
          exact hfill.reservation_le (hown p hmem) (hscale p hmem) token
      _ = ((((registrations inputs).filter fun x => x.1 = i).map
            fun x => x.2.m.fillQuantity.toNat).map (fillCost tokenDecimals token p)).sum := by
          rw [List.map_map]
          rfl
      _ ≤ fillCost tokenDecimals token p (filledAt i inputs) :=
          sum_map_fillCost_le tokenDecimals token p _
      _ ≤ exactOutflow tokenDecimals token p :=
          fillCost_mono tokenDecimals token p (hquantity i p hp)

/-- **A commit that passes validation can be settled.**  Take the orders that validation
accepted against the projected balances of a solvent tracker.  Fills of these orders, of
new and pairwise distinct matches and at most the quantity of each order in sum, are all
registered, in whatever order they come and whatever matches are confirmed or released in
between; in particular none is refused for an insufficient balance. -/
theorem validated_fills_register [HexCrate] {mgr : SettlementManager} {specs : List OrderSpec}
    {batchId : UInt64} {params : BatchParams} {tokenDecimals : HashMap String UInt8}
    {marketConfigs : List MarketConfig} {nonces : ℕ → Bytes} {result : OrderChecks}
    (hsolvent : mgr.tracker.Solvent)
    (hvalid : validateOrders specs (validationContext mgr.ownNftId batchId params mgr.tracker
      tokenDecimals marketConfigs) nonces = some result)
    (hsums : OrderChecks.SumsFit (validationContext mgr.ownNftId batchId params mgr.tracker
        tokenDecimals marketConfigs) nonces 0
      (effectiveSpecs (validationContext mgr.ownNftId batchId params mgr.tracker
        tokenDecimals marketConfigs) specs)
      (startChecks (validationContext mgr.ownNftId batchId params mgr.tracker
        tokenDecimals marketConfigs) specs))
    (hscale : ∀ p ∈ result.accepted, PowerScale tokenDecimals p.1.pair)
    {inputs : List CoverInput}
    (hfills : ∀ x ∈ registrations inputs, ∃ p, result.accepted[x.1]? = some p ∧
      FillsOrder tokenDecimals mgr.ownNftId p x.2)
    (hquantity : ∀ i p, result.accepted[i]? = some p →
      filledAt i inputs ≤ p.2.quantity.toNat)
    (hfresh : ∀ x ∈ registrations inputs, mgr.tracker.hasPending x.2.m.hashHex = false)
    (hdistinct : ((registrations inputs).map fun x => x.2.m.hashHex).Nodup)
    (hfits : coverSystem.Follows ConfirmFits mgr inputs) :
    coverSystem.Follows Registers mgr inputs := by
  have hown : ∀ p ∈ result.accepted, p.2.nftId = mgr.ownNftId :=
    fun p hp => (OrderChecks.ids_checkOrders (by simp) hvalid p hp).1
  refine registers_of_covered hsolvent ?_ ?_ hdistinct ?_ hfits
  · intro x hx
    obtain ⟨p, hp, hfill⟩ := hfills x hx
    rw [hfill.baseScale, hfill.quoteScale, hfill.base, hfill.quote,
      priceDivisor_of_powerScale (hscale p (List.mem_of_getElem? hp))]
    exact (Nat.pow_pos (by decide)).ne'
  · exact fun x hx => EscrowTracker.unseen_iff.mpr (hfresh x hx)
  · intro token
    refine (sum_reservation_le hown hscale hfills hquantity token).trans ?_
    have hcovered := totalOutflow_accepted_le hsums hvalid token
    rwa [projectedBalances_validationContext] at hcovered

section

attribute [local instance] HexCrate.reference

/-- NFT 1 with half a `KAY` in escrow. -/
def halfKay : SettlementManager := new (EscrowTracker.new.setConfirmed "KAY" 50000) 1

/-- Its bid of half a `KAY` for 1 `EMM`, as the strategy writes it. -/
def bidSpec : OrderSpec := ⟨"EMM/KAY", "buy", "0.5", "1"⟩

/-- The bid after conversion. -/
def bid : CanonicalOrder :=
  ⟨[69, 77, 77, 47, 75, 65, 89], 1, 50000000, 100000, 1, 7, List.replicate 32 0⟩

/-- What the bid is checked against in batch 7. -/
def bidContext : OrderValidationContext :=
  validationContext 1 7 ⟨10, 4, 3, 1, 2, 3⟩ halfKay.tracker ∅ [⟨[69, 77, 77, 47, 75, 65, 89], 1⟩]

/-- A fill of the bid, under a match hash of 32 equal bytes. -/
def bidFill (quantity : UInt64) (hash : UInt8) : MatchTerms where
  m :=
    { batchId := 7
      poolId := 0
      symbol := [69, 77, 77, 47, 75, 65, 89]
      buyer := ⟨bid.toOrder, [], Vector.replicate 32 1⟩
      seller := ⟨⟨2, [69, 77, 77, 47, 75, 65, 89], 0, 50000000, quantity, 7, [hash]⟩, [],
        Vector.replicate 32 2⟩
      fillQuantity := quantity
      settlementPrice := 50000000
      matchHash := Vector.replicate 32 hash
      gasPayerNftId := 1 }
  isGasPayer := true
  swapStartBlock := 107
  blocksPerBatch := 10
  baseToken := "EMM"
  quoteToken := "KAY"
  baseDecimals := 5
  quoteDecimals := 5

theorem halfKay_solvent : halfKay.tracker.Solvent := by
  have hbal : ∀ token, halfKay.tracker.balance token
      = if token = "KAY" then ⟨50000, ∅, ∅, 0⟩ else .empty :=
    fun token => EscrowTracker.balance_update _ _ _ _
  intro token
  rw [hbal]
  split_ifs
  · decide
  · decide

/-- The checked bid. -/
def bidChecks : OrderChecks :=
  (validateOrders [bidSpec] bidContext fun _ => List.replicate 32 0).getD ⟨[], [], ∅⟩

theorem validateOrders_bid :
    validateOrders [bidSpec] bidContext (fun _ => List.replicate 32 0) = some bidChecks := by
  obtain ⟨result, hresult⟩ := Option.isSome_iff_exists.mp
    (show (validateOrders [bidSpec] bidContext fun _ => List.replicate 32 0).isSome by
      decide +kernel)
  rw [bidChecks, hresult]
  rfl

theorem accepted_bidChecks : bidChecks.accepted = [(bidSpec, bid)] := by decide +kernel

/-- A third and two thirds of the bid, with a release in between: the two floors are less
than what the bid was checked with. -/
theorem split_bid_registers :
    coverSystem.Follows Registers halfKay
      [.register 0 (bidFill 33333 1), .release "00", .register 0 (bidFill 66667 2)] := by
  have hsums : OrderChecks.SumsFit bidContext (fun _ => List.replicate 32 0) 0
      (effectiveSpecs bidContext [bidSpec]) (startChecks bidContext [bidSpec]) := by
    have hconv : convertedOrders bidContext (fun _ => List.replicate 32 0) 0
        (effectiveSpecs bidContext [bidSpec]) = [(bidSpec, bid)] := rfl
    refine OrderChecks.sumsFit_of_total ?_ ?_
    · intro p hp _
      rw [hconv] at hp
      obtain rfl := List.mem_singleton.mp hp
      unfold ScaleFits
      decide +kernel
    · intro token
      rw [hconv, startChecks, totalOutflow, totalOutflow, List.map_nil, List.sum_nil,
        List.map_singleton, List.sum_singleton, exactOutflow, if_pos (by decide)]
      split_ifs <;> decide +kernel
  have hbase : "EMM" = baseToken bidSpec.pair := by decide +kernel
  have hquote : "KAY" = quoteToken bidSpec.pair := by decide +kernel
  have hfill : ∀ quantity hash, FillsOrder ∅ 1 (bidSpec, bid) (bidFill quantity hash) :=
    fun _ _ => ⟨rfl, hbase, hquote, rfl, rfl⟩
  refine validated_fills_register halfKay_solvent validateOrders_bid hsums ?_ ?_ ?_
    (by decide +kernel) (by decide +kernel)
    ⟨trivial, fun _ _ => ⟨trivial, fun _ _ => ⟨trivial, fun _ _ => trivial⟩⟩⟩
  · rw [accepted_bidChecks]
    decide +kernel
  · intro x hx
    rw [accepted_bidChecks]
    rcases List.mem_cons.mp hx with rfl | hx
    · exact ⟨(bidSpec, bid), rfl, hfill _ _⟩
    · obtain rfl := List.mem_singleton.mp hx
      exact ⟨(bidSpec, bid), rfl, hfill _ _⟩
  · rw [accepted_bidChecks]
    intro i p hp
    obtain ⟨rfl, rfl⟩ : i = 0 ∧ p = (bidSpec, bid) := by
      cases i with
      | zero => exact ⟨rfl, (Option.some.inj hp).symm⟩
      | succ i => cases hp
    decide +kernel

end

end SettlementManager
