import Kyneto.PaymentDistributor.Solvency
import Kyneto.StorageMarketplace.Ledger

/-!
# What a completion sends and what the distributor books

The marketplace sends the escrow of a completed deal, less a fee at its own rate. The distributor splits the
deal's `totalCost` at rates of its own. A renewal raises the escrow and not `totalCost`, and the fee has been
added to `totalCost` before it is taken off again, so the two sums differ. `moneyAgrees_iff` says by how much:
they agree up to rounding exactly if the renewals paid in what the completion withholds.
-/

namespace Kyneto

open Evm

/-- A successful call of the network, with the states around it. -/
abbrev NetworkEntry (sites : Sites) := Entry Network (NetworkAction sites) NetworkLog

/-! ## The market inside the network -/

/-- The network in which the marketplace has just been deployed, whatever state the other contracts are in. -/
def Network.withNewMarket (n : Network) (msg : Msg) (treasury : Address) : Network :=
  { n with market := .deploy msg treasury }

section Market

variable {sites : Sites} {n n' : Network} {logs : List NetworkLog}

/-- A call of the marketplace, as the marketplace's own system sees it. -/
def NetworkAction.onMarket (a : NetworkAction sites) (c : MarketCall) : Action sites.marketplace where
  msg := a.msg
  call := .market c
  sender_ne_zero := a.sender_ne_zero
  sender_ne_this := a.sender_ne_marketplace
  standard := by intro c h; cases h

/-- The distributor reads the other contracts and writes the token and itself. -/
theorem distributorStep_frame {msg : Msg} {c : PaymentDistributor.Call}
    (h : n.distributorStep sites msg c = .ok (n', logs)) :
    n'.market = n.market ∧ n'.registry = n.registry ∧ n'.pledges = n.pledges := by
  cases c with
  | distributeCapacityRewards provider pledgeId =>
    simp only [Network.distributorStep, Network.distributeCapacityRewards, bind_eq_ok, pure_eq_ok,
      Prod.exists, Prod.mk.injEq] at h
    obtain ⟨_, -, _, -, _, -, _, -, _, -, _, _, -, _, -, _, -, rfl, -⟩ := h
    exact ⟨rfl, rfl, rfl⟩
  | distributeUsageRewards dealId =>
    simp only [Network.distributorStep, Network.distributeUsageRewards, bind_eq_ok, pure_eq_ok, Prod.exists,
      Prod.mk.injEq] at h
    obtain ⟨_, -, _, -, _, -, _, -, _, -, _, -, _, -, _, _, -, rfl, -⟩ := h
    exact ⟨rfl, rfl, rfl⟩
  | payProofBonus provider =>
    simp only [Network.distributorStep, Network.payProofBonus, bind_eq_ok, pure_eq_ok, Prod.exists,
      Prod.mk.injEq] at h
    obtain ⟨_, -, _, -, _, -, _, -, _, _, -, rfl, -⟩ := h
    exact ⟨rfl, rfl, rfl⟩
  | withdrawEarnings =>
    simp only [Network.distributorStep, Network.withdrawEarnings, bind_eq_ok, pure_eq_ok, Prod.exists,
      Prod.mk.injEq] at h
    obtain ⟨_, -, _, -, _, -, _, _, -, rfl, -⟩ := h
    exact ⟨rfl, rfl, rfl⟩
  | withdrawProtocolFees recipient =>
    simp only [Network.distributorStep, Network.withdrawProtocolFees, bind_eq_ok, pure_eq_ok, Prod.exists,
      Prod.mk.injEq] at h
    obtain ⟨_, -, _, -, _, _, -, rfl, -⟩ := h
    exact ⟨rfl, rfl, rfl⟩
  | useRepairReserve newProvider amount =>
    simp only [Network.distributorStep, Network.useRepairReserve, bind_eq_ok, pure_eq_ok, Prod.mk.injEq] at h
    obtain ⟨_, -, _, -, _, -, rfl, -⟩ := h
    exact ⟨rfl, rfl, rfl⟩
  | updateRates _ _ _ | transferOwnership _ | renounceOwnership =>
    simp only [Network.distributorStep, Network.updateRates, bind_eq_ok, pure_eq_ok, Prod.mk.injEq] at h
    obtain ⟨_, -, rfl, -⟩ := h
    exact ⟨rfl, rfl, rfl⟩

/-- The market changes in its own calls only, and the distributor does not change in them. -/
theorem step_market {a : NetworkAction sites} (h : n.step sites a = .ok (n', logs)) :
    ((∀ c, a.call ≠ .base (.market c)) ∧ n'.market = n.market) ∨
      ∃ c l, a.call = .base (.market c) ∧ n'.distributor = n.distributor ∧
        Effect sites.marketplace n.toSystem a.msg (.market c) n'.toSystem l := by
  cases networkStep_of_ok h with
  | market call done =>
    exact Or.inr ⟨_, _, call, rfl, (marketStep_effect a.sender_ne_marketplace done).1⟩
  | token call done | registry call done | pledge call done => exact Or.inl ⟨by simp [call], rfl⟩
  | distributor call done => exact Or.inl ⟨by simp [call], (distributorStep_frame done).1⟩

end Market

/-! ## Creations and renewals -/

section Money

variable {sites : Sites}

/-- What the client pays for a renewal of the deal, if the call is one. -/
def renewalPaid (id : Nat) (e : NetworkEntry sites) : Nat :=
  match e.act.call with
  | .base (.market (.renewDeal dealId days)) =>
    if dealId = id then (charged e.pre.market (.market (.renewDeal dealId days))).total else 0
  | _ => 0

/-- What the client has paid for renewals of the deal. -/
def renewed (id : Nat) (hist : List (NetworkEntry sites)) : Nat := (hist.map (renewalPaid id)).sum

@[simp] theorem renewed_snoc (id : Nat) (hist : List (NetworkEntry sites)) (e : NetworkEntry sites) :
    renewed id (hist ++ [e]) = renewed id hist + renewalPaid id e := by
  simp [renewed]

/-- The escrow of an open deal is what it cost at its creation and what its renewals cost. -/
structure DealMoney (m : StorageMarketplace) (hist : List (NetworkEntry sites)) : Prop where
  blank : Blank m
  escrow : ∀ id, (m.deals id).status.isOpen = true →
    (m.deals id).escrowedAmount = (m.deals id).totalCost + renewed id hist
  free : ∀ id, m.dealCount ≤ id → (m.deals id).totalCost = 0
  unrenewed : ∀ id, m.dealCount ≤ id → renewed id hist = 0

variable {n n' : Network} {hist : List (NetworkEntry sites)} {e : NetworkEntry sites}

/-- A call that changes no deal and pays for no renewal keeps the account of the money. -/
theorem DealMoney.of_sameDeals {m m' : StorageMarketplace} (h : DealMoney m hist) (hblank : Blank m')
    (hd : m'.deals = m.deals) (hn : m'.dealCount = m.dealCount) (hpaid : ∀ id, renewalPaid id e = 0) :
    DealMoney m' (hist ++ [e]) := by
  refine ⟨hblank, ?_, ?_, ?_⟩
  · intro id
    rw [hd, renewed_snoc, hpaid]
    exact h.escrow id
  · intro id
    rw [hd, hn]
    exact h.free id
  · intro id
    rw [hn, renewed_snoc, hpaid]
    exact h.unrenewed id

/-- A call about one deal: `p` is what it charges for a renewal. -/
theorem DealMoney.of_wrote {m m' : StorageMarketplace} {id count fees p : Nat} {deal : Deal}
    {pd : Address → List Nat} (h : DealMoney m hist) (hblank : Blank m')
    (w : Wrote m m' id deal count fees pd) (hcount : m.dealCount ≤ count)
    (hpaid : ∀ i, renewalPaid i e = if i = id then p else 0)
    (hescrow : deal.status.isOpen = true →
      deal.escrowedAmount = deal.totalCost + (renewed id hist + p))
    (hfresh : count ≤ id → deal.totalCost = 0 ∧ p = 0) : DealMoney m' (hist ++ [e]) := by
  refine ⟨hblank, ?_, w.beyond (P := fun d => d.totalCost = 0) h.free hcount fun hid => (hfresh hid).1, ?_⟩
  · intro i hopen
    rw [renewed_snoc, hpaid]
    by_cases hi : i = id
    · subst hi
      rw [w.deal_self] at hopen ⊢
      rw [if_pos rfl]
      exact hescrow hopen
    · rw [w.deal_of_ne hi] at hopen ⊢
      rw [if_neg hi]
      exact h.escrow i hopen
  · intro i hle
    rw [w.dealCount] at hle
    rw [renewed_snoc, hpaid, h.unrenewed i (hcount.trans hle), Nat.zero_add]
    split
    · next hi => exact (hfresh (hi ▸ hle)).2
    · rfl

/-- The same for a call that is no renewal and leaves the deal closed, or its money as it was. -/
theorem DealMoney.of_unpaid {m m' : StorageMarketplace} {id fees : Nat} {deal : Deal}
    {pd : Address → List Nat} (h : DealMoney m hist) (hblank : Blank m')
    (w : Wrote m m' id deal m.dealCount fees pd) (hpaid : ∀ i, renewalPaid i e = 0)
    (htotal : deal.totalCost = (m.deals id).totalCost)
    (hescrow : deal.status.isOpen = true → (m.deals id).status.isOpen = true ∧
      deal.escrowedAmount = (m.deals id).escrowedAmount) : DealMoney m' (hist ++ [e]) := by
  apply h.of_wrote (p := 0) hblank w (Nat.le_refl _)
  · intro i
    rw [hpaid, ite_self]
  · intro hopen
    obtain ⟨hwas, hsame⟩ := hescrow hopen
    rw [hsame, htotal]
    exact h.escrow id hwas
  · intro hle
    exact ⟨htotal.trans (h.free id hle), rfl⟩

/-- What the marketplace does to the money of a deal, one case for each of its functions. -/
theorem dealMoney_effect {a : NetworkAction sites} {c : MarketCall} {l : List Log} {logs : List NetworkLog}
    (h : DealMoney n.market hist) (hcall : a.call = .base (.market c))
    (he : Effect sites.marketplace n.toSystem a.msg (.market c) n'.toSystem l) :
    DealMoney n'.market (hist ++ [⟨n, a, logs, n'⟩]) := by
  have hblank := blank_effect a.sender_ne_zero h.blank he
  cases he with
  | idle noDeal books _ =>
    apply h.of_sameDeals hblank books.deals books.dealCount
    intro id
    cases c with
    | renewDeal dealId days => cases noDeal
    | _ => simp [renewalPaid, hcall]
  | created _ _ _ _ _ _ _ wrote =>
    refine h.of_wrote (p := 0) hblank wrote (Nat.le_succ _) ?_ ?_ ?_
    · intro i
      simp [renewalPaid, hcall]
    · intro _
      rw [h.unrenewed _ (Nat.le_refl _), createdDeal, Deal.assignShards_eq]
      rfl
    · intro hle
      exact absurd hle (Nat.not_succ_le_self _)
  | @renewed dealId days cost deal _ _ deal_eq isOpen client cost_eq wrote =>
    subst deal_eq
    have hlt := h.blank.created_of_client a.sender_ne_zero client
    refine h.of_wrote (p := cost.total) hblank wrote (Nat.le_refl _) ?_ ?_ ?_
    · intro i
      simp only [renewalPaid, hcall, charged, eq_comm (a := i), cost_eq]
    · intro _
      have hescrow := h.escrow _ isOpen
      dsimp only
      omega
    · intro hge
      exact absurd hlt (Nat.not_lt.mpr hge)
  | completed deal_eq _ _ _ _ wrote | cancelled deal_eq _ _ _ wrote | failed deal_eq _ _ _ _ _ wrote =>
    subst deal_eq
    apply h.of_unpaid hblank wrote
    · intro i
      simp [renewalPaid, hcall]
    · rfl
    · exact Bool.false_ne_true.elim
  | lost deal_eq _ isOpen _ _ wrote | repaired deal_eq _ isOpen _ _ wrote =>
    subst deal_eq
    apply h.of_unpaid hblank wrote
    · intro i
      simp [renewalPaid, hcall]
    · rfl
    · exact fun _ => ⟨isOpen, rfl⟩
  | retrieving _ _ market | claimed _ _ market | withdrawn _ market =>
    apply h.of_sameDeals hblank
    · simp [market, StorageMarketplace.setRetrieval]
    · simp [market, StorageMarketplace.setRetrieval]
    · intro id
      simp [renewalPaid, hcall]

/-- So the account holds after every call of the network. -/
theorem dealMoney_step {a : NetworkAction sites} {logs : List NetworkLog} (h : DealMoney n.market hist)
    (hstep : n.step sites a = .ok (n', logs)) : DealMoney n'.market (hist ++ [⟨n, a, logs, n'⟩]) := by
  rcases step_market hstep with ⟨hother, hmarket⟩ | ⟨c, l, hcall, -, he⟩
  · rw [hmarket]
    apply h.of_sameDeals h.blank rfl rfl
    intro id
    unfold renewalPaid
    split
    · next hcall => exact absurd hcall (hother _)
    · rfl
  · exact dealMoney_effect h hcall he

theorem deployV2_market {msg : Msg} {slashing : Address} (h : Network.deployV2 sites msg slashing = .ok n) :
    n.market = { StorageMarketplace.deploy msg msg.sender with paymentDistributor := sites.distributor } := by
  simp only [Network.deployV2, System.setPaymentDistributor, bind_eq_ok, require_eq_ok, pure_eq_ok,
    Prod.exists, Prod.mk.injEq, exists_const] at h
  obtain ⟨system, l, ⟨_, -, -, -, rfl, -⟩, _, _, -, _, _, -, _, _, -, _, _, -, rfl⟩ := h
  rfl

theorem dealMoney_run {n₀ : Network} {msg : Msg} {slashing : Address}
    (h : Network.deployV2 sites msg slashing = .ok n₀) (as : List (NetworkAction sites)) :
    DealMoney (run (Network.step sites) n₀ as).market (history (Network.step sites) n₀ as) := by
  apply run_induction (P := fun n hist => DealMoney n.market hist) (C := fun _ _ => True) ?_
    (fun _ _ _ _ _ hm _ hs => dealMoney_step hm hs) as (meets_true n₀ as)
  rw [deployV2_market h]
  exact ⟨⟨fun _ _ => rfl, fun _ _ => rfl, fun _ _ => rfl⟩, fun _ _ => rfl, fun _ _ => rfl, fun _ _ => rfl⟩

end Money

/-! ## Do the two agree? -/

section Agreement

variable {sites : Sites}

/-- The two contracts agree on the deal that the call completed. Whatever number of providers is rewarded, what
is booked is at most what was sent, and with all fifteen rewarded less than one unit a share is left. -/
def MoneyAgrees (sites : Sites) (n n' : Network) (dealId : Nat) : Prop :=
  (∀ k ≤ 15, n.token.balanceOf sites.distributor + usageBooked k (n'.market.deals dealId).totalCost ≤
      n'.token.balanceOf sites.distributor) ∧
    n'.token.balanceOf sites.distributor <
      n.token.balanceOf sites.distributor + usageBooked 15 (n'.market.deals dealId).totalCost + 15

theorem usageBooked_mono {k k' : Nat} (totalCost : Nat) (h : k ≤ k') :
    usageBooked k totalCost ≤ usageBooked k' totalCost := by
  unfold usageBooked
  have hmul := Nat.mul_le_mul_right (providerPool totalCost / 15) h
  omega

/-- With all fifteen rewarded, what is not booked is the remainder of the shares. -/
theorem usageBooked_all (totalCost : Nat) :
    usageBooked 15 totalCost + providerPool totalCost % 15 = totalCost := by
  unfold usageBooked providerPool PROTOCOL_FEE_RATE RESERVE_RATE
  omega

/-- A completion finds its deal open, and its escrow above the fee. -/
theorem completion_guards {n n' : Network} {logs : List NetworkLog} {a : NetworkAction sites} {dealId : Nat}
    (hcall : a.call = .base (.market (.completeDeal dealId))) (h : n.step sites a = .ok (n', logs)) :
    (n.market.deals dealId).status.isOpen = true ∧
      protocolFee (n.market.deals dealId).totalCost n.market.protocolFeeBasisPoints ≤
        (n.market.deals dealId).escrowedAmount := by
  rcases step_market h with ⟨hother, -⟩ | ⟨c, l, hc, -, he⟩
  · exact absurd hcall (hother _)
  · obtain rfl : MarketCall.completeDeal dealId = c := by simpa [hcall] using hc
    cases he with
    | idle noDeal => cases noDeal
    | completed deal_eq active _ _ fee_le =>
      subst deal_eq
      exact ⟨by rw [active]; rfl, fee_le⟩

/-- **What is sent and what is booked, exactly.** For every completion in every run from the deployment: the
contracts agree if and only if what the client paid for renewals, together with the remainder of the
shares, makes up for the fee that the completion withholds, and for no more than that and rounding. -/
theorem moneyAgrees_iff {n₀ : Network} {msg : Msg} {slashing : Address}
    (h : Network.deployV2 sites msg slashing = .ok n₀) (as : List (NetworkAction sites))
    {a : NetworkAction sites} {dealId : Nat} {r : Network × List NetworkLog}
    (hcall : a.call = .base (.market (.completeDeal dealId)))
    (hok : Network.step sites (run (Network.step sites) n₀ as) a = .ok r)
    {deal : Deal} (hdeal : deal = (run (Network.step sites) n₀ as).market.deals dealId)
    {fee extra : Nat}
    (hfee : fee =
      protocolFee deal.totalCost (run (Network.step sites) n₀ as).market.protocolFeeBasisPoints)
    (hextra : extra =
      renewed dealId (history (Network.step sites) n₀ as) + providerPool deal.totalCost % 15) :
    MoneyAgrees sites (run (Network.step sites) n₀ as) r.1 dealId ↔ fee ≤ extra ∧ extra < fee + 15 := by
  obtain ⟨n', logs⟩ := r
  have hw := wired_run h as
  have hc := completedFrom_of_step hw hcall hok
  obtain ⟨hopen, hle⟩ := completion_guards hcall hok
  have hescrow := (dealMoney_run h as).escrow dealId hopen
  rw [← hdeal] at hc hle hescrow
  rw [← hfee] at hle
  have hsent : n'.token.balanceOf sites.distributor =
      (run (Network.step sites) n₀ as).token.balanceOf sites.distributor + (deal.escrowedAmount - fee) := by
    rw [hfee]
    exact hc.balance
  have hall := usageBooked_all deal.totalCost
  show MoneyAgrees sites _ n' dealId ↔ _
  unfold MoneyAgrees
  rw [hc.totalCost]
  constructor
  · rintro ⟨hle, hlt⟩
    have hle := hle 15 (Nat.le_refl _)
    omega
  · rintro ⟨hle, hlt⟩
    refine ⟨?_, by omega⟩
    intro k hk
    have hmono := usageBooked_mono deal.totalCost hk
    omega

end Agreement

/-! ### In the small network -/

namespace SmallNetwork

/-- The owner takes no fees. -/
def feeless : List (NetworkAction sites) :=
  account 0 0 (.base (.market (.setProtocolFee 0))) :: created SmallMarket.params

theorem feeless_completes : revertOf (outcome feeless) = none := by decide +kernel

end SmallNetwork

section Concrete

open SmallNetwork

theorem moneyAgrees_feeless :
    MoneyAgrees sites (run (Network.step sites) deployed feeless)
      (resultOf (outcome feeless) feeless_completes).1 0 :=
  (moneyAgrees_iff deployV2_eq feeless rfl (eq_resultOf feeless_completes) rfl rfl rfl).mpr
    (by decide +kernel)

/-- At the fee of the deployment, an ordinary deal: with all fifteen providers rewarded, more is booked than
was sent. -/
theorem created_not_moneyAgrees :
    (run (Network.step sites) deployed (created SmallMarket.params)).market.protocolFeeBasisPoints = 300 ∧
      (resultOf (outcome (created SmallMarket.params)) created_completes).1.token.balanceOf sites.distributor -
          (run (Network.step sites) deployed (created SmallMarket.params)).token.balanceOf sites.distributor =
        9991 * 10 ^ 14 ∧
      9991 * 10 ^ 14 < usageBooked 15
        ((resultOf (outcome (created SmallMarket.params)) created_completes).1.market.deals 0).totalCost ∧
      ¬ MoneyAgrees sites (run (Network.step sites) deployed (created SmallMarket.params))
        (resultOf (outcome (created SmallMarket.params)) created_completes).1 0 := by
  refine ⟨by decide +kernel, by decide +kernel, by decide +kernel, ?_⟩
  rintro ⟨hle, -⟩
  have hle := hle 15 (Nat.le_refl _)
  revert hle
  decide +kernel

end Concrete

end Kyneto
