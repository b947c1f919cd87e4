import Kyneto.StorageMarketplace.Escrow
import Kyneto.StorageToken.Supply

/-!
# Are refunds and releases safe?

A cancellation multiplies the escrow by the seconds that are left, a completion takes a fee off it. Nothing bounds the
duration of a deal but what it costs: every started month is paid for, and no payment is more than all tokens there can
be. A deal without a price can last as long as it likes, but then there is no escrow to multiply.

`deals_effect` says once what a call can do to the deals. `Priced` is what a deal keeps along a run, and `Bounded`
what it keeps with the number of calls; `refunds_run` has the consequences.
-/

namespace Kyneto

open Evm

/-! ## The refund of a deal -/

namespace System

/-- The refund of `cancelDeal` is a share of the escrow that falls with time, from all of it to nothing. -/
structure FairRefund (deal : Deal) : Prop where
  started : checkedSub deal.endTime deal.startTime = .ok (deal.endTime - deal.startTime)
  refund : ∀ timestamp, ∃ refund ≤ deal.escrowedAmount,
    refundOf deal timestamp (deal.endTime - deal.startTime) = .ok refund
  whole : deal.startTime < deal.endTime →
    refundOf deal deal.startTime (deal.endTime - deal.startTime) = .ok deal.escrowedAmount
  nothing : ∀ timestamp, deal.endTime ≤ timestamp →
    refundOf deal timestamp (deal.endTime - deal.startTime) = .ok 0
  antitone : ∀ timestamp later refund after, timestamp ≤ later →
    refundOf deal timestamp (deal.endTime - deal.startTime) = .ok refund →
      refundOf deal later (deal.endTime - deal.startTime) = .ok after → after ≤ refund

/-- The fee of `completeDeal` can be computed and taken off the escrow. -/
structure SafeRelease (deal : Deal) (feeBasisPoints : Nat) : Prop where
  scaled : checkedMul deal.totalCost feeBasisPoints = .ok (deal.totalCost * feeBasisPoints)
  payment : checkedSub deal.escrowedAmount (deal.totalCost * feeBasisPoints / 10000) =
    .ok (deal.escrowedAmount - deal.totalCost * feeBasisPoints / 10000)

end System

section Refund

variable {deal : Deal} {timestamp later : Nat}

/-- The refund can be computed if the whole escrow fits, for the whole time. -/
theorem refundOf_eq (hfits : deal.escrowedAmount * (deal.endTime - deal.startTime) < uint256Size) :
    System.refundOf deal timestamp (deal.endTime - deal.startTime) = .ok (refundAmount deal timestamp) := by
  have helapsed : (if deal.startTime < timestamp then timestamp - deal.startTime else 0) =
      timestamp - deal.startTime := by
    split <;> omega
  simp only [System.refundOf, helapsed]
  unfold refundAmount
  split
  · next hc =>
    have hscaled : deal.escrowedAmount * (deal.endTime - deal.startTime - (timestamp - deal.startTime)) <
        uint256Size :=
      Nat.lt_of_le_of_lt (Nat.mul_le_mul_left _ (Nat.sub_le _ _)) hfits
    rw [if_pos hc.1]
    simp only [bind_eq_ok, checkedSub_eq_ok, checkedMul_eq_ok, checkedDiv_eq_ok]
    exact ⟨_, ⟨by omega, rfl⟩, _, ⟨hscaled, rfl⟩, by omega, rfl⟩
  · next hc =>
    split
    · next hlt =>
      have hzero : deal.escrowedAmount = 0 := by
        by_contra hne
        exact hc ⟨hlt, Nat.pos_of_ne_zero hne⟩
      simp [hzero]
    · rfl

theorem refundAmount_of_end_le (h : deal.endTime ≤ timestamp) : refundAmount deal timestamp = 0 := by
  unfold refundAmount
  rw [if_neg]
  omega

/-- The later, the less. -/
theorem refundAmount_antitone (h : timestamp ≤ later) : refundAmount deal later ≤ refundAmount deal timestamp := by
  unfold refundAmount
  split
  · next hlater =>
    rw [if_pos (by omega)]
    apply Nat.div_le_div_right
    apply Nat.mul_le_mul_left
    omega
  · exact Nat.zero_le _

theorem fairRefund_of_lt (hstarted : deal.startTime ≤ deal.endTime)
    (hfits : deal.escrowedAmount * (deal.endTime - deal.startTime) < uint256Size) : System.FairRefund deal where
  started := checkedSub_eq_ok.mpr ⟨hstarted, rfl⟩
  refund timestamp := ⟨_, refundAmount_le deal timestamp, refundOf_eq hfits⟩
  whole hlt := by
    rw [refundOf_eq hfits, (refundAmount_eq_iff deal deal.startTime).mpr (.inr ⟨Nat.le_refl _, hlt⟩)]
  nothing timestamp hend := by rw [refundOf_eq hfits, refundAmount_of_end_le hend]
  antitone timestamp later refund after hle hrefund hafter := by
    rw [refundOf_ok hrefund, refundOf_ok hafter]
    exact refundAmount_antitone hle

end Refund

/-! ## What a deal costs and how long it lasts -/

/-- What is true of a deal at all times. -/
structure Deal.Priced (deal : Deal) : Prop where
  times : deal.endTime = deal.startTime + deal.duration * DAY
  covered : deal.status.isOpen = true → deal.totalCost ≤ deal.escrowedAmount
  free : deal.fileSizeGB * deal.pricePerGBMonth = 0 → deal.escrowedAmount = 0
  paid : deal.status.isOpen = true → 0 < deal.fileSizeGB * deal.pricePerGBMonth → 0 < deal.duration →
    0 < deal.escrowedAmount

/-- What is true of a deal after at most `n` calls. -/
structure Deal.Bounded (deal : Deal) (n : Nat) : Prop where
  escrow : deal.escrowedAmount ≤ n * MAX_SUPPLY
  cost : deal.totalCost ≤ MAX_SUPPLY
  bought : 0 < deal.fileSizeGB * deal.pricePerGBMonth → deal.duration ≤ 30 * (n * MAX_SUPPLY)

section Charges

variable {fileSizeGB price days bps : Nat}

theorem charge_of_free (h : fileSizeGB * price = 0) : (Charge.of fileSizeGB price days bps).total = 0 := by
  simp [Charge.of, Charge.total, providerPayment, protocolFee, h]

/-- Every month that is started is paid for. -/
theorem days_le_of_charge (days bps : Nat) (h : 0 < fileSizeGB * price) :
    days ≤ 30 * (Charge.of fileSizeGB price days bps).total := by
  have hmonths : (days + 29) / 30 ≤ providerPayment fileSizeGB price days := by
    unfold providerPayment
    exact Nat.le_mul_of_pos_left _ h
  have htotal : providerPayment fileSizeGB price days ≤ (Charge.of fileSizeGB price days bps).total :=
    Nat.le_add_right _ _
  omega

/-- A day of something has a price. -/
theorem charge_pos (h : 0 < fileSizeGB * price) (hdays : 0 < days) :
    0 < (Charge.of fileSizeGB price days bps).total := by
  have hle := days_le_of_charge days bps h
  omega

end Charges

/-! ## One call -/

section Step

variable {this : Address} {s s' : System} {logs : List Log} {msg : Msg}

/-- The marketplace only transfers, and its fee is never more than ten percent. -/
theorem marketStep_frame {c : MarketCall} (h : s.marketStep this msg c = .ok (s', logs)) :
    StorageToken.Moved s.token s'.token 0 0 ∧
      (s.market.protocolFeeBasisPoints ≤ MAX_FEE_BASIS_POINTS →
        s'.market.protocolFeeBasisPoints ≤ MAX_FEE_BASIS_POINTS) := by
  cases c with
  -- a creation pulls the price from the client, and the fee stays what it is
  | createDeal params =>
    simp only [System.marketStep, System.createDeal, bind_eq_ok, pure_eq_ok, Prod.exists, Prod.mk.injEq] at h
    obtain ⟨-, -, -, -, -, -, -, -, _, -, _, -, -, -, _, -, token, paid, htransfer, _, -, _, -, _, -, _, -, rfl, -⟩ := h
    exact ⟨StorageToken.transferFrom_moved htransfer, id⟩
  | completeDeal dealId =>
    simp only [System.marketStep, System.completeDeal, bind_eq_ok, Prod.exists] at h
    -- a completion pays the distributor, if there is one
    obtain ⟨-, -, -, -, -, -, registry, deal, l, -, _, -, _, -, h⟩ := h
    split at h
    · simp only [bind_eq_ok, pure_eq_ok, Prod.exists, Prod.mk.injEq] at h
      obtain ⟨token, paid, htransfer, rfl, -⟩ := h
      exact ⟨StorageToken.transfer_moved htransfer, id⟩
    · simp only [pure_eq_ok, Prod.mk.injEq] at h
      obtain ⟨rfl, -⟩ := h
      exact ⟨StorageToken.Moved.refl _, id⟩
  | cancelDeal dealId =>
    simp only [System.marketStep, System.cancelDeal, bind_eq_ok] at h
    obtain ⟨-, -, -, -, deal, -, _, -, refund, -, h⟩ := h
    split at h
    · simp only [bind_eq_ok, pure_eq_ok, Prod.exists, Prod.mk.injEq] at h
      obtain ⟨_, -, token, paid, htransfer, rfl, -⟩ := h
      exact ⟨StorageToken.transfer_moved htransfer, id⟩
    · simp only [pure_eq_ok, Prod.mk.injEq] at h
      obtain ⟨rfl, -⟩ := h
      exact ⟨StorageToken.Moved.refl _, id⟩
  | renewDeal dealId additionalDays =>
    simp only [System.marketStep, System.renewDeal, bind_eq_ok, pure_eq_ok, Prod.exists, Prod.mk.injEq] at h
    obtain ⟨-, -, -, -, _, -, token, paid, htransfer, _, -, _, -, _, -, _, -, _, -, rfl, -⟩ := h
    exact ⟨StorageToken.transferFrom_moved htransfer, id⟩
  | reportLostShard dealId provider =>
    simp only [System.marketStep, System.reportLostShard, bind_eq_ok] at h
    obtain ⟨-, -, -, -, -, -, deal, -, h⟩ := h
    -- the last shard but too few: the deal fails, and the escrow goes back
    split at h
    · simp only [System.failDeal, bind_eq_ok, pure_eq_ok, Prod.exists, Prod.mk.injEq] at h
      obtain ⟨s₁, l, h, rfl, -⟩ := h
      split at h
      · simp only [bind_eq_ok, pure_eq_ok, Prod.exists, Prod.mk.injEq] at h
        obtain ⟨token, paid, htransfer, registry, l, -, rfl, -⟩ := h
        exact ⟨StorageToken.transfer_moved htransfer, id⟩
      · simp only [bind_eq_ok, pure_eq_ok, Prod.exists, Prod.mk.injEq] at h
        obtain ⟨registry, l, -, rfl, -⟩ := h
        exact ⟨StorageToken.Moved.refl _, id⟩
    · simp only [pure_eq_ok, Prod.mk.injEq] at h
      obtain ⟨rfl, -⟩ := h
      exact ⟨StorageToken.Moved.refl _, id⟩
  | repairShard dealId oldProvider newProvider newShardCID =>
    simp only [System.marketStep, System.repairShard, bind_eq_ok, pure_eq_ok, Prod.mk.injEq] at h
    obtain ⟨-, -, -, -, -, -, -, -, _, -, rfl, -⟩ := h
    exact ⟨StorageToken.Moved.refl _, id⟩
  | initiateRetrieval dealId provider amount =>
    simp only [System.marketStep, System.initiateRetrieval, bind_eq_ok, pure_eq_ok, Prod.exists, Prod.mk.injEq] at h
    obtain ⟨-, -, -, -, token, paid, htransfer, _, -, rfl, -⟩ := h
    exact ⟨StorageToken.transferFrom_moved htransfer, id⟩
  | claimRetrievalPayment retrievalId =>
    simp only [System.marketStep, System.claimRetrievalPayment, bind_eq_ok, pure_eq_ok, Prod.exists,
      Prod.mk.injEq] at h
    obtain ⟨-, -, -, -, token, paid, htransfer, rfl, -⟩ := h
    exact ⟨StorageToken.transfer_moved htransfer, id⟩
  | setProtocolFee feeBasisPoints =>
    simp only [System.marketStep, System.setProtocolFee, bind_eq_ok, require_eq_ok, pure_eq_ok, Prod.mk.injEq] at h
    -- the only call that sets the fee checks its bound
    obtain ⟨-, -, -, hle, rfl, -⟩ := h
    exact ⟨StorageToken.Moved.refl _, fun _ => hle⟩
  | withdrawFees =>
    simp only [System.marketStep, System.withdrawFees, bind_eq_ok, pure_eq_ok, Prod.exists, Prod.mk.injEq] at h
    obtain ⟨-, -, -, -, token, paid, htransfer, rfl, -⟩ := h
    exact ⟨StorageToken.transfer_moved htransfer, id⟩
  | setTreasury treasury | updateKynPrice priceUSD =>
    simp only [System.marketStep, System.setTreasury, System.updateKynPrice, bind_eq_ok, pure_eq_ok,
      Prod.mk.injEq] at h
    obtain ⟨-, -, -, -, rfl, -⟩ := h
    exact ⟨StorageToken.Moved.refl _, id⟩
  | setPaymentDistributor distributor =>
    simp only [System.marketStep, System.setPaymentDistributor, bind_eq_ok, pure_eq_ok, Prod.mk.injEq] at h
    obtain ⟨-, -, -, -, -, -, rfl, -⟩ := h
    exact ⟨StorageToken.Moved.refl _, id⟩
  | transferOwnership newOwner | renounceOwnership =>
    simp only [System.marketStep, bind_eq_ok, pure_eq_ok, Prod.mk.injEq] at h
    obtain ⟨owner, -, rfl, -⟩ := h
    exact ⟨StorageToken.Moved.refl _, id⟩

/-- The deal that a renewal leaves. -/
def Deal.renewed (deal : Deal) (days cost : Nat) : Deal :=
  { deal with
    endTime := deal.endTime + days * DAY
    duration := deal.duration + days
    escrowedAmount := deal.escrowedAmount + cost
    status := .Active }

/-- **What becomes of deals.** A call creates a deal or renews one, for a price that the marketplace receives; it closes
one, and the escrow is no more than before; or it does no more than move shards. -/
theorem deals_effect (P P' : Deal → Prop) {call : Call} (h : ∀ id, P (s.market.deals id))
    (moved : ∀ deal allocs providers k, P deal →
      P' { deal with shardAllocations := allocs, providers, activeShards := k })
    (closed : ∀ deal allocs k escrow status, P deal → status.isOpen = false → escrow ≤ deal.escrowedAmount →
      P' { deal with shardAllocations := allocs, activeShards := k, escrowedAmount := escrow, status })
    (created : ∀ params price, s'.token.balanceOf this = s.token.balanceOf this +
      (Charge.of params.fileSizeGB price params.durationDays s.market.protocolFeeBasisPoints).total →
        P' (createdDeal s.market msg params price
          (Charge.of params.fileSizeGB price params.durationDays s.market.protocolFeeBasisPoints).total
          (msg.timestamp + params.durationDays * DAY)))
    (renewed : ∀ deal days, P deal → deal.status.isOpen = true → s'.token.balanceOf this = s.token.balanceOf this +
      (Charge.of deal.fileSizeGB deal.pricePerGBMonth days s.market.protocolFeeBasisPoints).total →
        P' (deal.renewed days
          (Charge.of deal.fileSizeGB deal.pricePerGBMonth days s.market.protocolFeeBasisPoints).total))
    (e : Effect this s msg call s' logs) : ∀ id, P' (s'.market.deals id) := by
  -- a deal that the call does not write is moved by nothing
  have kept : ∀ deal, P deal → P' deal := fun deal hdeal => moved deal _ _ _ hdeal
  have wrote : ∀ {dealId count fees : Nat} {deal : Deal} {pd : Address → List Nat},
      Wrote s.market s'.market dealId deal count fees pd → P' deal → ∀ id, P' (s'.market.deals id) := by
    intro dealId count fees deal pd w hdeal id
    by_cases hid : id = dealId
    · rw [hid, w.deal_self]
      exact hdeal
    · rw [w.deal_of_ne hid]
      exact kept _ (h id)
  -- what each effect writes, read off its `Wrote`
  cases e with
  | idle _ books => exact fun id => by rw [books.deals]; exact kept _ (h id)
  | retrieving _ _ market | claimed _ _ market | withdrawn _ market =>
    intro id
    rw [market]
    exact kept _ (h id)
  | @created params price cost endTime _ _ _ _ _ _ _ cost_eq endTime_eq w balance =>
    subst cost_eq endTime_eq
    exact wrote w (created params price balance)
  | @renewed dealId days cost deal _ _ deal_eq isOpen _ cost_eq w balance =>
    subst cost_eq deal_eq
    exact wrote w (renewed _ days (h dealId) isOpen balance)
  | @completed dealId deal _ _ deal_eq _ _ _ _ w =>
    subst deal_eq
    exact wrote w (closed (s.market.deals dealId) _ _ _ _ (h dealId) rfl (Nat.zero_le _))
  | @cancelled dealId deal _ _ deal_eq _ _ _ w =>
    subst deal_eq
    exact wrote w (closed (s.market.deals dealId) _ _ _ _ (h dealId) rfl (Nat.sub_le _ _))
  | @failed dealId _ deal _ _ deal_eq _ _ _ _ _ w =>
    subst deal_eq
    exact wrote w (closed (s.market.deals dealId) _ _ _ _ (h dealId) rfl (Nat.zero_le _))
  | @lost dealId _ deal _ _ deal_eq _ _ _ _ w =>
    subst deal_eq
    exact wrote w (moved (s.market.deals dealId) _ _ _ (h dealId))
  | @repaired dealId _ _ _ deal _ _ deal_eq _ _ _ _ w =>
    subst deal_eq
    exact wrote w (moved (s.market.deals dealId) _ _ _ (h dealId))

/-- The cost of a deal stays the product of its terms. -/
theorem priced_effect {call : Call} (h : ∀ id, (s.market.deals id).Priced) (e : Effect this s msg call s' logs) :
    ∀ id, (s'.market.deals id).Priced := by
  refine deals_effect Deal.Priced Deal.Priced h ?_ ?_ ?_ ?_ e
  · rintro deal allocs providers k ⟨htimes, hcovered, hfree, hpaid⟩
    exact ⟨htimes, hcovered, hfree, hpaid⟩
  -- a closed deal has no price to cover any more
  · intro deal allocs k escrow status hdeal hclosed hle
    constructor
    · exact hdeal.times
    · intro hopen
      exact absurd (hopen.symm.trans hclosed) (by decide)
    · exact fun hfree => Nat.le_zero.mp (hle.trans (hdeal.free hfree).le)
    · intro hopen
      exact absurd (hopen.symm.trans hclosed) (by decide)
  · intro params price _
    rw [createdDeal, Deal.assignShards_eq]
    constructor
    · rfl
    · exact fun _ => Nat.le_refl _
    · exact charge_of_free
    · exact fun _ => charge_pos
  -- a renewal adds the days to the duration and their price to the escrow
  · intro deal days hdeal hopen _
    constructor
    · show deal.endTime + days * DAY = deal.startTime + (deal.duration + days) * DAY
      rw [hdeal.times, Nat.add_mul, Nat.add_assoc]
    · exact fun _ => (hdeal.covered hopen).trans (Nat.le_add_right _ _)
    · intro hfree
      have hnothing : (Charge.of deal.fileSizeGB deal.pricePerGBMonth days s.market.protocolFeeBasisPoints).total = 0 :=
        charge_of_free hfree
      show deal.escrowedAmount + _ = 0
      rw [hdeal.free hfree, hnothing]
    · -- there was a duration before, or there are days now
      intro _ hprice hduration
      rcases Nat.eq_zero_or_pos deal.duration with hzero | hpos
      · have hdays : 0 < days := by
          have hsum : 0 < deal.duration + days := hduration
          omega
        exact Nat.lt_of_lt_of_le (charge_pos hprice hdays) (Nat.le_add_left _ _)
      · exact Nat.lt_of_lt_of_le (hdeal.paid hopen hprice hpos) (Nat.le_add_right _ _)

/-- What a creation or renewal costs has been paid to the marketplace. -/
theorem bounded_effect {call : Call} {n : Nat} (h : ∀ id, (s.market.deals id).Bounded n)
    (hbalance : s'.token.balanceOf this ≤ MAX_SUPPLY) (e : Effect this s msg call s' logs) :
    ∀ id, (s'.market.deals id).Bounded (n + 1) := by
  have hmore : (n + 1) * MAX_SUPPLY = n * MAX_SUPPLY + MAX_SUPPLY := by rw [Nat.add_mul, Nat.one_mul]
  have hlonger : 30 * (n * MAX_SUPPLY) ≤ 30 * ((n + 1) * MAX_SUPPLY) := by omega
  refine deals_effect (fun deal => deal.Bounded n) (fun deal => deal.Bounded (n + 1)) h ?_ ?_ ?_ ?_ e
  · intro deal allocs providers k hdeal
    exact ⟨hdeal.escrow.trans (by omega), hdeal.cost, fun hprice => (hdeal.bought hprice).trans hlonger⟩
  -- closing a deal leaves no more in escrow than before
  · intro deal allocs k escrow status hdeal _ hle
    exact ⟨hle.trans (hdeal.escrow.trans (by omega)), hdeal.cost, fun hprice => (hdeal.bought hprice).trans hlonger⟩
  -- the price arrives in the balance of the marketplace, which is below the supply
  · intro params price balance
    rw [createdDeal, Deal.assignShards_eq]
    have htotal : (Charge.of params.fileSizeGB price params.durationDays s.market.protocolFeeBasisPoints).total ≤
        MAX_SUPPLY := by omega
    constructor
    · exact htotal.trans (by omega)
    · exact htotal
    · intro hprice
      have hdays : params.durationDays ≤ 30 * (Charge.of params.fileSizeGB price params.durationDays
          s.market.protocolFeeBasisPoints).total := days_le_of_charge _ _ hprice
      exact hdays.trans (by omega)
  · intro deal days hdeal _ balance
    have htotal : (Charge.of deal.fileSizeGB deal.pricePerGBMonth days s.market.protocolFeeBasisPoints).total ≤
        MAX_SUPPLY := by omega
    constructor
    · have hescrow := hdeal.escrow
      show deal.escrowedAmount + _ ≤ (n + 1) * MAX_SUPPLY
      omega
    · exact hdeal.cost
    · intro hprice
      have hbought := hdeal.bought hprice
      have hdays : days ≤ 30 * (Charge.of deal.fileSizeGB deal.pricePerGBMonth days
          s.market.protocolFeeBasisPoints).total := days_le_of_charge _ _ hprice
      show deal.duration + days ≤ 30 * ((n + 1) * MAX_SUPPLY)
      omega

end Step

/-! ## Runs -/

/-- What a run keeps: nobody is approved, there are only as many tokens as there can be, the fee is at most ten
percent, and deals cost and last no more than what was paid for. -/
structure Affordable (this : Address) (s : System) (n : Nat) : Prop where
  noApproval : s.NoApproval this
  capped : s.token.totalSupply ≤ MAX_SUPPLY
  held : s.token.totalSupply = s.token.held
  fee : s.market.protocolFeeBasisPoints ≤ MAX_FEE_BASIS_POINTS
  priced : ∀ id, (s.market.deals id).Priced
  bounded : ∀ id, (s.market.deals id).Bounded n

/-- The token has been deployed and used, by whomever. -/
def TokenInUse (t : StorageToken) : Prop :=
  ∃ msg as, t = run StorageToken.act (StorageToken.deploy msg) as

section Runs

variable {this : Address} {s s' s₀ : System} {logs : List Log}

theorem deals_deployed (h : s₀.Deployed this) (id : Nat) : s₀.market.deals id = {} := by
  obtain ⟨msg, treasury, hfresh⟩ := h.fresh
  rw [hfresh]
  rfl

theorem priced_blank : Deal.Priced {} where
  times := by simp
  covered _ := Nat.le_refl _
  free _ := rfl
  paid _ hprice := absurd hprice (Nat.lt_irrefl 0)

/-- What runs keep is so at the deployment. -/
theorem affordable_deployed (h : s₀.Deployed this) (htoken : TokenInUse s₀.token) : Affordable this s₀ 0 := by
  obtain ⟨msg, treasury, hfresh⟩ := h.fresh
  obtain ⟨tokenMsg, as, htoken⟩ := htoken
  have hsupply := (StorageToken.supply_history tokenMsg as).1
  rw [← htoken] at hsupply
  refine ⟨h.noApproval, hsupply.capped, hsupply.held, ?_, ?_, ?_⟩
  · rw [hfresh]
    show 300 ≤ 1000
    decide
  · intro id
    rw [deals_deployed h]
    exact priced_blank
  · intro id
    rw [deals_deployed h]
    exact ⟨Nat.zero_le _, Nat.zero_le _, fun _ => Nat.zero_le _⟩

/-- One more call, and the deals are still within what there can be tokens for. -/
theorem affordable_step {a : Action this} {n : Nat} (h : Affordable this s n)
    (hstep : s.step this a = .ok (s', logs)) : Affordable this s' (n + 1) := by
  obtain ⟨heffect, hnoApproval⟩ := step_effect h.noApproval hstep
  obtain ⟨hcapped, hheld, hfee⟩ : s'.token.totalSupply ≤ MAX_SUPPLY ∧ s'.token.totalSupply = s'.token.held ∧
      s'.market.protocolFeeBasisPoints ≤ MAX_FEE_BASIS_POINTS := by
    unfold System.step at hstep
    split at hstep
    · obtain ⟨hmoved, hfee⟩ := marketStep_frame hstep
      have hsupply := hmoved.totalSupply
      have hheld := hmoved.held
      have hcapped := h.capped
      have hbefore := h.held
      exact ⟨by omega, by omega, hfee h.fee⟩
    · simp only [bind_eq_ok, pure_eq_ok, Prod.exists, Prod.mk.injEq] at hstep
      obtain ⟨token, l, htoken, rfl, -⟩ := hstep
      have hmoved := StorageToken.step_moved h.held htoken
      have hsupply := hmoved.totalSupply
      have hheld := hmoved.held
      have hbefore := h.held
      refine ⟨StorageToken.step_capped h.capped h.held htoken, ?_, h.fee⟩
      show token.totalSupply = token.held
      omega
    · simp only [bind_eq_ok, pure_eq_ok, Prod.exists, Prod.mk.injEq] at hstep
      obtain ⟨registry, l, -, rfl, -⟩ := hstep
      exact ⟨h.capped, h.held, h.fee⟩
  have hbalance := StorageToken.le_held s'.token.toErc20 this
  exact ⟨hnoApproval, hcapped, hheld, hfee, priced_effect h.priced heffect,
    bounded_effect h.bounded (by omega) heffect⟩

theorem affordable_run (h : s₀.Deployed this) (htoken : TokenInUse s₀.token) (as : List (Action this)) :
    ∃ n ≤ as.length, Affordable this (run (System.step this) s₀ as) n := by
  have hrun : Affordable this (run (System.step this) s₀ as) (history (System.step this) s₀ as).length := by
    refine run_induction (P := fun s hist => Affordable this s hist.length) (C := fun _ _ => True)
      (affordable_deployed h htoken) ?_ as (meets_true _ as)
    intro s hist a s' logs hs _ hstep
    rw [List.length_append, List.length_singleton]
    exact affordable_step hs hstep
  exact ⟨_, length_history_le s₀ as, hrun⟩

/-- The escrow of a deal, for as many seconds as the deal lasts. -/
theorem Deal.Bounded.fits {deal : Deal} {n : Nat} (h : deal.Bounded n) (hpriced : deal.Priced) (hn : n < 2 ^ 24) :
    deal.escrowedAmount * (deal.endTime - deal.startTime) < uint256Size := by
  by_cases hpaid : 0 < deal.fileSizeGB * deal.pricePerGBMonth
  · have htime : deal.endTime - deal.startTime = deal.duration * DAY := by
      rw [hpriced.times, Nat.add_sub_cancel_left]
    have hmost : n * MAX_SUPPLY ≤ 2 ^ 24 * MAX_SUPPLY := Nat.mul_le_mul_right _ hn.le
    have hlasts : deal.endTime - deal.startTime ≤ 30 * (2 ^ 24 * MAX_SUPPLY) * DAY := by
      rw [htime]
      exact Nat.mul_le_mul_right _ ((h.bought hpaid).trans (Nat.mul_le_mul_left _ hmost))
    have hproduct := Nat.mul_le_mul (h.escrow.trans hmost) hlasts
    have hsmall : 2 ^ 24 * MAX_SUPPLY * (30 * (2 ^ 24 * MAX_SUPPLY) * DAY) < uint256Size := by decide
    exact Nat.lt_of_le_of_lt hproduct hsmall
  · rw [hpriced.free (Nat.eq_zero_of_not_pos hpaid), Nat.zero_mul]
    decide

/-- Within the bounds, a release does not overflow. -/
theorem Deal.Bounded.safeRelease {deal : Deal} {n bps : Nat} (h : deal.Bounded n) (hpriced : deal.Priced)
    (hopen : deal.status.isOpen = true) (hbps : bps ≤ MAX_FEE_BASIS_POINTS) : System.SafeRelease deal bps := by
  have hproduct : deal.totalCost * bps ≤ deal.totalCost * MAX_FEE_BASIS_POINTS := Nat.mul_le_mul_left _ hbps
  have hcost := h.cost
  have hcovered := hpriced.covered hopen
  unfold MAX_FEE_BASIS_POINTS at hproduct
  have hsmall : MAX_SUPPLY * 1000 < uint256Size := by decide
  constructor
  · exact checkedMul_eq_ok.mpr ⟨by omega, rfl⟩
  · exact checkedSub_eq_ok.mpr ⟨by omega, rfl⟩

/-- **Refunds are safe and fair, and releases are safe**, in every state that fewer than 2^24 calls reach. They are what
`cancelDeal` and `completeDeal` pay. -/
theorem refunds_run (h : s₀.Deployed this) (htoken : TokenInUse s₀.token) (as : List (Action this))
    (hlength : as.length < 2 ^ 24) :
    (∀ id < (run (System.step this) s₀ as).market.dealCount,
      ((run (System.step this) s₀ as).market.deals id).endTime =
        ((run (System.step this) s₀ as).market.deals id).startTime +
          ((run (System.step this) s₀ as).market.deals id).duration * DAY) ∧
      (∀ id, System.FairRefund ((run (System.step this) s₀ as).market.deals id)) ∧
      (∀ id, ((run (System.step this) s₀ as).market.deals id).status = .Active →
        System.SafeRelease ((run (System.step this) s₀ as).market.deals id)
          (run (System.step this) s₀ as).market.protocolFeeBasisPoints) ∧
      (∀ (a : Action this) id r, a.call = .market (.cancelDeal id) →
        System.step this (run (System.step this) s₀ as) a = .ok r →
          System.refundOf ((run (System.step this) s₀ as).market.deals id) a.msg.timestamp
            (((run (System.step this) s₀ as).market.deals id).endTime -
              ((run (System.step this) s₀ as).market.deals id).startTime) = .ok (sentBy this r.2)) ∧
      ∀ (a : Action this) id r, a.call = .market (.completeDeal id) →
        System.step this (run (System.step this) s₀ as) a = .ok r →
          ((run (System.step this) s₀ as).market.deals id).status = .Active ∧
            sentBy this r.2 = if (run (System.step this) s₀ as).market.paymentDistributor ≠ 0 then
              ((run (System.step this) s₀ as).market.deals id).escrowedAmount -
                ((run (System.step this) s₀ as).market.deals id).totalCost *
                  (run (System.step this) s₀ as).market.protocolFeeBasisPoints / 10000 else 0 := by
  obtain ⟨n, hn, hrun⟩ := affordable_run h htoken as
  -- only what runs keep is used of the state
  generalize run (System.step this) s₀ as = s at hrun ⊢
  have hfits : ∀ id, (s.market.deals id).escrowedAmount *
      ((s.market.deals id).endTime - (s.market.deals id).startTime) < uint256Size :=
    fun id => (hrun.bounded id).fits (hrun.priced id) (Nat.lt_of_le_of_lt hn hlength)
  -- times, refunds and releases follow from the bounds
  refine ⟨fun id _ => (hrun.priced id).times, fun id => ?_, fun id hactive => ?_, ?_, ?_⟩
  · apply fairRefund_of_lt _ (hfits id)
    rw [(hrun.priced id).times]
    exact Nat.le_add_right _ _
  · apply (hrun.bounded id).safeRelease (hrun.priced id) _ hrun.fee
    rw [hactive]
    rfl
  -- `cancelDeal` sends what `refundOf` computes, and `completeDeal` the rest of the escrow
  · rintro ⟨msg, call, hzero, hne, hstd⟩ id ⟨s', logs⟩ hcall hstep
    obtain rfl : call = .market (.cancelDeal id) := hcall
    obtain ⟨heffect, -⟩ := step_effect hrun.noApproval hstep
    cases heffect with
    | idle noDeal => cases noDeal
    | cancelled deal_eq _ _ _ _ _ sent =>
      subst deal_eq
      rw [sent]
      exact refundOf_eq (hfits id)
  · rintro ⟨msg, call, hzero, hne, hstd⟩ id ⟨s', logs⟩ hcall hstep
    obtain rfl : call = .market (.completeDeal id) := hcall
    obtain ⟨heffect, -⟩ := step_effect hrun.noApproval hstep
    cases heffect with
    | idle noDeal => cases noDeal
    | completed deal_eq active _ _ _ _ _ sent =>
      subst deal_eq
      exact ⟨active, sent⟩

end Runs

/-- The client cancels halfway. -/
def SmallMarket.halfway : Action SmallMarket.this := client.calls (15 * DAY) (.cancelDeal 0)

/-- Half of the price comes back, and half of the fee. -/
theorem refunds_halfway :
    let s := run (System.step SmallMarket.this) SmallMarket.deployed (SmallMarket.oneDeal 300)
    System.FairRefund (s.market.deals 0) ∧ System.SafeRelease (s.market.deals 0) s.market.protocolFeeBasisPoints ∧
      (s.market.deals 0).endTime = (s.market.deals 0).startTime + (s.market.deals 0).duration * DAY ∧
      System.refundOf (s.market.deals 0) (15 * DAY) ((s.market.deals 0).endTime - (s.market.deals 0).startTime) =
        .ok 515000000000000000 := by
  obtain ⟨htimes, hfair, hsafe, hcancel, -⟩ := refunds_run SmallMarket.deployed_deployed ⟨_, [], rfl⟩
    (SmallMarket.oneDeal 300) (by decide)
  have hrun : ((System.step SmallMarket.this
      (run (System.step SmallMarket.this) SmallMarket.deployed (SmallMarket.oneDeal 300))
      SmallMarket.halfway).toOption.map fun r => sentBy SmallMarket.this r.2) = some 515000000000000000 := by
    decide +kernel
  obtain ⟨r, hr, hsent⟩ := exists_ok_of_map hrun
  refine ⟨hfair 0, hsafe 0 (by decide +kernel), htimes 0 (by decide +kernel), ?_⟩
  have hrefund := hcancel SmallMarket.halfway 0 r rfl hr
  rwa [hsent] at hrefund

end Kyneto
