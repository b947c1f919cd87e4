import Kyneto.PaymentDistributor.Usage

/-!
# Is the distributor solvent?

The distributor owes its providers what they have earned and not withdrawn, and its owner the fees and the
reserve. Capacity rewards and bonuses are minted when they are credited. Usage rewards are not: the call that
books them asks only whether the balance covers one deal's pool, not whether it covers this on top of what is
owed already, and it may be made again for the same deal. The only other way to lose cover is a privileged
burn of the distributor's tokens. `solvent_along_iff_funded` says that these are the only ones.
-/

namespace Kyneto

open Evm

/-! ## What is owed -/

def ProviderEarnings.owed (e : ProviderEarnings) : Nat := e.totalEarned - e.totalWithdrawn

/-- All that the distributor owes. -/
def PaymentDistributor.liabilities (d : PaymentDistributor) : Nat :=
  ∑ provider, (d.earnings provider).owed + d.protocolFeeCollected + d.repairReserve

/-- What `distributeUsageRewards` books for a deal with `credited` shards in service. -/
def usageBooked (credited totalCost : Nat) : Nat :=
  credited * (providerPool totalCost / 15) + totalCost * PROTOCOL_FEE_RATE / 10000 +
    totalCost * RESERVE_RATE / 10000

/-- How many times the loop over the listed providers credits one. -/
def Deal.creditedCount (deal : Deal) : Nat :=
  deal.providers.countP fun provider => (deal.shardAllocations provider).active

/-- The balance covers what is owed, and everybody who is owed something can withdraw it. -/
structure DistributorSolvent (sites : Sites) (n : Network) : Prop where
  covered : n.distributor.liabilities ≤ n.token.balanceOf sites.distributor
  earnings : ∀ msg : Msg, msg.sender ≠ 0 → 0 < (n.distributor.earnings msg.sender).owed →
    ∃ r, n.withdrawEarnings sites msg = .ok r
  fees : ∀ (msg : Msg) (recipient : Address), msg.sender = n.distributor.owner → recipient ≠ 0 →
    0 < n.distributor.protocolFeeCollected → ∃ r, n.withdrawProtocolFees sites msg recipient = .ok r

/-- Usage rewards and privileged burns leave enough for what is owed. -/
def Funded (sites : Sites) (n : Network) (a : NetworkAction sites) : Prop :=
  match a.call with
  | .distributor (.distributeUsageRewards dealId) =>
    n.distributor.liabilities +
        usageBooked (n.market.deals dealId).creditedCount (n.market.deals dealId).totalCost ≤
      n.token.balanceOf sites.distributor
  | .base (.token (.burnFrom src amount)) => src = sites.distributor →
    n.distributor.liabilities + amount ≤ n.token.balanceOf sites.distributor
  | _ => True

/-- Nothing is withdrawn before it is earned. -/
def PaymentDistributor.EarningsSound (d : PaymentDistributor) : Prop :=
  ∀ provider, (d.earnings provider).totalWithdrawn ≤ (d.earnings provider).totalEarned ∧
    (d.earnings provider).totalEarned < uint256Size

/-- The distributor has approved nobody, and its earnings are in order. -/
structure SoundAccounts (sites : Sites) (n : Network) : Prop where
  noApproval : ∀ spender, n.token.allowance sites.distributor spender = 0
  earnings : n.distributor.EarningsSound

/-! ## Calls of the other contracts -/

section Spares

variable {this a : Address} {msg : Msg}

/-- An account that approves nobody loses nothing, and still approves nobody. -/
def HoldingsKept (a : Address) (t t' : StorageToken) : Prop :=
  t.balanceOf a ≤ t'.balanceOf a ∧ ∀ spender, t'.allowance a spender = 0

theorem holdingsKept_of_spares {t t' : StorageToken} (hno : ∀ spender, t.allowance a spender = 0)
    (h : t.Spares a t') : HoldingsKept a t t' :=
  ⟨h.2, fun spender => (h.1 spender).trans (hno spender)⟩

/-- A call of the marketplace moves tokens in one transfer at most: from its sender, or to somebody. -/
theorem marketStep_token {s s' : System} {c : MarketCall} {logs : List Log}
    (h : s.marketStep this msg c = .ok (s', logs)) :
    s'.token = s.token ∨
      (∃ value paid, s.token.transferFrom this msg.sender this value = .ok (s'.token, paid)) ∨
      ∃ dst value paid, s.token.transfer this dst value = .ok (s'.token, paid) := by
  cases c with
  | createDeal params =>
    -- the client pays the price and the fee
    simp only [System.marketStep, System.createDeal, bind_eq_ok, pure_eq_ok, Prod.exists,
      Prod.mk.injEq] at h
    obtain ⟨_, -, _, -, _, -, _, -, _, -, _, -, _, -, _, -, token, paid, htransfer, _, -, _, -, _, -, _, -,
      rfl, -⟩ := h
    exact Or.inr (Or.inl ⟨_, paid, htransfer⟩)
  | completeDeal dealId =>
    simp only [System.marketStep, System.completeDeal, bind_eq_ok, Prod.exists] at h
    obtain ⟨_, -, _, -, _, -, _, _, _, -, _, -, _, -, h⟩ := h
    -- the distributor gets its payment if it has been set, and there is something to pay
    split at h
    · simp only [bind_eq_ok, pure_eq_ok, Prod.exists, Prod.mk.injEq] at h
      obtain ⟨token, paid, htransfer, rfl, -⟩ := h
      exact Or.inr (Or.inr ⟨_, _, paid, htransfer⟩)
    · simp only [pure_eq_ok, Prod.mk.injEq] at h
      obtain ⟨rfl, -⟩ := h
      exact Or.inl rfl
  | cancelDeal dealId =>
    simp only [System.marketStep, System.cancelDeal, bind_eq_ok] at h
    obtain ⟨_, -, _, -, _, -, _, -, _, -, h⟩ := h
    -- a refund of nothing is not transferred
    split at h
    · simp only [bind_eq_ok, pure_eq_ok, Prod.exists, Prod.mk.injEq] at h
      obtain ⟨_, -, token, paid, htransfer, rfl, -⟩ := h
      exact Or.inr (Or.inr ⟨_, _, paid, htransfer⟩)
    · simp only [pure_eq_ok, Prod.mk.injEq] at h
      obtain ⟨rfl, -⟩ := h
      exact Or.inl rfl
  | renewDeal dealId days =>
    simp only [System.marketStep, System.renewDeal, bind_eq_ok, pure_eq_ok, Prod.exists,
      Prod.mk.injEq] at h
    obtain ⟨_, -, _, -, _, -, token, paid, htransfer, _, -, _, -, _, -, _, -, _, -, rfl, -⟩ := h
    exact Or.inr (Or.inl ⟨_, paid, htransfer⟩)
  | reportLostShard dealId provider =>
    simp only [System.marketStep, System.reportLostShard, bind_eq_ok] at h
    obtain ⟨_, -, _, -, _, -, _, -, h⟩ := h
    -- with too few shards left the deal fails, and the client gets the escrow back
    split at h
    · simp only [bind_eq_ok, pure_eq_ok, Prod.exists, Prod.mk.injEq] at h
      obtain ⟨s₁, l, hfail, rfl, -⟩ := h
      unfold System.failDeal at hfail
      dsimp only at hfail
      split at hfail
      · simp only [bind_eq_ok, pure_eq_ok, Prod.exists, Prod.mk.injEq] at hfail
        obtain ⟨token, paid, htransfer, _, _, -, rfl, -⟩ := hfail
        exact Or.inr (Or.inr ⟨_, _, paid, htransfer⟩)
      · simp only [bind_eq_ok, pure_eq_ok, Prod.exists, Prod.mk.injEq] at hfail
        obtain ⟨_, _, -, rfl, -⟩ := hfail
        exact Or.inl rfl
    · simp only [pure_eq_ok, Prod.mk.injEq] at h
      obtain ⟨rfl, -⟩ := h
      exact Or.inl rfl
  | initiateRetrieval dealId provider amount =>
    simp only [System.marketStep, System.initiateRetrieval, bind_eq_ok, pure_eq_ok, Prod.exists,
      Prod.mk.injEq] at h
    obtain ⟨_, -, _, -, token, paid, htransfer, _, -, rfl, -⟩ := h
    exact Or.inr (Or.inl ⟨_, paid, htransfer⟩)
  | claimRetrievalPayment retrievalId =>
    simp only [System.marketStep, System.claimRetrievalPayment, bind_eq_ok, pure_eq_ok, Prod.exists,
      Prod.mk.injEq] at h
    obtain ⟨_, -, _, -, token, paid, htransfer, rfl, -⟩ := h
    exact Or.inr (Or.inr ⟨_, _, paid, htransfer⟩)
  | withdrawFees =>
    simp only [System.marketStep, System.withdrawFees, bind_eq_ok, pure_eq_ok, Prod.exists,
      Prod.mk.injEq] at h
    obtain ⟨_, -, _, -, token, paid, htransfer, rfl, -⟩ := h
    exact Or.inr (Or.inr ⟨_, _, paid, htransfer⟩)
  | repairShard dealId oldProvider newProvider cid =>
    -- repairs and settings move no tokens
    simp only [System.marketStep, System.repairShard, bind_eq_ok, pure_eq_ok, Prod.mk.injEq] at h
    obtain ⟨_, -, _, -, _, -, _, -, _, -, rfl, -⟩ := h
    exact Or.inl rfl
  | setPaymentDistributor distributor =>
    simp only [System.marketStep, System.setPaymentDistributor, bind_eq_ok, pure_eq_ok,
      Prod.mk.injEq] at h
    obtain ⟨_, -, _, -, _, -, rfl, -⟩ := h
    exact Or.inl rfl
  | setProtocolFee _ | setTreasury _ | updateKynPrice _ | transferOwnership _ | renounceOwnership =>
    simp only [System.marketStep, System.setProtocolFee, System.setTreasury, System.updateKynPrice,
      bind_eq_ok, pure_eq_ok, Prod.mk.injEq] at h
    first
      | obtain ⟨_, -, rfl, -⟩ := h
      | obtain ⟨_, -, _, -, rfl, -⟩ := h
    exact Or.inl rfl

theorem marketStep_holdingsKept {s s' : System} {c : MarketCall} {logs : List Log} (hthis : this ≠ a)
    (hno : ∀ spender, s.token.allowance a spender = 0)
    (h : s.marketStep this msg c = .ok (s', logs)) : HoldingsKept a s.token s'.token := by
  rcases marketStep_token h with hsame | ⟨value, paid, hpulled⟩ | ⟨dst, value, paid, hpushed⟩
  · rw [hsame]
    exact holdingsKept_of_spares hno (StorageToken.Spares.refl a _)
  · exact StorageToken.transferFrom_spares hno hpulled
  · exact holdingsKept_of_spares hno (StorageToken.transfer_spares hthis hpushed)

theorem movedIf_spares {t t' : StorageToken} {amount : Nat} {moved : Tx (StorageToken × List TokenLog)}
    {paid : List TokenLog} (hmoved : moved = .ok (t', paid) → t.Spares a t')
    (h : CapacityPledge.movedIf amount t moved = .ok (t', paid)) : t.Spares a t' := by
  rcases CapacityPledge.movedIf_ok h with hdone | ⟨-, rfl⟩
  · exact hmoved hdone
  · exact StorageToken.Spares.refl a t'

/-- The pledge contract takes nothing from an address that has approved nobody. -/
theorem pledgeStep_holdingsKept {p p' : CapacityPledge} {t t' : StorageToken} {c : CapacityPledge.Call}
    {paid : List TokenLog} {logs : List PledgeLog} (hthis : this ≠ a)
    (hno : ∀ spender, t.allowance a spender = 0)
    (h : p.step this t msg c = .ok (t', p', paid, logs)) : HoldingsKept a t t' := by
  cases c with
  -- the collateral comes from the sender, who is not `a` or has approved nobody
  | createPledge capacityGB duration collateralAmount =>
    simp only [CapacityPledge.step, CapacityPledge.createPledge, bind_eq_ok, pure_eq_ok, Prod.exists,
      Prod.mk.injEq] at h
    obtain ⟨_, -, _, -, _, -, _, -, token, paid, htransfer, _, -, _, -, _, -, rfl, -⟩ := h
    exact StorageToken.transferFrom_spares hno htransfer
  | completePledge pledgeId =>
    simp only [CapacityPledge.step, CapacityPledge.completePledge, bind_eq_ok, pure_eq_ok, Prod.exists,
      Prod.mk.injEq] at h
    obtain ⟨_, -, _, -, _, -, _, -, token, paid, htransfer, rfl, -⟩ := h
    exact holdingsKept_of_spares hno (StorageToken.transfer_spares hthis htransfer)
  | exitPledgeEarly pledgeId =>
    -- the penalty is burned and the rest returned, both out of the contract's own balance
    obtain ⟨penalty, t₁, burned, returned, -, -, -, -, -, hburn, hpay, -⟩ :=
      CapacityPledge.exitPledgeEarly_ok h
    have hburned : t.Spares a t₁ :=
      movedIf_spares (fun h => StorageToken.burnCounted_spares hthis h) hburn
    have hpaid : t₁.Spares a t' :=
      movedIf_spares (fun h => StorageToken.transfer_spares hthis h) hpay
    exact holdingsKept_of_spares hno (hburned.trans hpaid)
  | updateUtilization provider pledgeId newUtilizationGB =>
    simp only [CapacityPledge.step, bind_eq_ok, pure_eq_ok, Prod.exists, Prod.mk.injEq] at h
    obtain ⟨_, _, -, rfl, -⟩ := h
    exact holdingsKept_of_spares hno (StorageToken.Spares.refl a _)
  | transferOwnership _ | renounceOwnership =>
    simp only [CapacityPledge.step, bind_eq_ok, pure_eq_ok, Prod.mk.injEq] at h
    obtain ⟨_, -, rfl, -⟩ := h
    exact holdingsKept_of_spares hno (StorageToken.Spares.refl a _)

end Spares

/-! ## Crediting and paying -/

namespace PaymentDistributor

section Credits

variable {d d' : PaymentDistributor} {provider : Address} {e : ProviderEarnings}

theorem liabilities_setEarnings :
    (d.setEarnings provider e).liabilities + (d.earnings provider).owed = d.liabilities + e.owed := by
  have hsum := sum_univ_update ProviderEarnings.owed d.earnings provider e
  simp only [liabilities, setEarnings]
  omega

theorem owed_le_liabilities (d : PaymentDistributor) (provider : Address) :
    (d.earnings provider).owed ≤ d.liabilities := by
  have hle : (d.earnings provider).owed ≤ ∑ p, (d.earnings p).owed :=
    Finset.single_le_sum (f := fun p => (d.earnings p).owed) (fun _ _ => Nat.zero_le _)
      (Finset.mem_univ provider)
  unfold liabilities
  omega

theorem EarningsSound.set (h : d.EarningsSound)
    (he : e.totalWithdrawn ≤ e.totalEarned ∧ e.totalEarned < uint256Size) :
    (d.setEarnings provider e).EarningsSound := by
  intro q
  rcases eq_or_ne q provider with rfl | hne
  · simpa [setEarnings] using he
  · simpa [setEarnings, hne] using h q

theorem creditUsage_ok {e e' : ProviderEarnings} {amount : Nat} (h : e.creditUsage amount = .ok e') :
    e'.totalEarned = e.totalEarned + amount ∧ e'.totalEarned < uint256Size ∧
      e'.totalWithdrawn = e.totalWithdrawn := by
  simp only [ProviderEarnings.creditUsage, bind_eq_ok, checkedAdd_eq_ok, pure_eq_ok] at h
  obtain ⟨_, -, _, ⟨hlt, rfl⟩, rfl⟩ := h
  exact ⟨rfl, hlt, rfl⟩

/-- Earning more means being owed more. -/
theorem owed_of_credit {e e' : ProviderEarnings} {amount : Nat}
    (hle : e.totalWithdrawn ≤ e.totalEarned) (hearned : e'.totalEarned = e.totalEarned + amount)
    (hwithdrawn : e'.totalWithdrawn = e.totalWithdrawn) : e'.owed = e.owed + amount := by
  unfold ProviderEarnings.owed
  omega

/-- A credit to one provider. -/
theorem liabilities_credit {amount : Nat} (h : d.EarningsSound)
    (hearned : e.totalEarned = (d.earnings provider).totalEarned + amount)
    (hwithdrawn : e.totalWithdrawn = (d.earnings provider).totalWithdrawn)
    (hlt : e.totalEarned < uint256Size) :
    (d.setEarnings provider e).EarningsSound ∧
      (d.setEarnings provider e).liabilities = d.liabilities + amount := by
  have howed := owed_of_credit (h provider).1 hearned hwithdrawn
  have hset := @liabilities_setEarnings d provider e
  refine ⟨h.set ⟨?_, hlt⟩, by omega⟩
  have := (h provider).1
  omega

/-- The loop books its reward once for each shard in service. -/
theorem creditActive_liabilities {deal : Deal} {l : List Address} {dealId reward : Nat}
    {logs : List NetworkLog} (hs : d.EarningsSound)
    (h : d.creditActive dealId deal reward l = .ok (d', logs)) :
    d'.EarningsSound ∧
      d'.liabilities = d.liabilities + l.countP (fun p => (deal.shardAllocations p).active) * reward := by
  induction l generalizing d logs with
  | nil =>
    obtain ⟨rfl, -⟩ := Prod.mk.inj (Except.ok.inj h)
    exact ⟨hs, by simp⟩
  | cons p rest ih =>
    unfold creditActive at h
    split at h
    · next hactive =>
      simp only [bind_eq_ok, pure_eq_ok, Prod.exists, Prod.mk.injEq] at h
      obtain ⟨e, hcredit, d₁, more, hrest, rfl, -⟩ := h
      obtain ⟨hearned, hlt, hwithdrawn⟩ := creditUsage_ok hcredit
      obtain ⟨hs', hliabilities⟩ := liabilities_credit hs hearned hwithdrawn hlt
      obtain ⟨hsound, hbooked⟩ := ih hs' hrest
      refine ⟨hsound, ?_⟩
      rw [hbooked, hliabilities, List.countP_cons, if_pos hactive, Nat.add_mul]
      omega
    · next hinactive =>
      obtain ⟨hsound, hbooked⟩ := ih hs h
      refine ⟨hsound, ?_⟩
      rw [hbooked, List.countP_cons, if_neg hinactive, Nat.add_zero]

end Credits

end PaymentDistributor

section Steps

variable {sites : Sites} {n n' : Network} {msg : Msg} {logs : List NetworkLog}

/-- The surplus of the distributor does not shrink, and its accounts stay in order. -/
structure KeepsCover (sites : Sites) (n n' : Network) : Prop where
  surplus : n'.distributor.liabilities + n.token.balanceOf sites.distributor ≤
    n.distributor.liabilities + n'.token.balanceOf sites.distributor
  sound : SoundAccounts sites n'

theorem KeepsCover.of_holdingsKept (hs : SoundAccounts sites n)
    (h : HoldingsKept sites.distributor n.token n'.token) (hsame : n'.distributor = n.distributor) :
    KeepsCover sites n n' := by
  constructor
  · rw [hsame]
    exact Nat.add_le_add_left h.1 _
  · exact ⟨h.2, hsame ▸ hs.earnings⟩

/-- A minted reward is in the balance when it is credited. -/
theorem mint_ok {token token' : StorageToken} {dst : Address} {amount : Nat} {paid : List TokenLog}
    (h : token.mint msg dst amount = .ok (token', paid)) :
    token'.balanceOf dst = token.balanceOf dst + amount ∧ token'.allowance = token.allowance := by
  obtain ⟨-, -, -, hout⟩ := StorageToken.mint_eq_ok.mp h
  obtain ⟨rfl, -⟩ := Prod.mk.inj hout
  exact ⟨Function.update_self _ _ _, rfl⟩

/-- A transfer by the distributor. -/
theorem distributor_pays {token : StorageToken} {dst : Address} {amount : Nat} {paid : List TokenLog}
    (h : n.token.transfer sites.distributor dst amount = .ok (token, paid)) :
    n.token.balanceOf sites.distributor ≤ token.balanceOf sites.distributor + amount ∧
      token.allowance = n.token.allowance := by
  obtain ⟨-, -, hle, hout⟩ := StorageToken.transfer_eq_ok.mp h
  obtain ⟨rfl, -⟩ := Prod.mk.inj hout
  refine ⟨?_, rfl⟩
  have hbalance := Erc20.balanceOf_move_src n.token.toErc20 dst hle
  show _ ≤ (n.token.toErc20.move sites.distributor dst amount).balanceOf sites.distributor + amount
  rw [hbalance]
  split <;> omega

/-- A credit that is minted in the same call. -/
theorem KeepsCover.of_minted {provider : Address} {e : ProviderEarnings} {amount : Nat} {token : StorageToken}
    {paid : List TokenLog} (hs : SoundAccounts sites n)
    (hearned : e.totalEarned = (n.distributor.earnings provider).totalEarned + amount)
    (hwithdrawn : e.totalWithdrawn = (n.distributor.earnings provider).totalWithdrawn)
    (hlt : e.totalEarned < uint256Size) (hmint : n.token.mint msg sites.distributor amount = .ok (token, paid)) :
    KeepsCover sites n { n with token := token, distributor := n.distributor.setEarnings provider e } := by
  obtain ⟨hbalance, hallowance⟩ := mint_ok hmint
  obtain ⟨hsound, hliabilities⟩ := PaymentDistributor.liabilities_credit hs.earnings hearned hwithdrawn hlt
  constructor
  · show (n.distributor.setEarnings provider e).liabilities + _ ≤ _ + token.balanceOf sites.distributor
    omega
  · refine ⟨?_, hsound⟩
    intro spender
    show token.allowance sites.distributor spender = 0
    rw [hallowance]
    exact hs.noApproval spender

/-- A payment of something that was owed. -/
theorem KeepsCover.of_paid {d : PaymentDistributor} {dst : Address} {amount : Nat} {token : StorageToken}
    {paid : List TokenLog} (hs : SoundAccounts sites n) (hsound : d.EarningsSound)
    (howed : d.liabilities + amount = n.distributor.liabilities)
    (h : n.token.transfer sites.distributor dst amount = .ok (token, paid)) :
    KeepsCover sites n { n with token := token, distributor := d } := by
  obtain ⟨hbalance, hallowance⟩ := distributor_pays h
  constructor
  · show d.liabilities + _ ≤ _ + token.balanceOf sites.distributor
    omega
  · refine ⟨?_, hsound⟩
    intro spender
    show token.allowance sites.distributor spender = 0
    rw [hallowance]
    exact hs.noApproval spender

/-- What every call of the distributor does, except for usage rewards. -/
theorem distributorStep_keepsCover {c : PaymentDistributor.Call} (hs : SoundAccounts sites n)
    (husage : ∀ dealId, c ≠ .distributeUsageRewards dealId)
    (h : n.distributorStep sites msg c = .ok (n', logs)) : KeepsCover sites n n' := by
  cases c with
  | distributeCapacityRewards provider pledgeId =>
    simp only [Network.distributorStep, Network.distributeCapacityRewards, bind_eq_ok, checkedAdd_eq_ok,
      pure_eq_ok, Prod.exists, Prod.mk.injEq] at h
    obtain ⟨_, -, _, -, _, -, _, -, scaled, -, token, paid, hmint, _, -, _, ⟨hlt, rfl⟩, rfl, -⟩ := h
    -- what is credited is minted first
    exact KeepsCover.of_minted hs rfl rfl hlt hmint
  | distributeUsageRewards dealId => exact absurd rfl (husage dealId)
  | payProofBonus provider =>
    simp only [Network.distributorStep, Network.payProofBonus, bind_eq_ok, checkedAdd_eq_ok, pure_eq_ok,
      Prod.exists, Prod.mk.injEq] at h
    obtain ⟨_, -, _, -, _, -, _, ⟨hlt, rfl⟩, token, paid, hmint, rfl, -⟩ := h
    exact KeepsCover.of_minted hs rfl rfl hlt hmint
  | withdrawEarnings =>
    simp only [Network.distributorStep, Network.withdrawEarnings, bind_eq_ok, checkedSub_eq_ok,
      checkedAdd_eq_ok, pure_eq_ok, Prod.exists, Prod.mk.injEq] at h
    obtain ⟨available, ⟨hle, rfl⟩, _, -, totalWithdrawn, ⟨-, rfl⟩, token, paid, hpaid, rfl, -⟩ := h
    have hearned := (hs.earnings msg.sender).2
    -- the sender gets what it is owed, no more
    refine KeepsCover.of_paid hs (hs.earnings.set ⟨?_, hearned⟩) ?_ hpaid
    · dsimp only
      omega
    · -- the sender is owed nothing any more
      have hset := @PaymentDistributor.liabilities_setEarnings n.distributor msg.sender
        { n.distributor.earnings msg.sender with
          totalWithdrawn := (n.distributor.earnings msg.sender).totalWithdrawn +
            ((n.distributor.earnings msg.sender).totalEarned -
              (n.distributor.earnings msg.sender).totalWithdrawn)
          lastClaimTimestamp := msg.timestamp }
      simp only [ProviderEarnings.owed] at hset
      omega
  | withdrawProtocolFees recipient =>
    simp only [Network.distributorStep, Network.withdrawProtocolFees, bind_eq_ok, pure_eq_ok,
      Prod.exists, Prod.mk.injEq] at h
    obtain ⟨_, -, _, -, token, paid, hpaid, rfl, -⟩ := h
    -- the fees that go are no longer owed to the treasury
    refine KeepsCover.of_paid hs hs.earnings ?_ hpaid
    simp only [PaymentDistributor.liabilities]
    omega
  | useRepairReserve newProvider amount =>
    simp only [Network.distributorStep, Network.useRepairReserve, bind_eq_ok, require_eq_ok, pure_eq_ok,
      Prod.mk.injEq, exists_const] at h
    obtain ⟨_, -, hreserve, e, hcredit, rfl, -⟩ := h
    -- what is credited to the provider comes out of the reserve
    obtain ⟨hearned, hlt, hwithdrawn⟩ := PaymentDistributor.creditUsage_ok hcredit
    obtain ⟨hsound, hliabilities⟩ := PaymentDistributor.liabilities_credit hs.earnings hearned hwithdrawn hlt
    constructor
    · simp only [PaymentDistributor.liabilities, PaymentDistributor.setEarnings] at hliabilities ⊢
      omega
    · exact ⟨hs.noApproval, hsound⟩
  | updateRates _ _ _ =>
    simp only [Network.distributorStep, Network.updateRates, bind_eq_ok, pure_eq_ok,
      Prod.mk.injEq] at h
    obtain ⟨_, -, rfl, -⟩ := h
    exact ⟨Nat.le_refl _, hs.noApproval, hs.earnings⟩
  | transferOwnership _ | renounceOwnership =>
    simp only [Network.distributorStep, bind_eq_ok, pure_eq_ok, Prod.mk.injEq] at h
    obtain ⟨_, -, rfl, -⟩ := h
    exact ⟨Nat.le_refl _, hs.noApproval, hs.earnings⟩

/-- Usage rewards move no tokens, and book what the split says. -/
theorem distributeUsageRewards_books {dealId : Nat} (hs : SoundAccounts sites n)
    (h : n.distributeUsageRewards sites msg dealId = .ok (n', logs)) :
    n'.toSystem = n.toSystem ∧ n'.distributor.EarningsSound ∧
      n'.distributor.liabilities = n.distributor.liabilities +
        usageBooked (n.market.deals dealId).creditedCount (n.market.deals dealId).totalCost := by
  simp only [Network.distributeUsageRewards, bind_eq_ok, checkedAdd_eq_ok, pure_eq_ok, Prod.exists,
    Prod.mk.injEq] at h
  obtain ⟨_, -, _, -, _, -, split, hsplit, _, -, _, ⟨-, rfl⟩, _, ⟨-, rfl⟩, d, _, hloop, rfl, -⟩ := h
  obtain rfl := usageSplit_eq hsplit
  obtain ⟨hsound, hcredited⟩ := PaymentDistributor.creditActive_liabilities (by exact hs.earnings) hloop
  refine ⟨rfl, hsound, ?_⟩
  show d.liabilities = _
  rw [hcredited]
  simp only [PaymentDistributor.liabilities, usageBooked, Deal.creditedCount]
  omega

/-- A privileged burn takes its amount from the balance. -/
theorem burnFrom_takes {token token' : StorageToken} {src : Address} {amount : Nat} {paid : List TokenLog}
    (h : token.burnFrom msg src amount = .ok (token', paid)) :
    token'.balanceOf src + amount = token.balanceOf src ∧ token'.allowance = token.allowance := by
  simp only [StorageToken.burnFrom, bind_eq_ok] at h
  obtain ⟨_, -, hburn⟩ := h
  obtain ⟨hbalance, -, -, hallowance⟩ := StorageToken.burnCounted_ok hburn
  exact ⟨hbalance, hallowance⟩

/-- What one call does to the cover. -/
def CoverStep (sites : Sites) (n : Network) (a : NetworkAction sites) (n' : Network) : Prop :=
  SoundAccounts sites n' ∧
    (n.distributor.liabilities ≤ n.token.balanceOf sites.distributor →
      (n'.distributor.liabilities ≤ n'.token.balanceOf sites.distributor ↔ Funded sites n a))

theorem KeepsCover.coverStep {a : NetworkAction sites} (h : KeepsCover sites n n') (hf : Funded sites n a) :
    CoverStep sites n a n' := by
  refine ⟨h.sound, ?_⟩
  intro hcovered
  have hsurplus := h.surplus
  exact ⟨fun _ => hf, fun _ => by omega⟩

/-- A call of the token keeps the distributor covered exactly if it is funded. -/
theorem tokenStep_cover {c : StorageToken.Call} {a : NetworkAction sites} {token : StorageToken}
    {paid : List TokenLog} (hs : SoundAccounts sites n) (hcall : a.call = .base (.token c))
    (h : n.token.step a.msg c = .ok (token, paid)) :
    CoverStep sites n a { n with token := token } := by
  by_cases hburn : c.burnsFrom sites.distributor
  · cases c with
    | burnFrom src amount =>
      obtain rfl : src = sites.distributor := hburn
      obtain ⟨htaken, hallowance⟩ := burnFrom_takes h
      refine ⟨⟨fun spender => ?_, hs.earnings⟩, fun hcovered => ?_⟩
      · show token.allowance sites.distributor spender = 0
        rw [hallowance]
        exact hs.noApproval spender
      · simp only [Funded, hcall, true_implies]
        omega
    | _ => exact hburn.elim
  · obtain ⟨hle, hno⟩ := StorageToken.step_frame a.sender_ne_distributor hburn hs.noApproval h
    have hkeeps : KeepsCover sites n { n with token := token } := KeepsCover.of_holdingsKept hs ⟨hle, hno⟩ rfl
    apply hkeeps.coverStep
    unfold Funded
    rw [hcall]
    cases c with
    | burnFrom src amount => exact fun hsrc => absurd hsrc hburn
    | _ => trivial

/-- What can cost the distributor its cover: usage rewards, and a privileged burn of its tokens. -/
theorem step_cover {a : NetworkAction sites} (hs : SoundAccounts sites n)
    (h : n.step sites a = .ok (n', logs)) : CoverStep sites n a n' := by
  cases networkStep_of_ok h with
  | @market c s l call done =>
    have hkept := marketStep_holdingsKept sites.distributor_ne_marketplace.symm hs.noApproval done
    have hkeeps : KeepsCover sites n { n with toSystem := s } := KeepsCover.of_holdingsKept hs hkept rfl
    apply hkeeps.coverStep
    simp only [Funded, call]
  | token call done => exact tokenStep_cover hs call done
  | @registry c registry l call done =>
    have hkeeps : KeepsCover sites n { n with registry := registry } :=
      ⟨Nat.le_refl _, hs.noApproval, hs.earnings⟩
    apply hkeeps.coverStep
    simp only [Funded, call]
  | @pledge c token pledges paid l call done =>
    have hkept := pledgeStep_holdingsKept sites.distributor_ne_pledges.symm hs.noApproval done
    have hkeeps : KeepsCover sites n { n with token := token, pledges := pledges } :=
      KeepsCover.of_holdingsKept hs hkept rfl
    apply hkeeps.coverStep
    simp only [Funded, call]
  | @distributor c _ _ call done =>
    by_cases husage : ∃ dealId, c = .distributeUsageRewards dealId
    · obtain ⟨dealId, rfl⟩ := husage
      obtain ⟨hsystem, hsound, hbooked⟩ := distributeUsageRewards_books hs done
      refine ⟨⟨fun spender => ?_, hsound⟩, fun _ => ?_⟩
      · rw [hsystem]
        exact hs.noApproval spender
      · rw [hbooked, hsystem]
        simp only [Funded, call]
    · have hkeeps := distributorStep_keepsCover hs (fun dealId hc => husage ⟨dealId, hc⟩) done
      apply hkeeps.coverStep
      unfold Funded
      rw [call]
      cases c with
      | distributeUsageRewards dealId => exact absurd ⟨dealId, rfl⟩ husage
      | _ => trivial

theorem deployV2_soundAccounts {slashing : Address} (h : Network.deployV2 sites msg slashing = .ok n) :
    SoundAccounts sites n ∧ n.distributor.liabilities = 0 := by
  simp only [Network.deployV2, System.setPaymentDistributor, StorageToken.authorizeMinter,
    StorageToken.authorizeBurner, StorageToken.setMinter, StorageToken.setBurner, bind_eq_ok, require_eq_ok,
    pure_eq_ok, Prod.exists, Prod.mk.injEq, exists_const] at h
  obtain ⟨system, l, ⟨_, -, -, -, rfl, -⟩, _, _, ⟨_, -, rfl, -⟩, _, _, ⟨_, -, rfl, -⟩, _, _, -, _, _, -, rfl⟩ := h
  have hpos : 0 < uint256Size := by decide
  refine ⟨⟨fun _ => rfl, fun _ => ⟨Nat.le_refl _, hpos⟩⟩, ?_⟩
  simp [PaymentDistributor.liabilities, PaymentDistributor.deploy, ProviderEarnings.owed]

end Steps

/-! ## Solvency along runs -/

section Runs

variable {sites : Sites} {n : Network}

/-- With enough on its balance the distributor pays whoever has earned something. -/
theorem withdrawEarnings_succeeds {msg : Msg} (hs : SoundAccounts sites n)
    (hcovered : n.distributor.liabilities ≤ n.token.balanceOf sites.distributor) (hsender : msg.sender ≠ 0)
    (hpos : 0 < (n.distributor.earnings msg.sender).owed) : ∃ r, n.withdrawEarnings sites msg = .ok r := by
  have howed := n.distributor.owed_le_liabilities msg.sender
  obtain ⟨hle, hlt⟩ := hs.earnings msg.sender
  unfold ProviderEarnings.owed at hpos howed
  have hpays := StorageToken.transfer_eq_ok.mpr
    ⟨sites.distributor_ne_zero, hsender, howed.trans hcovered, rfl⟩
  simp only [Network.withdrawEarnings, bind_eq_ok, require_eq_ok, checkedSub_eq_ok, checkedAdd_eq_ok,
    pure_eq_ok, exists_const]
  exact ⟨_, _, ⟨hle, rfl⟩, hpos, _, ⟨by omega, rfl⟩, _, hpays, rfl⟩

theorem withdrawProtocolFees_succeeds {msg : Msg} {recipient : Address}
    (hcovered : n.distributor.liabilities ≤ n.token.balanceOf sites.distributor)
    (howner : msg.sender = n.distributor.owner) (hrecipient : recipient ≠ 0)
    (hpos : 0 < n.distributor.protocolFeeCollected) :
    ∃ r, n.withdrawProtocolFees sites msg recipient = .ok r := by
  have hle : n.distributor.protocolFeeCollected ≤ n.distributor.liabilities := by
    unfold PaymentDistributor.liabilities
    omega
  have hpays := StorageToken.transfer_eq_ok.mpr
    ⟨sites.distributor_ne_zero, hrecipient, hle.trans hcovered, rfl⟩
  simp only [Network.withdrawProtocolFees, bind_eq_ok, require_eq_ok, onlyOwner_eq_ok, pure_eq_ok, exists_const]
  exact ⟨_, howner, hpos, _, hpays, rfl⟩

/-- **Solvency, exactly.** In a run from the deployment the distributor is solvent all along if and only if
every `distributeUsageRewards` and every privileged burn of its tokens leaves enough for what is owed
already. -/
theorem solvent_along_iff_funded {n₀ : Network} {msg : Msg} {slashing : Address}
    (h : Network.deployV2 sites msg slashing = .ok n₀) (as : List (NetworkAction sites)) :
    Along (Network.step sites) (DistributorSolvent sites) n₀ as ↔
      Meets (Network.step sites) (Funded sites) n₀ as := by
  obtain ⟨hs, hzero⟩ := deployV2_soundAccounts h
  have hcovered : n₀.distributor.liabilities ≤ n₀.token.balanceOf sites.distributor := by
    rw [hzero]
    exact Nat.zero_le _
  rw [along_congr (Q := fun n => n.distributor.liabilities ≤ n.token.balanceOf sites.distributor)
    (I := SoundAccounts sites) hs]
  · apply along_iff_meets (I := SoundAccounts sites) hcovered hs
    · exact fun _ _ _ _ hs hstep => (step_cover hs hstep).1
    · exact fun _ _ _ _ hs hcovered hstep => (step_cover hs hstep).2 hcovered
  · intro n hs
    refine ⟨DistributorSolvent.covered, fun hcovered => ⟨hcovered, ?_, ?_⟩⟩
    · exact fun msg hsender hpos => withdrawEarnings_succeeds hs hcovered hsender hpos
    · exact fun msg recipient howner hrecipient hpos =>
        withdrawProtocolFees_succeeds hcovered howner hrecipient hpos
  · exact fun _ _ _ _ hs _ hstep => (step_cover hs hstep).1

end Runs

/-! ### In the small network -/

namespace SmallNetwork

/-- Ten repairs name a stranger, so the completed deal still counts ten shards. -/
def miscounted : List (NetworkAction sites) :=
  created SmallMarket.params ++
    ((List.finRange 10).map fun _ =>
      account 0 0 (.base (.market (.repairShard 0 50 (SmallMarket.provider 0).addr "QmShard")))) ++
    [completion]

/-- The usage rewards of that deal are booked twenty times. Then the repair reserve goes to a provider. -/
def overbooked : List (NetworkAction sites) :=
  miscounted ++
    ((List.finRange 20).map fun _ => account 0 (30 * DAY) (.distributor (.distributeUsageRewards 0))) ++
    [account 0 (30 * DAY) (.distributor (.useRepairReserve 10 (103 * 10 ^ 16)))]

end SmallNetwork

section Concrete

open SmallNetwork

/-- The distributor of the example owes more than it has, and the provider's withdrawal is reverted. -/
theorem overbooked_insolvent :
    revertOf ((run (Network.step sites) deployed overbooked).withdrawEarnings sites ⟨10, 30 * DAY⟩) =
        some (.error "ERC20InsufficientBalance") ∧
      ¬ DistributorSolvent sites (run (Network.step sites) deployed overbooked) := by
  have hrevert : revertOf
      ((run (Network.step sites) deployed overbooked).withdrawEarnings sites ⟨10, 30 * DAY⟩) =
        some (.error "ERC20InsufficientBalance") := by decide +kernel
  refine ⟨hrevert, ?_⟩
  intro hsolvent
  obtain ⟨r, hok⟩ := hsolvent.earnings ⟨10, 30 * DAY⟩ (by decide) (by decide +kernel)
  rw [hok] at hrevert
  cases hrevert

/-- Calls of the market, the token and the registry leave the distributor alone. -/
theorem distributor_base {sites : Sites} {n n' : Network} {a : NetworkAction sites} {logs : List NetworkLog}
    (hbase : ∃ c, a.call = .base c) (hstep : n.step sites a = .ok (n', logs)) : n'.distributor = n.distributor := by
  obtain ⟨c, hcall⟩ := hbase
  cases c with
  | market c | token c | registry c =>
    simp only [Network.step, hcall, bind_eq_ok, pure_eq_ok, Prod.exists, Prod.mk.injEq] at hstep
    obtain ⟨_, _, -, rfl, -⟩ := hstep
    rfl

theorem base_of_miscounted {a : NetworkAction sites} (ha : a ∈ miscounted) :
    (∃ c, a.call = .base c) ∧ ∀ n, Funded sites n a := by
  simp only [miscounted, created, List.mem_append, List.mem_map, List.mem_cons, List.not_mem_nil, or_false] at ha
  rcases ha with ((((rfl | rfl) | ⟨i, -, rfl⟩) | rfl) | ⟨i, -, rfl⟩) | rfl <;> exact ⟨⟨_, rfl⟩, fun _ => trivial⟩

/-- If the usage rewards are booked once, the payment for the deal covers them. -/
theorem solvent_completed :
    Along (Network.step sites) (DistributorSolvent sites) deployed
      (miscounted ++ [account 0 (30 * DAY) (.distributor (.distributeUsageRewards 0))]) := by
  refine (solvent_along_iff_funded deployV2_eq _).mpr ((meets_snoc _ _ _).mpr ⟨?_, fun _ => ?_⟩)
  · exact meets_of_forall _ fun a ha n => (base_of_miscounted ha).2 n
  · have hsame : (run (Network.step sites) deployed miscounted).distributor = deployed.distributor :=
      run_invariant (I := fun n => n.distributor = deployed.distributor) rfl
        (fun _ _ _ _ h hbase hstep => (distributor_base hbase hstep).trans h) miscounted
        (meets_of_forall _ fun a ha _ => (base_of_miscounted ha).1)
    have hbooked : usageBooked ((run (Network.step sites) deployed miscounted).market.deals 0).creditedCount
          ((run (Network.step sites) deployed miscounted).market.deals 0).totalCost ≤
        (run (Network.step sites) deployed miscounted).token.balanceOf sites.distributor := by
      decide +kernel
    show (run (Network.step sites) deployed miscounted).distributor.liabilities + _ ≤ _
    rw [hsame, (deployV2_soundAccounts deployV2_eq).2, Nat.zero_add]
    exact hbooked

end Concrete

end Kyneto
