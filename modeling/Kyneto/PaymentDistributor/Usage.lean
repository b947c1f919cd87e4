import Kyneto.PaymentDistributor.Basic

/-!
# Usage rewards of completed deals

`completeDeal` takes every listed shard out of service before it sends the payment, and the distributor
pays only providers whose shard is in service, of deals that count ten of them. The two contracts
disagree on what a completed deal looks like: after an ordinary completion the counter is at zero and
`distributeUsageRewards` reverts.

`paysHolders_iff` says when it does what it is for, in every state that the deployment can reach. All
that is left are deals whose counter repairs have driven ten above their holders, and that cost so
little that there is nothing to pay.
-/

namespace Kyneto

open Evm

/-! ## The split -/

/-- What is left of a deal's total cost for its providers. -/
def providerPool (totalCost : Nat) : Nat :=
  totalCost - totalCost * PROTOCOL_FEE_RATE / 10000 - totalCost * RESERVE_RATE / 10000

theorem usageSplit_eq {totalCost : Nat} {split : UsageSplit} (h : usageSplit totalCost = .ok split) :
    split = ⟨totalCost * PROTOCOL_FEE_RATE / 10000, totalCost * RESERVE_RATE / 10000,
      providerPool totalCost⟩ := by
  simp only [usageSplit, bind_eq_ok, checkedMul_eq_ok, checkedSub_eq_ok, pure_eq_ok] at h
  obtain ⟨_, ⟨-, rfl⟩, _, ⟨-, rfl⟩, _, ⟨-, rfl⟩, _, ⟨-, rfl⟩, rfl⟩ := h
  rfl

theorem usageSplit_ok {totalCost : Nat} {split : UsageSplit}
    (h : usageSplit totalCost = .ok split) : split.providerPool = providerPool totalCost := by
  rw [usageSplit_eq h]

/-- A share is nothing exactly if the whole deal costs less than its fifteen shards. -/
theorem share_eq_zero_iff (totalCost : Nat) : providerPool totalCost / 15 = 0 ↔ totalCost < 15 := by
  unfold providerPool PROTOCOL_FEE_RATE RESERVE_RATE
  omega

/-- Of less than 15 units, neither the fee nor the reserve gets anything. -/
theorem usageSplit_of_lt {totalCost : Nat} (h : totalCost < 15) :
    usageSplit totalCost = .ok ⟨0, 0, totalCost⟩ := by
  have hfee : totalCost * PROTOCOL_FEE_RATE / 10000 = 0 := by
    unfold PROTOCOL_FEE_RATE
    omega
  have hreserve : totalCost * RESERVE_RATE / 10000 = 0 := by
    unfold RESERVE_RATE
    omega
  have hsize : 15 * RESERVE_RATE < uint256Size := by decide
  simp only [usageSplit, bind_eq_ok, checkedMul_eq_ok, checkedSub_eq_ok, pure_eq_ok]
  refine ⟨_, ⟨?_, rfl⟩, _, ⟨?_, rfl⟩, _, ⟨?_, rfl⟩, _, ⟨?_, rfl⟩, ?_⟩
  · exact Nat.lt_of_le_of_lt (Nat.mul_le_mul h.le (by decide)) hsize
  · exact Nat.lt_of_le_of_lt (Nat.mul_le_mul_right _ h.le) hsize
  · omega
  · omega
  · rw [hfee, hreserve]
    rfl

/-! ## The loop -/

namespace PaymentDistributor

theorem creditActive_of_inactive {deal : Deal} {l : List Address} (d : PaymentDistributor)
    (dealId reward : Nat) (h : ∀ p ∈ l, (deal.shardAllocations p).active = false) :
    d.creditActive dealId deal reward l = .ok (d, []) := by
  induction l with
  | nil => rfl
  | cons p rest ih =>
    rw [creditActive, if_neg]
    · exact ih fun q hq => h q (List.mem_cons_of_mem _ hq)
    · rw [h p List.mem_cons_self]
      exact Bool.false_ne_true

/-- The loop credits earnings only. -/
theorem creditActive_frame {deal : Deal} {l : List Address} {d d' : PaymentDistributor}
    {dealId reward : Nat} {logs : List NetworkLog}
    (h : d.creditActive dealId deal reward l = .ok (d', logs)) :
    d'.protocolFeeCollected = d.protocolFeeCollected ∧ d'.repairReserve = d.repairReserve := by
  induction l generalizing d logs with
  | nil =>
    obtain ⟨rfl, -⟩ := Prod.mk.inj (Except.ok.inj h)
    exact ⟨rfl, rfl⟩
  | cons p rest ih =>
    unfold creditActive at h
    split at h
    · simp only [bind_eq_ok, pure_eq_ok, Prod.exists, Prod.mk.injEq] at h
      obtain ⟨e, -, d₁, more, hrest, rfl, -⟩ := h
      have hframe := ih hrest
      exact hframe
    · exact ih h

end PaymentDistributor

/-! ## The wiring -/

/-- The marketplace pays the distributor, and the distributor's counters are machine words. -/
structure Wired (sites : Sites) (n : Network) : Prop where
  wired : n.market.paymentDistributor = sites.distributor
  fees_lt : n.distributor.protocolFeeCollected < uint256Size
  reserve_lt : n.distributor.repairReserve < uint256Size

section Wired

variable {sites : Sites} {n n' : Network} {msg : Msg} {logs : List NetworkLog}

theorem deployV2_wired {slashing : Address} (h : Network.deployV2 sites msg slashing = .ok n) :
    Wired sites n := by
  simp only [Network.deployV2, System.setPaymentDistributor, bind_eq_ok, require_eq_ok, pure_eq_ok,
    Prod.exists, Prod.mk.injEq, exists_const] at h
  obtain ⟨system, l, ⟨-, -, -, -, rfl, -⟩, _, _, -, _, _, -, _, _, -, _, _, -, rfl⟩ := h
  have hpos : 0 < uint256Size := by decide
  exact ⟨rfl, hpos, hpos⟩

/-- No call of the distributor changes which contracts know each other. -/
theorem distributorStep_wired {c : PaymentDistributor.Call} (hw : Wired sites n)
    (h : n.distributorStep sites msg c = .ok (n', logs)) : Wired sites n' := by
  cases c with
  | distributeCapacityRewards provider pledgeId =>
    simp only [Network.distributorStep, Network.distributeCapacityRewards, bind_eq_ok, pure_eq_ok,
      Prod.exists, Prod.mk.injEq] at h
    obtain ⟨_, -, _, -, _, -, _, -, _, -, _, _, -, _, -, _, -, rfl, -⟩ := h
    exact ⟨hw.wired, hw.fees_lt, hw.reserve_lt⟩
  | distributeUsageRewards dealId =>
    simp only [Network.distributorStep, Network.distributeUsageRewards, bind_eq_ok,
      checkedAdd_eq_ok, pure_eq_ok, Prod.exists, Prod.mk.injEq] at h
    obtain ⟨_, -, _, -, _, -, split, -, _, -, _, ⟨hfees, rfl⟩, _, ⟨hreserve, rfl⟩, d, _, hloop,
      rfl, -⟩ := h
    obtain ⟨hf, hr⟩ := PaymentDistributor.creditActive_frame hloop
    exact ⟨hw.wired, hf ▸ hfees, hr ▸ hreserve⟩
  | payProofBonus provider =>
    simp only [Network.distributorStep, Network.payProofBonus, bind_eq_ok, pure_eq_ok, Prod.exists,
      Prod.mk.injEq] at h
    obtain ⟨_, -, _, -, _, -, _, -, _, _, -, rfl, -⟩ := h
    exact ⟨hw.wired, hw.fees_lt, hw.reserve_lt⟩
  | withdrawEarnings =>
    simp only [Network.distributorStep, Network.withdrawEarnings, bind_eq_ok, pure_eq_ok,
      Prod.exists, Prod.mk.injEq] at h
    obtain ⟨_, -, _, -, _, -, _, _, -, rfl, -⟩ := h
    exact ⟨hw.wired, hw.fees_lt, hw.reserve_lt⟩
  | withdrawProtocolFees recipient =>
    simp only [Network.distributorStep, Network.withdrawProtocolFees, bind_eq_ok, pure_eq_ok,
      Prod.exists, Prod.mk.injEq] at h
    obtain ⟨_, -, _, -, _, _, -, rfl, -⟩ := h
    exact ⟨hw.wired, Nat.zero_lt_of_lt hw.fees_lt, hw.reserve_lt⟩
  | useRepairReserve newProvider amount =>
    simp only [Network.distributorStep, Network.useRepairReserve, bind_eq_ok, pure_eq_ok,
      Prod.mk.injEq] at h
    obtain ⟨_, -, _, -, _, -, rfl, -⟩ := h
    exact ⟨hw.wired, hw.fees_lt, Nat.lt_of_le_of_lt (Nat.sub_le _ _) hw.reserve_lt⟩
  | updateRates _ _ _ =>
    simp only [Network.distributorStep, Network.updateRates, bind_eq_ok, pure_eq_ok,
      Prod.mk.injEq] at h
    obtain ⟨_, -, rfl, -⟩ := h
    exact ⟨hw.wired, hw.fees_lt, hw.reserve_lt⟩
  | transferOwnership _ | renounceOwnership =>
    simp only [Network.distributorStep, bind_eq_ok, pure_eq_ok, Prod.mk.injEq] at h
    obtain ⟨_, -, rfl, -⟩ := h
    exact ⟨hw.wired, hw.fees_lt, hw.reserve_lt⟩

/-- Nor does any other call. -/
theorem step_wired {a : NetworkAction sites} (hw : Wired sites n)
    (h : n.step sites a = .ok (n', logs)) : Wired sites n' := by
  cases networkStep_of_ok h with
  | market call done =>
    have hset : n.market.paymentDistributor ≠ 0 := by
      rw [hw.wired]
      exact sites.distributor_ne_zero
    refine ⟨?_, hw.fees_lt, hw.reserve_lt⟩
    rw [← hw.wired]
    exact effect_distributor (marketStep_effect a.sender_ne_marketplace done).1 hset
  | token call done | registry call done | pledge call done => exact ⟨hw.wired, hw.fees_lt, hw.reserve_lt⟩
  | distributor call done => exact distributorStep_wired hw done

theorem wired_run {slashing : Address} (h : Network.deployV2 sites msg slashing = .ok n)
    (as : List (NetworkAction sites)) : Wired sites (run (Network.step sites) n as) :=
  run_invariant (C := fun _ _ => True) (deployV2_wired h) (fun _ _ _ _ hw _ hs => step_wired hw hs) as
    (meets_true n as)

end Wired

/-! ## What completed deals pay -/

section Pays

variable {sites : Sites} {n n' : Network} {msg : Msg} {logs : List NetworkLog}

/-- The owner's call goes through, and credits the deal's share to exactly those of its providers
that held a shard in `deal`, the deal as it was before its completion. -/
def PaysHolders (sites : Sites) (deal : Deal) (n : Network) (timestamp dealId : Nat) : Prop :=
  ∃ n' logs,
    n.distributeUsageRewards sites ⟨n.distributor.owner, timestamp⟩ dealId = .ok (n', logs) ∧
    ∀ p, n'.distributor.earnings p =
      if p ∈ deal.holders deal.providers then
        { n.distributor.earnings p with
          usageRewards := (n.distributor.earnings p).usageRewards + providerPool deal.totalCost / 15
          totalEarned := (n.distributor.earnings p).totalEarned + providerPool deal.totalCost / 15 }
      else n.distributor.earnings p

/-- What the distributor finds after a completion: every listed shard out of service, and the
payment in its balance. -/
structure CompletedFrom (sites : Sites) (n : Network) (deal : Deal) (dealId : Nat) (n' : Network) :
    Prop where
  distributor : n'.distributor = n.distributor
  completed : (n'.market.deals dealId).status = .Completed
  shards : (n'.market.deals dealId).activeShards =
    deal.activeShards - (deal.holders deal.providers).card
  providers : (n'.market.deals dealId).providers = deal.providers
  cleared : ∀ p ∈ deal.providers, ((n'.market.deals dealId).shardAllocations p).active = false
  totalCost : (n'.market.deals dealId).totalCost = deal.totalCost
  balance : n'.token.balanceOf sites.distributor = n.token.balanceOf sites.distributor +
    (deal.escrowedAmount - protocolFee deal.totalCost n.market.protocolFeeBasisPoints)

/-- What a completion that goes through leaves to the distributor. -/
theorem completedFrom_of_step {a : NetworkAction sites} {dealId : Nat} (hw : Wired sites n)
    (hcall : a.call = .base (.market (.completeDeal dealId)))
    (h : n.step sites a = .ok (n', logs)) :
    CompletedFrom sites n (n.market.deals dealId) dealId n' := by
  unfold Network.step at h
  rw [hcall] at h
  simp only [bind_eq_ok, pure_eq_ok, Prod.exists, Prod.mk.injEq] at h
  obtain ⟨s, l, hstep, rfl, -⟩ := h
  obtain ⟨he, -⟩ := marketStep_effect a.sender_ne_marketplace hstep
  cases he with
  | idle noDeal => cases noDeal
  | completed deal_eq _ _ _ _ wrote _ _ released =>
    subst deal_eq
    have hset : n.market.paymentDistributor ≠ 0 := by
      rw [hw.wired]
      exact sites.distributor_ne_zero
    rw [completionPayout, if_pos hset, hw.wired] at released
    refine ⟨rfl, ?_, ?_, ?_, ?_, ?_, released sites.distributor_ne_marketplace⟩
    · show (s.market.deals dealId).status = .Completed
      rw [wrote.deal_self]
    · show (s.market.deals dealId).activeShards = _
      rw [wrote.deal_self]
      rfl
    · show (s.market.deals dealId).providers = _
      rw [wrote.deal_self]
      rfl
    · intro p hp
      show ((s.market.deals dealId).shardAllocations p).active = false
      rw [wrote.deal_self]
      simp [Deal.withDropped, Deal.withShards, Deal.cleared, hp]
    · show (s.market.deals dealId).totalCost = _
      rw [wrote.deal_self]
      rfl

/-- After a completion nobody is credited, so the distributor does its work only where there is
nothing to do. -/
theorem pays_iff_of_completed {deal : Deal} {dealId timestamp : Nat} (hw : Wired sites n)
    (hc : CompletedFrom sites n deal dealId n')
    (hk : MIN_PROVIDERS ≤ (deal.holders deal.providers).card) :
    PaysHolders sites deal n' timestamp dealId ↔
      (deal.holders deal.providers).card + 10 ≤ deal.activeShards ∧ deal.totalCost < 15 ∧
        deal.totalCost ≤ n.token.balanceOf sites.distributor +
          (deal.escrowedAmount - protocolFee deal.totalCost n.market.protocolFeeBasisPoints) := by
  rw [← hc.balance]
  have hinactive : ∀ p ∈ (n'.market.deals dealId).providers,
      ((n'.market.deals dealId).shardAllocations p).active = false := by
    rw [hc.providers]
    exact hc.cleared
  constructor
  · rintro ⟨n₂, logs, hok, hpaid⟩
    simp only [Network.distributeUsageRewards, bind_eq_ok, require_eq_ok, checkedAdd_eq_ok,
      pure_eq_ok, Prod.exists, Prod.mk.injEq, exists_const] at hok
    obtain ⟨_, -, -, hshards, split, hsplit, hbalance, _, ⟨-, rfl⟩, _, ⟨-, rfl⟩, d, _, hloop, rfl,
      -⟩ := hok
    -- the loop finds no shard in service
    rw [PaymentDistributor.creditActive_of_inactive _ _ _ hinactive] at hloop
    obtain ⟨rfl, -⟩ := Prod.mk.inj (Except.ok.inj hloop)
    -- one of the holders shows that the share is nothing
    obtain ⟨p, hp⟩ : (deal.holders deal.providers).Nonempty :=
      Finset.card_pos.mp (Nat.lt_of_lt_of_le (by decide) hk)
    have hshare : providerPool deal.totalCost / 15 = 0 := by
      have hcredited := congrArg ProviderEarnings.usageRewards (hpaid p)
      rw [if_pos hp] at hcredited
      dsimp only at hcredited
      omega
    have hlt := (share_eq_zero_iff _).mp hshare
    rw [usageSplit_ok hsplit, hc.totalCost] at hbalance
    refine ⟨?_, hlt, ?_⟩
    · rw [hc.shards] at hshards
      omega
    · unfold providerPool PROTOCOL_FEE_RATE RESERVE_RATE at hbalance
      omega
  · rintro ⟨hshards, hlt, hbalance⟩
    have hshare := (share_eq_zero_iff _).mpr hlt
    have hfees : n'.distributor.protocolFeeCollected + 0 < uint256Size := by
      rw [hc.distributor]
      exact hw.fees_lt
    have hreserve : n'.distributor.repairReserve + 0 < uint256Size := by
      rw [hc.distributor]
      exact hw.reserve_lt
    refine ⟨{ n' with distributor := n'.distributor },
      [.distributor (.ProtocolFeeCollected 0), .distributor (.RepairFunded 0)], ?_, ?_⟩
    · simp only [Network.distributeUsageRewards, bind_eq_ok, require_eq_ok, onlyOwner_eq_ok,
        checkedAdd_eq_ok, pure_eq_ok, exists_const, hc.totalCost, usageSplit_of_lt hlt]
      refine ⟨trivial, hc.completed, ?_, _, rfl, hbalance, _, ⟨hfees, rfl⟩, _, ⟨hreserve, rfl⟩, _,
        PaymentDistributor.creditActive_of_inactive _ _ _ hinactive, rfl⟩
      rw [hc.shards]
      omega
    · intro p
      rw [hshare]
      split <;> rfl

/-- **Usage rewards, exactly.** In every state the deployment can reach, and for every completion with
at least ten holders, the owner's next `distributeUsageRewards` pays the holders if and only if the
deal's counter is at least ten above its holders, the deal costs less than fifteen units, and the
distributor's balance covers its cost. -/
theorem paysHolders_iff {n₀ : Network} {slashing : Address}
    (h : Network.deployV2 sites msg slashing = .ok n₀) (as : List (NetworkAction sites))
    {a : NetworkAction sites} {dealId : Nat} {r : Network × List NetworkLog}
    (hcall : a.call = .base (.market (.completeDeal dealId)))
    (hok : Network.step sites (run (Network.step sites) n₀ as) a = .ok r) (timestamp : Nat)
    {deal : Deal} (hdeal : deal = (run (Network.step sites) n₀ as).market.deals dealId)
    (hk : MIN_PROVIDERS ≤ (deal.holders deal.providers).card) :
    PaysHolders sites deal r.1 timestamp dealId ↔
      (deal.holders deal.providers).card + 10 ≤ deal.activeShards ∧ deal.totalCost < 15 ∧
        deal.totalCost ≤
          (run (Network.step sites) n₀ as).token.balanceOf sites.distributor +
            (deal.escrowedAmount - protocolFee deal.totalCost
              (run (Network.step sites) n₀ as).market.protocolFeeBasisPoints) := by
  subst hdeal
  have hw := wired_run h as
  exact pays_iff_of_completed hw (completedFrom_of_step hw hcall hok) hk

end Pays

/-! ### In the small network -/

namespace SmallNetwork

/-- An empty file costs nothing, and ten repairs that name a stranger as the old provider raise the
counter to 25 while 15 providers hold shards. -/
def inflated : List (NetworkAction sites) :=
  created { SmallMarket.params with fileSizeGB := 0 } ++
    (List.finRange 10).map fun _ =>
      account 0 0 (.base (.market (.repairShard 0 50 (SmallMarket.provider 0).addr "QmShard")))

/-- What the call leaves, for a run from the deployment. -/
def outcome (as : List (NetworkAction sites)) : Tx (Network × List NetworkLog) :=
  Network.step sites (run (Network.step sites) deployed as) completion

theorem inflated_completes : revertOf (outcome inflated) = none := by decide +kernel

theorem created_completes : revertOf (outcome (created SmallMarket.params)) = none := by
  decide +kernel

/-- The deal before its completion. -/
def dealAfter (as : List (NetworkAction sites)) : Deal :=
  (run (Network.step sites) deployed as).market.deals 0

end SmallNetwork

section Concrete

open SmallNetwork

theorem paysHolders_inflated :
    PaysHolders sites (dealAfter inflated) (resultOf (outcome inflated) inflated_completes).1
      (30 * DAY) 0 :=
  (paysHolders_iff deployV2_eq inflated rfl (eq_resultOf inflated_completes) (30 * DAY) rfl
    (by decide +kernel)).mpr (by decide +kernel)

/-- An ordinary deal: all fifteen providers hold their shards when it is completed, and the
distributor refuses to pay them. -/
theorem completed_not_paysHolders :
    (dealAfter (created SmallMarket.params)).activeShards = 15 ∧
      ((dealAfter (created SmallMarket.params)).holders
        (dealAfter (created SmallMarket.params)).providers).card = 15 ∧
      revertOf (Network.distributeUsageRewards sites
        (resultOf (outcome (created SmallMarket.params)) created_completes).1 ⟨1, 30 * DAY⟩ 0) =
          some (.reason "Too many failures") ∧
      ¬ PaysHolders sites (dealAfter (created SmallMarket.params))
        (resultOf (outcome (created SmallMarket.params)) created_completes).1 (30 * DAY) 0 := by
  have hrevert : revertOf (Network.distributeUsageRewards sites
      (resultOf (outcome (created SmallMarket.params)) created_completes).1
      ⟨(resultOf (outcome (created SmallMarket.params)) created_completes).1.distributor.owner,
        30 * DAY⟩ 0) = some (.reason "Too many failures") := by decide +kernel
  refine ⟨by decide +kernel, by decide +kernel, by decide +kernel, ?_⟩
  rintro ⟨n', logs, hok, -⟩
  rw [hok] at hrevert
  cases hrevert

end Concrete

end Kyneto
