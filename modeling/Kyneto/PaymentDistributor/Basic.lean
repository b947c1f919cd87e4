import Kyneto.StorageMarketplace.Effect
import Kyneto.CapacityPledge

/-!
# `PaymentDistributor`: state and operations

The contract completed deals pay into. It credits providers with capacity rewards and proof bonuses,
which it mints, and with usage rewards, which it takes from the tokens the marketplace sent it.
Credits are only counted; a provider withdraws them later.

The distributor reads the marketplace, the pledges and the registry and moves tokens, so its
operations act on all of them together (`Network`). `deployV2` is the state in which the deployment
script leaves the network, and `Network.step` what can happen to it from then on.
-/

namespace Kyneto

open Evm

def PROTOCOL_FEE_RATE : Nat := 300
def RESERVE_RATE : Nat := 500

structure ProviderEarnings where
  capacityRewards : Nat := 0
  usageRewards : Nat := 0
  proofBonuses : Nat := 0
  totalEarned : Nat := 0
  totalWithdrawn : Nat := 0
  lastClaimTimestamp : Nat := 0
  deriving DecidableEq, Repr

structure PaymentDistributor where
  owner : Address
  capacityRatePerGBMonth : Nat := 10 ^ 15
  usageRatePerGBMonth : Nat := 3 * 10 ^ 15
  postBonusPerSubmission : Nat := 10 ^ 17
  protocolFeeCollected : Nat := 0
  repairReserve : Nat := 0
  earnings : Address → ProviderEarnings := fun _ => {}
  lastDistributionTimestamp : Nat

inductive DistributorLog where
  | CapacityRewardPaid (provider : Address) (amount : Nat)
  | UsageRewardPaid (provider : Address) (dealId amount : Nat)
  | ProofBonusPaid (provider : Address) (amount : Nat)
  | RewardsWithdrawn (provider : Address) (amount : Nat)
  | ProtocolFeeCollected (amount : Nat)
  | RepairFunded (amount : Nat)
  deriving DecidableEq, Repr

/-- The contracts of the deployment that hold or move tokens of deals. -/
structure Network extends System where
  pledges : CapacityPledge
  distributor : PaymentDistributor

inductive NetworkLog where
  | base (l : Log)
  | pledge (l : PledgeLog)
  | distributor (l : DistributorLog)
  deriving DecidableEq, Repr

/-- Where the contracts are deployed. -/
structure Sites where
  marketplace : Address
  pledges : Address
  distributor : Address
  marketplace_ne_zero : marketplace ≠ 0
  distributor_ne_zero : distributor ≠ 0
  distributor_ne_marketplace : distributor ≠ marketplace
  distributor_ne_pledges : distributor ≠ pledges
  pledges_ne_marketplace : pledges ≠ marketplace

namespace PaymentDistributor

def deploy (msg : Msg) : PaymentDistributor where
  owner := msg.sender
  lastDistributionTimestamp := msg.timestamp

/-- Write one provider's earnings. -/
def setEarnings (d : PaymentDistributor) (provider : Address) (e : ProviderEarnings) :
    PaymentDistributor :=
  { d with earnings := Function.update d.earnings provider e }

end PaymentDistributor

/-- How `distributeUsageRewards` splits a deal's total cost. -/
structure UsageSplit where
  protocolFee : Nat
  reserve : Nat
  providerPool : Nat
  deriving DecidableEq, Repr

def usageSplit (totalCost : Nat) : Tx UsageSplit := do
  let feeScaled ← checkedMul totalCost PROTOCOL_FEE_RATE
  let reserveScaled ← checkedMul totalCost RESERVE_RATE
  let rest ← checkedSub totalCost (feeScaled / 10000)
  let providerPool ← checkedSub rest (reserveScaled / 10000)
  return ⟨feeScaled / 10000, reserveScaled / 10000, providerPool⟩

namespace ProviderEarnings

def creditUsage (e : ProviderEarnings) (amount : Nat) : Tx ProviderEarnings := do
  let usageRewards ← checkedAdd e.usageRewards amount
  let totalEarned ← checkedAdd e.totalEarned amount
  return { e with usageRewards, totalEarned }

end ProviderEarnings

namespace PaymentDistributor

/-- The loop of `distributeUsageRewards`: credit every listed provider whose shard is active. -/
def creditActive (d : PaymentDistributor) (dealId : Nat) (deal : Deal) (reward : Nat) :
    List Address → Tx (PaymentDistributor × List NetworkLog)
  | [] => .ok (d, [])
  | provider :: rest =>
    if (deal.shardAllocations provider).active then do
      let e ← (d.earnings provider).creditUsage reward
      let (d, logs) ← (d.setEarnings provider e).creditActive dealId deal reward rest
      return (d, .distributor (.UsageRewardPaid provider dealId reward) :: logs)
    else d.creditActive dealId deal reward rest

end PaymentDistributor

namespace Network

variable (sites : Sites)

def distributeCapacityRewards (n : Network) (msg : Msg) (provider : Address) (pledgeId : Nat) :
    Tx (Network × List NetworkLog) := do
  onlyOwner n.distributor.owner msg
  let pledge := n.pledges.pledges provider pledgeId
  require (pledge.active = true) "Pledge not active"
  require (n.registry.isProviderActive provider = true) "Provider not active"
  let baseReward ← checkedMul pledge.capacityGB n.distributor.capacityRatePerGBMonth
  let scaled ← checkedMul baseReward pledge.multiplier
  let reward := scaled / 100
  let (token, minted) ← n.token.mint ⟨sites.distributor, msg.timestamp⟩ sites.distributor reward
  let e := n.distributor.earnings provider
  let capacityRewards ← checkedAdd e.capacityRewards reward
  let totalEarned ← checkedAdd e.totalEarned reward
  return ({ n with
      token
      distributor := n.distributor.setEarnings provider { e with capacityRewards, totalEarned } },
    minted.map (.base ∘ .token) ++ [.distributor (.CapacityRewardPaid provider reward)])

def distributeUsageRewards (n : Network) (msg : Msg) (dealId : Nat) :
    Tx (Network × List NetworkLog) := do
  onlyOwner n.distributor.owner msg
  let deal := n.market.deals dealId
  require (deal.status = .Completed) "Deal not completed"
  require (10 ≤ deal.activeShards) "Too many failures"
  let split ← usageSplit deal.totalCost
  let perShardReward := split.providerPool / 15
  require (split.providerPool ≤ n.token.balanceOf sites.distributor)
    "Insufficient balance for usage rewards"
  let protocolFeeCollected ← checkedAdd n.distributor.protocolFeeCollected split.protocolFee
  let repairReserve ← checkedAdd n.distributor.repairReserve split.reserve
  let booked := { n.distributor with protocolFeeCollected, repairReserve }
  let (distributor, logs) ← booked.creditActive dealId deal perShardReward deal.providers
  return ({ n with distributor },
    .distributor (.ProtocolFeeCollected split.protocolFee) ::
      .distributor (.RepairFunded split.reserve) :: logs)

def payProofBonus (n : Network) (msg : Msg) (provider : Address) :
    Tx (Network × List NetworkLog) := do
  onlyOwner n.distributor.owner msg
  require (n.registry.isProviderActive provider = true) "Provider not active"
  let bonus := n.distributor.postBonusPerSubmission
  let e := n.distributor.earnings provider
  let proofBonuses ← checkedAdd e.proofBonuses bonus
  let totalEarned ← checkedAdd e.totalEarned bonus
  let (token, minted) ← n.token.mint ⟨sites.distributor, msg.timestamp⟩ sites.distributor bonus
  return ({ n with
      token
      distributor := n.distributor.setEarnings provider { e with proofBonuses, totalEarned } },
    minted.map (.base ∘ .token) ++ [.distributor (.ProofBonusPaid provider bonus)])

def withdrawEarnings (n : Network) (msg : Msg) : Tx (Network × List NetworkLog) := do
  let e := n.distributor.earnings msg.sender
  let available ← checkedSub e.totalEarned e.totalWithdrawn
  require (0 < available) "No earnings available"
  let totalWithdrawn ← checkedAdd e.totalWithdrawn available
  let e := { e with totalWithdrawn, lastClaimTimestamp := msg.timestamp }
  let (token, paid) ← n.token.transfer sites.distributor msg.sender available
  return ({ n with token, distributor := n.distributor.setEarnings msg.sender e },
    paid.map (.base ∘ .token) ++ [.distributor (.RewardsWithdrawn msg.sender available)])

def withdrawProtocolFees (n : Network) (msg : Msg) (recipient : Address) :
    Tx (Network × List NetworkLog) := do
  onlyOwner n.distributor.owner msg
  let amount := n.distributor.protocolFeeCollected
  require (0 < amount) "No fees to withdraw"
  let (token, paid) ← n.token.transfer sites.distributor recipient amount
  return ({ n with token, distributor := { n.distributor with protocolFeeCollected := 0 } },
    paid.map (.base ∘ .token))

def useRepairReserve (n : Network) (msg : Msg) (newProvider : Address) (amount : Nat) :
    Tx (Network × List NetworkLog) := do
  onlyOwner n.distributor.owner msg
  require (amount ≤ n.distributor.repairReserve) "Insufficient reserve"
  let e ← (n.distributor.earnings newProvider).creditUsage amount
  let repairReserve := n.distributor.repairReserve - amount
  return ({ n with distributor := { n.distributor.setEarnings newProvider e with repairReserve } },
    [])

def updateRates (n : Network) (msg : Msg) (newCapacityRate newUsageRate newPostBonus : Nat) :
    Tx (Network × List NetworkLog) := do
  onlyOwner n.distributor.owner msg
  return ({ n with distributor := { n.distributor with
      capacityRatePerGBMonth := newCapacityRate
      usageRatePerGBMonth := newUsageRate
      postBonusPerSubmission := newPostBonus } }, [])

end Network

/-! ## The network as a state machine -/

inductive PaymentDistributor.Call where
  | distributeCapacityRewards (provider : Address) (pledgeId : Nat)
  | distributeUsageRewards (dealId : Nat)
  | payProofBonus (provider : Address)
  | withdrawEarnings
  | withdrawProtocolFees (recipient : Address)
  | useRepairReserve (newProvider : Address) (amount : Nat)
  | updateRates (newCapacityRate newUsageRate newPostBonus : Nat)
  | transferOwnership (newOwner : Address)
  | renounceOwnership

inductive NetworkCall where
  | base (c : Call)
  | pledge (c : CapacityPledge.Call)
  | distributor (c : PaymentDistributor.Call)

/-- A transaction from outside the network: none of its contracts sends any. -/
structure NetworkAction (sites : Sites) where
  msg : Msg
  call : NetworkCall
  sender_ne_zero : msg.sender ≠ 0
  sender_ne_marketplace : msg.sender ≠ sites.marketplace
  sender_ne_pledges : msg.sender ≠ sites.pledges
  sender_ne_distributor : msg.sender ≠ sites.distributor

namespace Network

variable (sites : Sites)

def distributorStep (n : Network) (msg : Msg) :
    PaymentDistributor.Call → Tx (Network × List NetworkLog)
  | .distributeCapacityRewards provider pledgeId =>
    n.distributeCapacityRewards sites msg provider pledgeId
  | .distributeUsageRewards dealId => n.distributeUsageRewards sites msg dealId
  | .payProofBonus provider => n.payProofBonus sites msg provider
  | .withdrawEarnings => n.withdrawEarnings sites msg
  | .withdrawProtocolFees recipient => n.withdrawProtocolFees sites msg recipient
  | .useRepairReserve newProvider amount => n.useRepairReserve msg newProvider amount
  | .updateRates newCapacityRate newUsageRate newPostBonus =>
    n.updateRates msg newCapacityRate newUsageRate newPostBonus
  | .transferOwnership newOwner => do
    let owner ← Evm.transferOwnership n.distributor.owner msg newOwner
    return ({ n with distributor := { n.distributor with owner } }, [])
  | .renounceOwnership => do
    let owner ← Evm.renounceOwnership n.distributor.owner msg
    return ({ n with distributor := { n.distributor with owner } }, [])

def step (n : Network) (a : NetworkAction sites) : Tx (Network × List NetworkLog) :=
  match a.call with
  | .base (.market c) => do
    let (s, logs) ← n.toSystem.marketStep sites.marketplace a.msg c
    return ({ n with toSystem := s }, logs.map .base)
  | .base (.token c) => do
    let (token, logs) ← n.token.step a.msg c
    return ({ n with token }, logs.map (.base ∘ .token))
  | .base (.registry c) => do
    let (registry, logs) ← n.registry.step a.msg c
    return ({ n with registry }, logs.map (.base ∘ .registry))
  | .pledge c => do
    let (token, pledges, paid, logs) ← n.pledges.step sites.pledges n.token a.msg c
    return ({ n with token, pledges }, paid.map (.base ∘ .token) ++ logs.map .pledge)
  | .distributor c => n.distributorStep sites a.msg c

/-- What the deployment script does: it deploys the contracts, wires the distributor, and authorises
the distributor to mint and the marketplace and the slashing manager to report. -/
def deployV2 (msg : Msg) (slashing : Address) : Tx Network := do
  let system : System :=
    { token := .deploy msg, registry := .deploy msg, market := .deploy msg msg.sender }
  let (system, _) ← system.setPaymentDistributor msg sites.distributor
  let (token, _) ← system.token.authorizeMinter msg sites.distributor
  let (token, _) ← token.authorizeBurner msg slashing
  let (registry, _) ← system.registry.step msg (.authorizeRecordKeeper slashing)
  let (registry, _) ← registry.step msg (.authorizeRecordKeeper sites.marketplace)
  return { system with token, registry, pledges := .deploy msg, distributor := .deploy msg }

end Network

/-- What a successful step is: a call of one of the contracts, with its result. -/
inductive NetworkStep (sites : Sites) (n : Network) (a : NetworkAction sites) : Network → Prop
  | market {c s l} (call : a.call = .base (.market c))
      (done : n.toSystem.marketStep sites.marketplace a.msg c = .ok (s, l)) :
      NetworkStep sites n a { n with toSystem := s }
  | token {c token l} (call : a.call = .base (.token c)) (done : n.token.step a.msg c = .ok (token, l)) :
      NetworkStep sites n a { n with token := token }
  | registry {c registry l} (call : a.call = .base (.registry c))
      (done : n.registry.step a.msg c = .ok (registry, l)) :
      NetworkStep sites n a { n with registry := registry }
  | pledge {c token pledges paid l} (call : a.call = .pledge c)
      (done : n.pledges.step sites.pledges n.token a.msg c = .ok (token, pledges, paid, l)) :
      NetworkStep sites n a { n with token := token, pledges := pledges }
  | distributor {c n' logs} (call : a.call = .distributor c)
      (done : n.distributorStep sites a.msg c = .ok (n', logs)) : NetworkStep sites n a n'

/-- A call that goes through is one of the steps of the network, one constructor for each contract. -/
theorem networkStep_of_ok {sites : Sites} {n n' : Network} {a : NetworkAction sites} {logs : List NetworkLog}
    (h : n.step sites a = .ok (n', logs)) : NetworkStep sites n a n' := by
  cases hcall : a.call with
  | base c =>
    cases c with
    | market c =>
      simp only [Network.step, hcall, bind_eq_ok, pure_eq_ok, Prod.exists, Prod.mk.injEq] at h
      obtain ⟨s, l, hdone, rfl, -⟩ := h
      exact .market hcall hdone
    | token c =>
      simp only [Network.step, hcall, bind_eq_ok, pure_eq_ok, Prod.exists, Prod.mk.injEq] at h
      obtain ⟨token, l, hdone, rfl, -⟩ := h
      exact .token hcall hdone
    | registry c =>
      simp only [Network.step, hcall, bind_eq_ok, pure_eq_ok, Prod.exists, Prod.mk.injEq] at h
      obtain ⟨registry, l, hdone, rfl, -⟩ := h
      exact .registry hcall hdone
  | pledge c =>
    simp only [Network.step, hcall, bind_eq_ok, pure_eq_ok, Prod.exists, Prod.mk.injEq] at h
    obtain ⟨token, pledges, paid, l, hdone, rfl, -⟩ := h
    exact .pledge hcall hdone
  | distributor c =>
    simp only [Network.step, hcall] at h
    exact .distributor hcall h

/-! ## A small network -/

namespace SmallNetwork

def sites : Sites where
  marketplace := SmallMarket.this
  pledges := 101
  distributor := 102
  marketplace_ne_zero := by decide
  distributor_ne_zero := by decide
  distributor_ne_marketplace := by decide
  distributor_ne_pledges := by decide
  pledges_ne_marketplace := by decide

theorem account_ne_marketplace (i : Fin 99) : BitVec.ofNat 160 (i + 1) ≠ sites.marketplace := by
  revert i
  decide

theorem account_ne_pledges (i : Fin 99) : BitVec.ofNat 160 (i + 1) ≠ sites.pledges := by
  revert i
  decide

theorem account_ne_distributor (i : Fin 99) : BitVec.ofNat 160 (i + 1) ≠ sites.distributor := by
  revert i
  decide

/-- A call by the account with address `i + 1`; the contracts have the addresses from 100 on. -/
def account (i : Fin 99) (timestamp : Nat) (call : NetworkCall) : NetworkAction sites where
  msg := ⟨BitVec.ofNat 160 (i + 1), timestamp⟩
  call := call
  sender_ne_zero := account_ne_zero i
  sender_ne_marketplace := account_ne_marketplace i
  sender_ne_pledges := account_ne_pledges i
  sender_ne_distributor := account_ne_distributor i

/-- The deployment by account 1, at time 0, with a slashing manager at 103. -/
def deployed : Network :=
  resultOf (Network.deployV2 sites ⟨1, 0⟩ 103) (by decide)

theorem deployV2_eq : Network.deployV2 sites ⟨1, 0⟩ 103 = .ok deployed := eq_resultOf (by decide)

/-- Account 2 is funded and approves the marketplace, and the providers 10 to 24 register; then
account 2 creates a deal. -/
def created (params : DealParams) : List (NetworkAction sites) :=
  [account 0 0 (.base (.token (.transfer 2 (10000 * 10 ^ 18)))),
    account 1 0 (.base (.token (.approve SmallMarket.this (10000 * 10 ^ 18))))] ++
  ((List.finRange 15).map fun (i : Fin 15) =>
    account ⟨9 + i.val, by omega⟩ 0 (.base (.registry (.registerProvider "peer" "ep" "na" 5000)))) ++
  [account 1 0 (.base (.market (.createDeal params)))]

def completion : NetworkAction sites :=
  account 1 (30 * DAY) (.base (.market (.completeDeal 0)))

end SmallNetwork

end Kyneto
