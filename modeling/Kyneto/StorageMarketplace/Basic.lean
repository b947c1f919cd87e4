import Kyneto.Evm.Run
import Kyneto.StorageToken
import Kyneto.ProviderRegistry

/-!
# `StorageMarketplace`: state and operations

Deals between clients and providers, as the contract stores and changes them. A file is erasure
coded into 15 shards, of which any 10 suffice; a deal keeps its providers in an array, their shards
in a mapping, and the number of active shards in a counter.

The contract calls the token and the registry, so an operation acts on the three together
(`System`) and returns the logs of all of them. `this` is the marketplace's own address. The
reentrancy guard is not modelled: neither callee calls back.
-/

namespace Kyneto

open Evm

def MAX_FEE_BASIS_POINTS : Nat := 1000
def MIN_PRICE_USD : Nat := 5000
def SHARDS_PER_FILE : Nat := 15
def MIN_PROVIDERS : Nat := 10

/-- Seconds in a day. -/
def DAY : Nat := 86400

/-! ## State -/

/-- The first constructor is the zero value, so a deal nobody created reads as `Active`. -/
inductive DealStatus where
  | Active | Completed | Failed | Cancelled | InGracePeriod
  deriving DecidableEq, Repr

/-- The statuses in which a deal can still be cancelled, renewed or repaired. -/
def DealStatus.isOpen : DealStatus → Bool
  | .Active | .InGracePeriod => true
  | .Completed | .Failed | .Cancelled => false

structure ShardAllocation where
  shardIndex : Nat := 0
  shardCID : String := ""
  sizeGB : Nat := 0
  active : Bool := false
  deriving DecidableEq, Repr

structure Deal where
  client : Address := 0
  fileCID : String := ""
  fileSizeGB : Nat := 0
  duration : Nat := 0
  pricePerGBMonth : Nat := 0
  totalCost : Nat := 0
  startTime : Nat := 0
  endTime : Nat := 0
  providers : List Address := []
  shardAllocations : Address → ShardAllocation := fun _ => {}
  activeShards : Nat := 0
  status : DealStatus := .Active
  escrowedAmount : Nat := 0
  alertDays : Nat := 0

structure Retrieval where
  dealId : Nat := 0
  client : Address := 0
  provider : Address := 0
  amount : Nat := 0
  completed : Bool := false
  deriving DecidableEq, Repr

structure DealParams where
  fileCID : String
  fileSizeGB : Nat
  durationDays : Nat
  pricePerGBMonthUSD : Nat
  selectedProviders : List Address
  shardCIDs : List String
  shardSizes : List Nat
  alertDays : Nat

/-- The three arrays side by side: a provider, its shard's CID and its shard's size. -/
def DealParams.shards (params : DealParams) : List (Address × String × Nat) :=
  params.selectedProviders.zip (params.shardCIDs.zip params.shardSizes)

structure StorageMarketplace where
  owner : Address
  treasury : Address
  protocolFeeBasisPoints : Nat := 300
  kynPriceUSD : Nat := 100000
  totalFeesCollected : Nat := 0
  paymentDistributor : Address := 0
  deals : Nat → Deal := fun _ => {}
  dealCount : Nat := 0
  providerDeals : Address → List Nat := fun _ => []
  retrievals : Nat → Retrieval := fun _ => {}
  retrievalCount : Nat := 0

/-- The marketplace with the two contracts it calls. -/
structure System where
  token : StorageToken
  registry : ProviderRegistry
  market : StorageMarketplace

inductive MarketLog where
  | DealCreated (dealId : Nat) (client : Address) (fileSizeGB totalCost : Nat)
  | ShardAssigned (dealId : Nat) (provider : Address) (shardIndex : Nat) (shardCID : String)
  | DealCompleted (dealId : Nat)
  | DealRenewed (dealId newEndTime totalCost : Nat)
  | DealFailed (dealId : Nat) (reason : String)
  | ShardLost (dealId : Nat) (provider : Address) (shardIndex : Nat)
  | ShardRepaired (dealId : Nat) (newProvider : Address) (shardIndex : Nat)
  | DealCancelled (dealId : Nat) (client : Address)
  | ProtocolFeeUpdated (newFee : Nat)
  | TreasuryUpdated (newTreasury : Address)
  | KynPriceUpdated (newPrice : Nat)
  | FeesWithdrawn (dst : Address) (amount : Nat)
  | PaymentDistributorUpdated (distributor : Address)
  | RetrievalInitiated (retrievalId dealId : Nat) (client provider : Address) (amount : Nat)
  | RetrievalClaimed (retrievalId : Nat) (provider : Address)
  deriving DecidableEq, Repr

/-- A log of one of the three contracts. -/
inductive Log where
  | token (l : TokenLog)
  | registry (l : RegistryLog)
  | market (l : MarketLog)
  deriving DecidableEq, Repr

namespace StorageMarketplace

def deploy (msg : Msg) (treasury : Address) : StorageMarketplace where
  owner := msg.sender
  treasury := treasury

/-- Write one deal. -/
def setDeal (m : StorageMarketplace) (dealId : Nat) (deal : Deal) : StorageMarketplace :=
  { m with deals := Function.update m.deals dealId deal }

def setRetrieval (m : StorageMarketplace) (id : Nat) (r : Retrieval) : StorageMarketplace :=
  { m with retrievals := Function.update m.retrievals id r }

end StorageMarketplace

/-! ## Prices

Creation and renewal compute the same three numbers: the payment for the providers, by started
months, the protocol fee on top of it, and their sum, which the client pays. -/

/-- What the providers are paid for `days` days. -/
def providerPayment (fileSizeGB pricePerGBMonth days : Nat) : Nat :=
  fileSizeGB * pricePerGBMonth * ((days + 29) / 30)

/-- The protocol fee on `amount`, rounded down. -/
def protocolFee (amount feeBasisPoints : Nat) : Nat := amount * feeBasisPoints / 10000

structure Charge where
  payment : Nat
  fee : Nat
  deriving DecidableEq, Repr

def Charge.total (c : Charge) : Nat := c.payment + c.fee

def charge (fileSizeGB pricePerGBMonth days feeBasisPoints : Nat) : Tx Charge := do
  let rounded ← checkedAdd days 29
  let perMonth ← checkedMul fileSizeGB pricePerGBMonth
  let payment ← checkedMul perMonth (rounded / 30)
  let scaled ← checkedMul payment feeBasisPoints
  let fee := scaled / 10000
  let _ ← checkedAdd payment fee
  return ⟨payment, fee⟩

/-! ## Shards -/

namespace Deal

/-- Take a provider's shard out of service: clear the flag, lower the counter. -/
def dropShard (deal : Deal) (provider : Address) : Tx Deal := do
  let alloc := deal.shardAllocations provider
  let activeShards ← checkedSub deal.activeShards 1
  return { deal with
    shardAllocations := Function.update deal.shardAllocations provider { alloc with active := false }
    activeShards }

/-- The loop of `cancelDeal`: drop every shard that is still active. -/
def dropShards (deal : Deal) : List Address → Tx Deal
  | [] => .ok deal
  | provider :: rest =>
    if (deal.shardAllocations provider).active then do
      let deal ← deal.dropShard provider
      deal.dropShards rest
    else deal.dropShards rest

/-- The fields `createDeal` writes into the next slot. The array and the mapping are not among
them: what the slot held there stays. -/
def fill (slot : Deal) (msg : Msg) (params : DealParams) (pricePerGBMonth totalCost endTime : Nat) :
    Deal :=
  { slot with
    client := msg.sender
    fileCID := params.fileCID
    fileSizeGB := params.fileSizeGB
    duration := params.durationDays
    pricePerGBMonth
    totalCost
    startTime := msg.timestamp
    endTime
    status := .Active
    escrowedAmount := totalCost
    activeShards := SHARDS_PER_FILE
    alertDays := params.alertDays }

/-- The assignment loop of `createDeal`, from shard index `i` on. -/
def assignShards (deal : Deal) (i : Nat) : List (Address × String × Nat) → Deal
  | [] => deal
  | (provider, shardCID, sizeGB) :: rest =>
    let alloc : ShardAllocation := { shardIndex := i, shardCID, sizeGB, active := true }
    let deal := { deal with
      providers := deal.providers ++ [provider]
      shardAllocations := Function.update deal.shardAllocations provider alloc }
    deal.assignShards (i + 1) rest

end Deal

/-- The first occurrence of `old` becomes `new`, as in the loop of `repairShard`. -/
def replaceFirst (old new : Address) : List Address → List Address
  | [] => []
  | p :: rest => if p = old then new :: rest else p :: replaceFirst old new rest

/-- Overwrite the first occurrence with the last entry, then pop the last entry. -/
def removeProviderDeal (dealId : Nat) (list : List Nat) : List Nat :=
  if dealId ∈ list then (list.set (list.idxOf dealId) (list.getLastD 0)).dropLast else list

/-- The provider checks of `createDeal`; `earlier` holds the providers already looked at. -/
def checkProviders (registry : ProviderRegistry) (earlier : List Address) :
    List Address → Tx Unit
  | [] => .ok ()
  | provider :: rest => do
    require (provider ≠ 0) "Invalid provider"
    require (registry.isProviderActive provider = true) "Provider not active"
    require (provider ∉ earlier) "Duplicate provider"
    checkProviders registry (earlier ++ [provider]) rest

/-- `providerDeals[p].push(dealId)` for each provider in turn. -/
def pushProviderDeals (dealId : Nat) (providerDeals : Address → List Nat) :
    List Address → (Address → List Nat)
  | [] => providerDeals
  | p :: rest =>
    pushProviderDeals dealId (Function.update providerDeals p (providerDeals p ++ [dealId])) rest

/-- `repairShard` files the deal under its new provider, then takes it from the old one. -/
def repairedProviderDeals (providerDeals : Address → List Nat) (dealId : Nat)
    (oldProvider newProvider : Address) : Address → List Nat :=
  let pushed := Function.update providerDeals newProvider (providerDeals newProvider ++ [dealId])
  Function.update pushed oldProvider (removeProviderDeal dealId (pushed oldProvider))

/-- The `ShardAssigned` logs of the assignment loop. -/
def shardAssignedLogs (dealId i : Nat) : List (Address × String × Nat) → List Log
  | [] => []
  | (provider, shardCID, _) :: rest =>
    .market (.ShardAssigned dealId provider i shardCID) :: shardAssignedLogs dealId (i + 1) rest

/-! ## Operations -/

namespace System

variable (this : Address)

def createDeal (s : System) (msg : Msg) (params : DealParams) : Tx (System × List Log) := do
  require (params.selectedProviders.length = SHARDS_PER_FILE) "Must have 15 providers"
  require (params.shardCIDs.length = SHARDS_PER_FILE) "Must have 15 shard CIDs"
  require (params.shardSizes.length = SHARDS_PER_FILE) "Must have 15 shard sizes"
  require (MIN_PRICE_USD ≤ params.pricePerGBMonthUSD) "Price too low"
  -- convert the price from US dollars to KYN
  let scaled ← checkedMul params.pricePerGBMonthUSD (10 ^ 18)
  let pricePerGBMonth ← checkedDiv scaled s.market.kynPriceUSD
  checkProviders s.registry [] params.selectedProviders
  let cost ← charge params.fileSizeGB pricePerGBMonth params.durationDays
    s.market.protocolFeeBasisPoints
  let (token, paid) ← s.token.transferFrom this msg.sender this cost.total
  -- the fee is counted here, and stays in the escrow as well
  let totalFeesCollected ← checkedAdd s.market.totalFeesCollected cost.fee
  let dealId := s.market.dealCount
  let dealCount ← checkedAdd dealId 1
  let seconds ← checkedMul params.durationDays DAY
  let endTime ← checkedAdd msg.timestamp seconds
  let deal := (s.market.deals dealId).fill msg params pricePerGBMonth cost.total endTime
  let shards := params.shards
  let market := { s.market.setDeal dealId (deal.assignShards 0 shards) with
    totalFeesCollected
    dealCount
    providerDeals := pushProviderDeals dealId s.market.providerDeals params.selectedProviders }
  return ({ s with token, market },
    paid.map .token ++ shardAssignedLogs dealId 0 shards ++
      [.market (.DealCreated dealId msg.sender params.fileSizeGB cost.total)])

/-- The loop of `completeDeal`: report and drop every shard that is still active. -/
def completeShards (timestamp : Nat) (registry : ProviderRegistry) (deal : Deal) :
    List Address → Tx (ProviderRegistry × Deal × List Log)
  | [] => .ok (registry, deal, [])
  | provider :: rest =>
    if (deal.shardAllocations provider).active then do
      let (registry, logs) ← registry.recordDealCompleted ⟨this, timestamp⟩ provider
      let deal ← deal.dropShard provider
      let (registry, deal, more) ← completeShards timestamp registry deal rest
      return (registry, deal, logs.map .registry ++ more)
    else completeShards timestamp registry deal rest

def completeDeal (s : System) (msg : Msg) (dealId : Nat) : Tx (System × List Log) := do
  let deal := s.market.deals dealId
  require (deal.status = .Active) "Deal not active"
  require (deal.endTime ≤ msg.timestamp) "Deal not expired"
  require (MIN_PROVIDERS ≤ deal.activeShards) "Too many shard failures"
  let deal := { deal with status := .Completed }
  let (registry, deal, logs) ← completeShards this msg.timestamp s.registry deal deal.providers
  -- the fee is taken on `totalCost`, which includes the fee charged at creation
  let scaled ← checkedMul deal.totalCost s.market.protocolFeeBasisPoints
  let payment ← checkedSub deal.escrowedAmount (scaled / 10000)
  let deal := { deal with escrowedAmount := 0 }
  let market := s.market.setDeal dealId deal
  if 0 < payment ∧ s.market.paymentDistributor ≠ 0 then
    let (token, paid) ← s.token.transfer this s.market.paymentDistributor payment
    return ({ token, registry, market },
      logs ++ paid.map .token ++ [.market (.DealCompleted dealId)])
  else
    return ({ s with registry, market }, logs ++ [.market (.DealCompleted dealId)])

/-- The pro-rata refund of `cancelDeal`; nothing once the deal has run out. -/
def refundOf (deal : Deal) (timestamp totalDuration : Nat) : Tx Nat :=
  let elapsed := if deal.startTime < timestamp then timestamp - deal.startTime else 0
  if elapsed < totalDuration ∧ 0 < deal.escrowedAmount then do
    let remaining ← checkedSub totalDuration elapsed
    let scaled ← checkedMul deal.escrowedAmount remaining
    checkedDiv scaled totalDuration
  else .ok 0

def cancelDeal (s : System) (msg : Msg) (dealId : Nat) : Tx (System × List Log) := do
  let deal := s.market.deals dealId
  require (deal.status.isOpen = true) "Deal not active"
  require (deal.client = msg.sender) "Not your deal"
  let deal := { deal with status := .Cancelled }
  let deal ← deal.dropShards deal.providers
  let totalDuration ← checkedSub deal.endTime deal.startTime
  let refund ← refundOf deal msg.timestamp totalDuration
  if 0 < refund then
    -- what is not refunded stays in the closed deal
    let escrowedAmount ← checkedSub deal.escrowedAmount refund
    let deal := { deal with escrowedAmount }
    let (token, paid) ← s.token.transfer this deal.client refund
    return ({ s with token, market := s.market.setDeal dealId deal },
      paid.map .token ++ [.market (.DealCancelled dealId deal.client)])
  else
    return ({ s with market := s.market.setDeal dealId deal },
      [.market (.DealCancelled dealId deal.client)])

def renewDeal (s : System) (msg : Msg) (dealId additionalDays : Nat) :
    Tx (System × List Log) := do
  let deal := s.market.deals dealId
  require (deal.status.isOpen = true) "Deal not renewable"
  require (deal.client = msg.sender) "Not your deal"
  let cost ← charge deal.fileSizeGB deal.pricePerGBMonth additionalDays
    s.market.protocolFeeBasisPoints
  let (token, paid) ← s.token.transferFrom this msg.sender this cost.total
  let totalFeesCollected ← checkedAdd s.market.totalFeesCollected cost.fee
  let seconds ← checkedMul additionalDays DAY
  let endTime ← checkedAdd deal.endTime seconds
  let duration ← checkedAdd deal.duration additionalDays
  let escrowedAmount ← checkedAdd deal.escrowedAmount cost.total
  let deal := { deal with endTime, duration, escrowedAmount, status := .Active }
  return ({ s with token, market := { s.market.setDeal dealId deal with totalFeesCollected } },
    paid.map .token ++ [.market (.DealRenewed dealId endTime cost.total)])

/-- The end of `reportLostShard`, once fewer than ten shards are left. -/
def failDeal (s : System) (msg : Msg) (dealId : Nat) (provider : Address) (deal : Deal) :
    Tx (System × List Log) := do
  let deal := { deal with status := .Failed }
  if 0 < deal.escrowedAmount then
    let refunded := { deal with escrowedAmount := 0 }
    let (token, paid) ← s.token.transfer this deal.client deal.escrowedAmount
    let (registry, logs) ← s.registry.recordDealFailed ⟨this, msg.timestamp⟩ provider
    return ({ token, registry, market := s.market.setDeal dealId refunded },
      paid.map .token ++ [.market (.DealFailed dealId "Too many shard failures")] ++
        logs.map .registry)
  else
    let (registry, logs) ← s.registry.recordDealFailed ⟨this, msg.timestamp⟩ provider
    return ({ s with registry, market := s.market.setDeal dealId deal },
      [.market (.DealFailed dealId "Too many shard failures")] ++ logs.map .registry)

def reportLostShard (s : System) (msg : Msg) (dealId : Nat) (provider : Address) :
    Tx (System × List Log) := do
  onlyOwner s.market.owner msg
  let deal := s.market.deals dealId
  require (deal.status.isOpen = true) "Deal not active"
  require ((deal.shardAllocations provider).active = true) "Shard already inactive"
  let deal ← deal.dropShard provider
  let lost := Log.market (.ShardLost dealId provider (deal.shardAllocations provider).shardIndex)
  if deal.activeShards < MIN_PROVIDERS then
    let (s, logs) ← s.failDeal this msg dealId provider deal
    return (s, lost :: logs)
  else
    return ({ s with market := s.market.setDeal dealId deal }, [lost])

def repairShard (s : System) (msg : Msg) (dealId : Nat) (oldProvider newProvider : Address)
    (newShardCID : String) : Tx (System × List Log) := do
  onlyOwner s.market.owner msg
  let deal := s.market.deals dealId
  require (deal.status.isOpen = true) "Deal not active"
  -- also true of an address that never had a shard of the deal
  require ((deal.shardAllocations oldProvider).active = false) "Old shard still active"
  require (s.registry.isProviderActive newProvider = true) "New provider not active"
  let shardIndex := (deal.shardAllocations oldProvider).shardIndex
  let sizeGB := (deal.shardAllocations oldProvider).sizeGB
  let cleared := Function.update deal.shardAllocations oldProvider {}
  let alloc : ShardAllocation := { shardIndex, shardCID := newShardCID, sizeGB, active := true }
  let activeShards ← checkedAdd deal.activeShards 1
  let deal := { deal with
    shardAllocations := Function.update cleared newProvider alloc
    providers := replaceFirst oldProvider newProvider deal.providers
    activeShards }
  let providerDeals :=
    repairedProviderDeals s.market.providerDeals dealId oldProvider newProvider
  return ({ s with market := { s.market.setDeal dealId deal with providerDeals } },
    [.market (.ShardRepaired dealId newProvider shardIndex)])

def initiateRetrieval (s : System) (msg : Msg) (dealId : Nat) (provider : Address)
    (amount : Nat) : Tx (System × List Log) := do
  -- the zero status is `Active`, so any id that has no deal passes
  require ((s.market.deals dealId).status = .Active) "Deal not active"
  require (0 < amount) "Amount must be > 0"
  let (token, paid) ← s.token.transferFrom this msg.sender this amount
  let retrievalId := s.market.retrievalCount
  let retrievalCount ← checkedAdd retrievalId 1
  let retrieval : Retrieval :=
    { dealId, client := msg.sender, provider, amount, completed := false }
  return ({ s with token, market := { s.market.setRetrieval retrievalId retrieval with
      retrievalCount } },
    paid.map .token ++
      [.market (.RetrievalInitiated retrievalId dealId msg.sender provider amount)])

def claimRetrievalPayment (s : System) (msg : Msg) (retrievalId : Nat) :
    Tx (System × List Log) := do
  let retrieval := s.market.retrievals retrievalId
  require (retrieval.completed = false) "Already claimed"
  require (msg.sender = retrieval.provider) "Not the provider"
  let market := s.market.setRetrieval retrievalId { retrieval with completed := true }
  let (token, paid) ← s.token.transfer this retrieval.provider retrieval.amount
  return ({ s with token, market },
    paid.map .token ++ [.market (.RetrievalClaimed retrievalId msg.sender)])

def setProtocolFee (s : System) (msg : Msg) (feeBasisPoints : Nat) : Tx (System × List Log) := do
  onlyOwner s.market.owner msg
  require (feeBasisPoints ≤ MAX_FEE_BASIS_POINTS) "Fee too high"
  return ({ s with market := { s.market with protocolFeeBasisPoints := feeBasisPoints } },
    [.market (.ProtocolFeeUpdated feeBasisPoints)])

def setTreasury (s : System) (msg : Msg) (treasury : Address) : Tx (System × List Log) := do
  onlyOwner s.market.owner msg
  require (treasury ≠ 0) "Invalid address"
  return ({ s with market := { s.market with treasury } }, [.market (.TreasuryUpdated treasury)])

def updateKynPrice (s : System) (msg : Msg) (priceUSD : Nat) : Tx (System × List Log) := do
  onlyOwner s.market.owner msg
  require (0 < priceUSD) "Invalid price"
  return ({ s with market := { s.market with kynPriceUSD := priceUSD } },
    [.market (.KynPriceUpdated priceUSD)])

def setPaymentDistributor (s : System) (msg : Msg) (distributor : Address) :
    Tx (System × List Log) := do
  onlyOwner s.market.owner msg
  require (s.market.paymentDistributor = 0) "Already set"
  require (distributor ≠ 0) "Invalid address"
  return ({ s with market := { s.market with paymentDistributor := distributor } },
    [.market (.PaymentDistributorUpdated distributor)])

def withdrawFees (s : System) (msg : Msg) : Tx (System × List Log) := do
  onlyOwner s.market.owner msg
  let amount := s.market.totalFeesCollected
  require (0 < amount) "No fees to withdraw"
  let (token, paid) ← s.token.transfer this s.market.treasury amount
  return ({ s with token, market := { s.market with totalFeesCollected := 0 } },
    paid.map .token ++ [.market (.FeesWithdrawn s.market.treasury amount)])

end System

/-! ## The system as a state machine -/

inductive MarketCall where
  | createDeal (params : DealParams)
  | completeDeal (dealId : Nat)
  | cancelDeal (dealId : Nat)
  | renewDeal (dealId additionalDays : Nat)
  | reportLostShard (dealId : Nat) (provider : Address)
  | repairShard (dealId : Nat) (oldProvider newProvider : Address) (newShardCID : String)
  | initiateRetrieval (dealId : Nat) (provider : Address) (amount : Nat)
  | claimRetrievalPayment (retrievalId : Nat)
  | setProtocolFee (feeBasisPoints : Nat)
  | setTreasury (treasury : Address)
  | updateKynPrice (priceUSD : Nat)
  | setPaymentDistributor (distributor : Address)
  | withdrawFees
  | transferOwnership (newOwner : Address)
  | renounceOwnership

/-- A call of the marketplace, or of one of the contracts it depends on. -/
inductive Call where
  | market (c : MarketCall)
  | token (c : StorageToken.Call)
  | registry (c : ProviderRegistry.Call)

/-- A transaction from outside the marketplace. Nobody sends from the zero address, and the
marketplace sends no transactions: its own calls are part of its operations. The token is used as a
standard ERC-20 token, so no privileged burn is aimed at the marketplace's balance. -/
structure Action (this : Address) where
  msg : Msg
  call : Call
  sender_ne_zero : msg.sender ≠ 0
  sender_ne_this : msg.sender ≠ this
  standard : ∀ c, call = .token c → ¬ c.burnsFrom this

namespace System

def marketStep (this : Address) (s : System) (msg : Msg) : MarketCall → Tx (System × List Log)
  | .createDeal params => s.createDeal this msg params
  | .completeDeal dealId => s.completeDeal this msg dealId
  | .cancelDeal dealId => s.cancelDeal this msg dealId
  | .renewDeal dealId additionalDays => s.renewDeal this msg dealId additionalDays
  | .reportLostShard dealId provider => s.reportLostShard this msg dealId provider
  | .repairShard dealId oldProvider newProvider newShardCID =>
    s.repairShard msg dealId oldProvider newProvider newShardCID
  | .initiateRetrieval dealId provider amount => s.initiateRetrieval this msg dealId provider amount
  | .claimRetrievalPayment retrievalId => s.claimRetrievalPayment this msg retrievalId
  | .setProtocolFee feeBasisPoints => s.setProtocolFee msg feeBasisPoints
  | .setTreasury treasury => s.setTreasury msg treasury
  | .updateKynPrice priceUSD => s.updateKynPrice msg priceUSD
  | .setPaymentDistributor distributor => s.setPaymentDistributor msg distributor
  | .withdrawFees => s.withdrawFees this msg
  | .transferOwnership newOwner => do
    let owner ← Evm.transferOwnership s.market.owner msg newOwner
    return ({ s with market := { s.market with owner } }, [])
  | .renounceOwnership => do
    let owner ← Evm.renounceOwnership s.market.owner msg
    return ({ s with market := { s.market with owner } }, [])

def step (this : Address) (s : System) (a : Action this) : Tx (System × List Log) :=
  match a.call with
  | .market c => s.marketStep this a.msg c
  | .token c => do
    let (token, logs) ← s.token.step a.msg c
    return ({ s with token }, logs.map .token)
  | .registry c => do
    let (registry, logs) ← s.registry.step a.msg c
    return ({ s with registry }, logs.map .registry)

/-- The marketplace has approved nobody to move its tokens. -/
def NoApproval (this : Address) (s : System) : Prop :=
  ∀ spender, s.token.allowance this spender = 0

/-- The marketplace has just been deployed at `this`: its storage is fresh and it has approved
nobody. The token and the registry may have a history of their own. -/
structure Deployed (this : Address) (s : System) : Prop where
  ne_zero : this ≠ 0
  fresh : ∃ msg treasury, s.market = .deploy msg treasury
  noApproval : s.NoApproval this

end System

/-! ## A small market

Fifteen providers and one client, for the concrete runs that show what can happen. -/

/-- An account that can send transactions to the marketplace. -/
structure Account (this : Address) where
  addr : Address
  ne_zero : addr ≠ 0
  ne_this : addr ≠ this

namespace Account

variable {this : Address}

/-- A call of the marketplace, sent by the account. -/
def calls (a : Account this) (timestamp : Nat) (c : MarketCall) : Action this where
  msg := ⟨a.addr, timestamp⟩
  call := .market c
  sender_ne_zero := a.ne_zero
  sender_ne_this := a.ne_this
  standard := by intro c h; cases h

def callsToken (a : Account this) (timestamp : Nat) (c : StorageToken.Call)
    (h : ¬ c.burnsFrom this) : Action this where
  msg := ⟨a.addr, timestamp⟩
  call := .token c
  sender_ne_zero := a.ne_zero
  sender_ne_this := a.ne_this
  standard := by intro c h; cases h; assumption

def callsRegistry (a : Account this) (timestamp : Nat) (c : ProviderRegistry.Call) :
    Action this where
  msg := ⟨a.addr, timestamp⟩
  call := .registry c
  sender_ne_zero := a.ne_zero
  sender_ne_this := a.ne_this
  standard := by intro c h; cases h

end Account

namespace SmallMarket

def this : Address := 100
def treasury : Address := 3
def owner : Account this := ⟨1, firstAccount_ne_zero, by decide⟩
def client : Account this := ⟨2, by decide, by decide⟩
def spare : Account this := ⟨50, by decide, by decide⟩

instance providers_neZero : NeZero 15 := ⟨by decide⟩

def provider (i : Fin 15) : Account this :=
  ⟨BitVec.ofNat 160 (10 + i), by revert i; decide, by revert i; decide⟩

/-- The three contracts, deployed by the owner at time 0. -/
def deployed : System where
  token := .deploy ⟨owner.addr, 0⟩
  registry := .deploy ⟨owner.addr, 0⟩
  market := .deploy ⟨owner.addr, 0⟩ treasury

theorem deployed_deployed : deployed.Deployed this where
  ne_zero := by decide
  fresh := ⟨_, _, rfl⟩
  noApproval := fun _ => rfl

/-- The client is funded and approves the marketplace, the marketplace may report to the registry,
and the providers register. -/
def setup : List (Action this) :=
  [owner.callsToken 0 (.transfer client.addr (10000 * 10 ^ 18)) id,
    client.callsToken 0 (.approve this (10000 * 10 ^ 18)) id,
    owner.callsRegistry 0 (.authorizeRecordKeeper this),
    spare.callsRegistry 0 (.registerProvider "spare" "ep" "na" 5000)] ++
  (List.finRange 15).map fun i =>
    (provider i).callsRegistry 0 (.registerProvider "peer" "ep" "na" 5000)

/-- 10 GB for 30 days at one cent per GB and month: one KYN, plus the fee. -/
def params : DealParams where
  fileCID := "QmTestFile"
  fileSizeGB := 10
  durationDays := 30
  pricePerGBMonthUSD := 10000
  selectedProviders := (List.finRange 15).map fun i => (provider i).addr
  shardCIDs := (List.finRange 15).map fun _ => "QmShard"
  shardSizes := (List.finRange 15).map fun _ => 1
  alertDays := 3

/-- The state after `setup` and some further calls. -/
def after (as : List (Action this)) : System := run (System.step this) deployed (setup ++ as)

end SmallMarket

end Kyneto
