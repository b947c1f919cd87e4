import Kyneto.StorageMarketplace.Basic

/-!
# What a call of the marketplace can do

`Effect` lists, once for all, what a successful call does: the guards it passed, the new market, the
change of the marketplace's balance and the tokens its logs say were sent and received.
`step_effect` proves that every successful call has one of these effects. The results about whole
runs start from here and never unfold an operation.

Only what the books of the marketplace need is kept: of the token its balance at `this`, of the
registry nothing.
-/

namespace Kyneto

open Evm

/-! ## Tokens sent and received, by the logs -/

namespace Log

def sent (a : Address) : Log → Nat
  | .token (.Transfer src _ value) => if src = a then value else 0
  | _ => 0

def received (a : Address) : Log → Nat
  | .token (.Transfer _ dst value) => if dst = a then value else 0
  | _ => 0

end Log

/-- The tokens `a` sent, summed over the `Transfer` logs. -/
def sentBy (a : Address) (logs : List Log) : Nat := (logs.map (Log.sent a)).sum

/-- The tokens `a` received, summed over the `Transfer` logs. -/
def receivedBy (a : Address) (logs : List Log) : Nat := (logs.map (Log.received a)).sum

section Flows

variable (a : Address)

@[simp] theorem sentBy_nil : sentBy a [] = 0 := rfl

@[simp] theorem receivedBy_nil : receivedBy a [] = 0 := rfl

@[simp] theorem sentBy_append (l₁ l₂ : List Log) :
    sentBy a (l₁ ++ l₂) = sentBy a l₁ + sentBy a l₂ := by
  simp [sentBy]

@[simp] theorem receivedBy_append (l₁ l₂ : List Log) :
    receivedBy a (l₁ ++ l₂) = receivedBy a l₁ + receivedBy a l₂ := by
  simp [receivedBy]

@[simp] theorem sentBy_market (l : MarketLog) (logs : List Log) :
    sentBy a (.market l :: logs) = sentBy a logs := by
  simp [sentBy, Log.sent]

@[simp] theorem receivedBy_market (l : MarketLog) (logs : List Log) :
    receivedBy a (.market l :: logs) = receivedBy a logs := by
  simp [receivedBy, Log.received]

@[simp] theorem sentBy_transfer (src dst : Address) (value : Nat) (logs : List Log) :
    sentBy a (.token (.Transfer src dst value) :: logs) =
      (if src = a then value else 0) + sentBy a logs := by
  simp [sentBy, Log.sent]

@[simp] theorem receivedBy_transfer (src dst : Address) (value : Nat) (logs : List Log) :
    receivedBy a (.token (.Transfer src dst value) :: logs) =
      (if dst = a then value else 0) + receivedBy a logs := by
  simp [receivedBy, Log.received]

@[simp] theorem sentBy_registry (logs : List RegistryLog) : sentBy a (logs.map .registry) = 0 := by
  induction logs with
  | nil => rfl
  | cons l logs ih => simpa [sentBy, Log.sent] using ih

@[simp] theorem sentBy_shardAssigned (dealId i : Nat) (shards : List (Address × String × Nat)) :
    sentBy a (shardAssignedLogs dealId i shards) = 0 := by
  induction shards generalizing i with
  | nil => rfl
  | cons shard shards ih => simp [shardAssignedLogs, ih]

@[simp] theorem receivedBy_shardAssigned (dealId i : Nat)
    (shards : List (Address × String × Nat)) :
    receivedBy a (shardAssignedLogs dealId i shards) = 0 := by
  induction shards generalizing i with
  | nil => rfl
  | cons shard shards ih => simp [shardAssignedLogs, ih]

end Flows

/-! ## Parts of the operations -/

/-- What creating or renewing for `days` days costs. -/
def Charge.of (fileSizeGB pricePerGBMonth days feeBasisPoints : Nat) : Charge where
  payment := providerPayment fileSizeGB pricePerGBMonth days
  fee := protocolFee (providerPayment fileSizeGB pricePerGBMonth days) feeBasisPoints

theorem charge_ok {fileSizeGB price days bps : Nat} {c : Charge}
    (h : charge fileSizeGB price days bps = .ok c) : c = Charge.of fileSizeGB price days bps := by
  simp only [charge, bind_eq_ok, checkedAdd_eq_ok, checkedMul_eq_ok, pure_eq_ok] at h
  obtain ⟨_, ⟨-, rfl⟩, _, ⟨-, rfl⟩, _, ⟨-, rfl⟩, _, ⟨-, rfl⟩, _, -, rfl⟩ := h
  rfl

theorem DealParams.shards_map_fst {params : DealParams}
    (hp : params.selectedProviders.length = SHARDS_PER_FILE)
    (hc : params.shardCIDs.length = SHARDS_PER_FILE)
    (hs : params.shardSizes.length = SHARDS_PER_FILE) :
    params.shards.map Prod.fst = params.selectedProviders := by
  unfold DealParams.shards
  apply List.map_fst_zip
  rw [List.length_zip, hp, hc, hs]
  exact Nat.le_of_eq (Nat.min_self _).symm

/-- The providers that pass the check are active, and different from one another. -/
theorem checkProviders_ok {registry : ProviderRegistry} {l earlier : List Address} {u : Unit}
    (h : checkProviders registry earlier l = .ok u) :
    (∀ p ∈ l, p ≠ 0 ∧ registry.isProviderActive p = true ∧ p ∉ earlier) ∧ l.Nodup := by
  induction l generalizing earlier with
  | nil => simp
  | cons provider rest ih =>
    simp only [checkProviders, bind_eq_ok, require_eq_ok, exists_const] at h
    obtain ⟨hzero, hactive, hnew, hrest⟩ := h
    obtain ⟨hall, hnodup⟩ := ih hrest
    refine ⟨?_, List.nodup_cons.mpr ⟨?_, hnodup⟩⟩
    · intro p hp
      rcases List.mem_cons.mp hp with rfl | hp
      · exact ⟨hzero, hactive, hnew⟩
      · obtain ⟨h₁, h₂, h₃⟩ := hall p hp
        exact ⟨h₁, h₂, fun he => h₃ (List.mem_append_left _ he)⟩
    · intro hp
      exact (hall provider hp).2.2 (by simp)

namespace Deal

/-- `deal` with other shards and another counter. -/
def withShards (deal : Deal) (allocs : Address → ShardAllocation) (n : Nat) : Deal :=
  { deal with shardAllocations := allocs, activeShards := n }

/-- The mapping after a provider's shard went out of service. -/
def without (deal : Deal) (provider : Address) : Address → ShardAllocation :=
  Function.update deal.shardAllocations provider
    { deal.shardAllocations provider with active := false }

theorem dropShard_eq_ok {deal deal' : Deal} {provider : Address} :
    deal.dropShard provider = .ok deal' ↔
      1 ≤ deal.activeShards ∧
        deal' = deal.withShards (deal.without provider) (deal.activeShards - 1) := by
  simp only [dropShard, bind_eq_ok, checkedSub_eq_ok, pure_eq_ok]
  constructor
  · rintro ⟨_, ⟨h, rfl⟩, rfl⟩
    exact ⟨h, rfl⟩
  · rintro ⟨h, rfl⟩
    exact ⟨_, ⟨h, rfl⟩, rfl⟩

/-- The mapping after the assignment loop of `createDeal`. -/
def assigned (allocs : Address → ShardAllocation) (i : Nat) :
    List (Address × String × Nat) → (Address → ShardAllocation)
  | [] => allocs
  | (provider, shardCID, sizeGB) :: rest =>
    let alloc : ShardAllocation := { shardIndex := i, shardCID, sizeGB, active := true }
    assigned (Function.update allocs provider alloc) (i + 1) rest

/-- The assignment loop appends the providers and writes their shards; it changes nothing else. -/
theorem assignShards_eq (deal : Deal) (i : Nat) (shards : List (Address × String × Nat)) :
    deal.assignShards i shards =
      { deal with
        providers := deal.providers ++ shards.map Prod.fst
        shardAllocations := assigned deal.shardAllocations i shards } := by
  induction shards generalizing deal i with
  | nil => simp [assignShards, assigned]
  | cons shard rest ih =>
    obtain ⟨provider, shardCID, sizeGB⟩ := shard
    rw [assignShards, ih]
    simp [assigned]

/-- Those of the listed providers that hold an active shard. -/
def holders (deal : Deal) (l : List Address) : Finset Address :=
  l.toFinset.filter fun p => (deal.shardAllocations p).active = true

/-- The mapping with the shards of all listed providers out of service. -/
def cleared (deal : Deal) (l : List Address) : Address → ShardAllocation := fun p =>
  if p ∈ l then { deal.shardAllocations p with active := false } else deal.shardAllocations p

theorem without_active (deal : Deal) (provider p : Address) :
    (deal.without provider p).active = true ↔
      p ≠ provider ∧ (deal.shardAllocations p).active = true := by
  by_cases hp : p = provider
  · subst hp
    simp [without]
  · simp [without, hp]

/-- Of the first provider's active shard, one holder less remains. -/
theorem holders_cons_of_active {deal : Deal} {provider : Address} {n : Nat} {rest : List Address}
    (h : (deal.shardAllocations provider).active = true) :
    (deal.holders (provider :: rest)).card =
      ((deal.withShards (deal.without provider) n).holders rest).card + 1 := by
  have herase : (deal.withShards (deal.without provider) n).holders rest =
      (deal.holders rest).erase provider := by
    ext p
    simp only [holders, withShards, Finset.mem_filter, Finset.mem_erase, without_active]
    tauto
  have hinsert : deal.holders (provider :: rest) =
      insert provider ((deal.holders rest).erase provider) := by
    ext p
    by_cases hp : p = provider
    · subst hp
      simp [holders, h]
    · simp [holders, hp]
  rw [herase, hinsert, Finset.card_insert_of_notMem (Finset.notMem_erase _ _)]

theorem cleared_cons_of_active {deal : Deal} {provider : Address} {n : Nat}
    {rest : List Address} :
    (deal.withShards (deal.without provider) n).cleared rest = deal.cleared (provider :: rest) := by
  funext p
  by_cases hp : p = provider
  · subst hp
    simp [cleared, withShards, without]
  · simp [cleared, withShards, without, hp]

/-- The deal after the shards of all listed providers were dropped: their flags are cleared, and
each holder counts once. -/
def withDropped (deal : Deal) (l : List Address) : Deal :=
  deal.withShards (deal.cleared l) (deal.activeShards - (deal.holders l).card)

/-- Dropping the shards of a list takes as many as the list has holders. -/
theorem dropShards_ok {l : List Address} {deal deal' : Deal} (h : deal.dropShards l = .ok deal') :
    (deal.holders l).card ≤ deal.activeShards ∧ deal' = deal.withDropped l := by
  unfold withDropped
  induction l generalizing deal with
  | nil =>
    obtain rfl := Except.ok.inj h
    have hcleared : deal.cleared [] = deal.shardAllocations := by
      funext p
      simp [cleared]
    exact ⟨Nat.zero_le _, by simp [holders, hcleared, withShards]⟩
  | cons provider rest ih =>
    unfold dropShards at h
    split at h
    · next hactive =>
      obtain ⟨d, hd, h⟩ := bind_eq_ok.mp h
      obtain ⟨hpos, rfl⟩ := dropShard_eq_ok.mp hd
      obtain ⟨hle, rfl⟩ := ih h
      have hcard := @holders_cons_of_active deal provider (deal.activeShards - 1) rest hactive
      have hle : ((deal.withShards (deal.without provider) (deal.activeShards - 1)).holders
          rest).card ≤ deal.activeShards - 1 := hle
      refine ⟨by omega, ?_⟩
      rw [cleared_cons_of_active, hcard]
      simp only [withShards]
      congr 1
      omega
    · next hactive =>
      obtain ⟨hle, rfl⟩ := ih h
      have hholders : deal.holders (provider :: rest) = deal.holders rest := by
        ext p
        by_cases hp : p = provider
        · subst hp
          simp [holders, hactive]
        · simp [holders, hp]
      have hcleared : deal.cleared (provider :: rest) = deal.cleared rest := by
        funext p
        by_cases hp : p = provider
        · subst hp
          have hfalse : (deal.shardAllocations p).active = false := by simpa using hactive
          simp [cleared, ← hfalse]
        · simp [cleared, hp]
      rw [hholders, hcleared]
      exact ⟨hle, rfl⟩

end Deal

/-- The loop of `completeDeal` drops shards as the one of `cancelDeal` does. -/
theorem completeShards_dropShards {this : Address} {timestamp : Nat} {l : List Address}
    {registry registry' : ProviderRegistry} {deal deal' : Deal} {logs : List Log}
    (h : System.completeShards this timestamp registry deal l = .ok (registry', deal', logs)) :
    deal.dropShards l = .ok deal' ∧ sentBy this logs = 0 := by
  induction l generalizing registry deal logs with
  | nil =>
    simp only [System.completeShards, Except.ok.injEq, Prod.mk.injEq] at h
    obtain ⟨-, rfl, rfl⟩ := h
    exact ⟨rfl, rfl⟩
  | cons provider rest ih =>
    unfold System.completeShards at h
    unfold Deal.dropShards
    split at h
    · next hactive =>
      simp only [bind_eq_ok, Prod.exists, pure_eq_ok, Prod.mk.injEq] at h
      obtain ⟨r, l, -, d, hd, r', d', more, hrest, rfl, rfl, rfl⟩ := h
      obtain ⟨hdrop, hsent⟩ := ih hrest
      rw [if_pos hactive]
      exact ⟨bind_eq_ok.mpr ⟨d, hd, hdrop⟩, by simp [hsent]⟩
    · next hactive =>
      rw [if_neg hactive]
      exact ih h

/-- The refund of `cancelDeal` as a number: the escrow by the time that is left. -/
def refundAmount (deal : Deal) (timestamp : Nat) : Nat :=
  if timestamp - deal.startTime < deal.endTime - deal.startTime then
    deal.escrowedAmount * (deal.endTime - deal.startTime - (timestamp - deal.startTime)) /
      (deal.endTime - deal.startTime)
  else 0

theorem refundAmount_le (deal : Deal) (timestamp : Nat) :
    refundAmount deal timestamp ≤ deal.escrowedAmount := by
  unfold refundAmount
  split
  · next h =>
    apply Nat.div_le_of_le_mul
    rw [Nat.mul_comm deal.escrowedAmount]
    exact Nat.mul_le_mul_right _ (Nat.sub_le _ _)
  · exact Nat.zero_le _

/-- The refund, in numbers. -/
theorem refundOf_ok {deal : Deal} {timestamp refund : Nat}
    (h : System.refundOf deal timestamp (deal.endTime - deal.startTime) = .ok refund) :
    refund = refundAmount deal timestamp := by
  have helapsed : (if deal.startTime < timestamp then timestamp - deal.startTime else 0) =
      timestamp - deal.startTime := by
    split <;> omega
  simp only [System.refundOf, helapsed] at h
  unfold refundAmount
  split at h
  · next hc =>
    simp only [bind_eq_ok, checkedSub_eq_ok, checkedMul_eq_ok, checkedDiv_eq_ok] at h
    obtain ⟨_, ⟨-, rfl⟩, _, ⟨-, rfl⟩, -, rfl⟩ := h
    rw [if_pos hc.1]
  · next hc =>
    cases h
    split
    · next hlt =>
      have hzero : deal.escrowedAmount = 0 := by
        by_contra hne
        exact hc ⟨hlt, Nat.pos_of_ne_zero hne⟩
      simp [hzero]
    · rfl

/-! ## Effects -/

/-- The deal a call is about. A `createDeal` is about the slot it is going to fill. -/
def Call.dealId (s : System) : Call → Option Nat
  | .market (.createDeal _) => some s.market.dealCount
  | .market (.completeDeal dealId) | .market (.cancelDeal dealId)
  | .market (.renewDeal dealId _) | .market (.reportLostShard dealId _)
  | .market (.repairShard dealId _ _ _) => some dealId
  | _ => none

/-- What a call charges its sender, from its arguments and the rates in force. -/
def charged (m : StorageMarketplace) : Call → Charge
  | .market (.createDeal params) =>
    Charge.of params.fileSizeGB (params.pricePerGBMonthUSD * 10 ^ 18 / m.kynPriceUSD)
      params.durationDays m.protocolFeeBasisPoints
  | .market (.renewDeal dealId additionalDays) =>
    Charge.of (m.deals dealId).fileSizeGB (m.deals dealId).pricePerGBMonth additionalDays
      m.protocolFeeBasisPoints
  | _ => ⟨0, 0⟩

/-- A call for no deal charges nothing. -/
theorem charged_of_noDeal {s : System} {call : Call} (h : call.dealId s = none) :
    charged s.market call = ⟨0, 0⟩ := by
  cases call with
  | token c => rfl
  | registry c => rfl
  | market c =>
    cases c with
    | createDeal params => cases h
    | renewDeal dealId days => cases h
    | _ => rfl

/-- The books are the same; the owner, the treasury and the rates may differ, and a distributor may
have been set. -/
structure SameBooks (m m' : StorageMarketplace) : Prop where
  deals : m'.deals = m.deals
  dealCount : m'.dealCount = m.dealCount
  totalFeesCollected : m'.totalFeesCollected = m.totalFeesCollected
  providerDeals : m'.providerDeals = m.providerDeals
  retrievals : m'.retrievals = m.retrievals
  retrievalCount : m'.retrievalCount = m.retrievalCount
  distributor : m.paymentDistributor ≠ 0 → m'.paymentDistributor = m.paymentDistributor

theorem SameBooks.refl (m : StorageMarketplace) : SameBooks m m :=
  ⟨rfl, rfl, rfl, rfl, rfl, rfl, fun _ => rfl⟩

/-- One deal was written, the retrievals were not touched, and the rest of the books became what is
given. -/
structure Wrote (m m' : StorageMarketplace) (id : Nat) (deal : Deal) (dealCount fees : Nat)
    (providerDeals : Address → List Nat) : Prop where
  deals : m'.deals = Function.update m.deals id deal
  dealCount : m'.dealCount = dealCount
  totalFeesCollected : m'.totalFeesCollected = fees
  providerDeals : m'.providerDeals = providerDeals
  retrievals : m'.retrievals = m.retrievals
  retrievalCount : m'.retrievalCount = m.retrievalCount
  distributor : m'.paymentDistributor = m.paymentDistributor

section Wrote

variable {m m' : StorageMarketplace} {id n fees : Nat} {deal : Deal} {pd : Address → List Nat}

theorem Wrote.deal_self (w : Wrote m m' id deal n fees pd) : m'.deals id = deal := by
  rw [w.deals, Function.update_self]

theorem Wrote.deal_of_ne (w : Wrote m m' id deal n fees pd) {i : Nat} (hi : i ≠ id) :
    m'.deals i = m.deals i := by
  rw [w.deals, Function.update_of_ne hi]

/-- What is true of all slots beyond the counter stays true of them, if the written deal is a
created one or has the property as well. -/
theorem Wrote.beyond {P : Deal → Prop} (w : Wrote m m' id deal n fees pd)
    (h : ∀ i, m.dealCount ≤ i → P (m.deals i)) (hn : m.dealCount ≤ n) (hd : n ≤ id → P deal) :
    ∀ i, m'.dealCount ≤ i → P (m'.deals i) := by
  intro i hi
  rw [w.dealCount] at hi
  by_cases hid : i = id
  · subst hid
    rw [w.deal_self]
    exact hd hi
  · rw [w.deal_of_ne hid]
    exact h i (hn.trans hi)

end Wrote

/-- One deal was written and nothing else. -/
abbrev WroteDeal (m m' : StorageMarketplace) (id : Nat) (deal : Deal) : Prop :=
  Wrote m m' id deal m.dealCount m.totalFeesCollected m.providerDeals

/-- The deal a `createDeal` leaves in its slot. -/
def createdDeal (m : StorageMarketplace) (msg : Msg) (params : DealParams)
    (price totalCost endTime : Nat) : Deal :=
  ((m.deals m.dealCount).fill msg params price totalCost endTime).assignShards 0 params.shards

/-- The deal a `repairShard` leaves. -/
def repairedDeal (deal : Deal) (oldProvider newProvider : Address) (newShardCID : String) : Deal :=
  { deal with
    shardAllocations :=
      Function.update (Function.update deal.shardAllocations oldProvider {}) newProvider
        { shardIndex := (deal.shardAllocations oldProvider).shardIndex
          shardCID := newShardCID
          sizeGB := (deal.shardAllocations oldProvider).sizeGB
          active := true }
    providers := replaceFirst oldProvider newProvider deal.providers
    activeShards := deal.activeShards + 1 }

/-- What `completeDeal` sends to the distributor: the escrow less the fee taken on `totalCost`, or
nothing while no distributor is set. -/
def completionPayout (m : StorageMarketplace) (deal : Deal) : Nat :=
  if m.paymentDistributor ≠ 0 then
    deal.escrowedAmount - protocolFee deal.totalCost m.protocolFeeBasisPoints
  else 0

theorem completionPayout_le (m : StorageMarketplace) (deal : Deal) :
    completionPayout m deal ≤ deal.escrowedAmount := by
  unfold completionPayout
  split
  · exact Nat.sub_le _ _
  · exact Nat.zero_le _

inductive Effect (this : Address) (s : System) (msg : Msg) : Call → System → List Log → Prop
  | idle {call s' logs} (noDeal : call.dealId s = none)
      (books : SameBooks s.market s'.market)
      (balance : s.token.balanceOf this ≤ s'.token.balanceOf this) :
      Effect this s msg call s' logs
  | created {params price cost endTime s' logs}
      (providers : params.selectedProviders.length = SHARDS_PER_FILE)
      (cids : params.shardCIDs.length = SHARDS_PER_FILE)
      (sizes : params.shardSizes.length = SHARDS_PER_FILE)
      (nodup : params.selectedProviders.Nodup)
      (price_eq : price = params.pricePerGBMonthUSD * 10 ^ 18 / s.market.kynPriceUSD)
      (cost_eq : cost = Charge.of params.fileSizeGB price params.durationDays
        s.market.protocolFeeBasisPoints)
      (endTime_eq : endTime = msg.timestamp + params.durationDays * DAY)
      (wrote : Wrote s.market s'.market s.market.dealCount
        (createdDeal s.market msg params price cost.total endTime)
        (s.market.dealCount + 1) (s.market.totalFeesCollected + cost.fee)
        (pushProviderDeals s.market.dealCount s.market.providerDeals params.selectedProviders))
      (balance : s'.token.balanceOf this = s.token.balanceOf this + cost.total)
      (sent : sentBy this logs = 0) (received : receivedBy this logs = cost.total) :
      Effect this s msg (.market (.createDeal params)) s' logs
  | renewed {dealId days cost deal s' logs} (deal_eq : deal = s.market.deals dealId)
      (isOpen : deal.status.isOpen = true) (client : deal.client = msg.sender)
      (cost_eq : cost = Charge.of deal.fileSizeGB deal.pricePerGBMonth days
        s.market.protocolFeeBasisPoints)
      (wrote : Wrote s.market s'.market dealId
        { deal with
          endTime := deal.endTime + days * DAY
          duration := deal.duration + days
          escrowedAmount := deal.escrowedAmount + cost.total
          status := .Active }
        s.market.dealCount (s.market.totalFeesCollected + cost.fee) s.market.providerDeals)
      (balance : s'.token.balanceOf this = s.token.balanceOf this + cost.total)
      (sent : sentBy this logs = 0) (received : receivedBy this logs = cost.total) :
      Effect this s msg (.market (.renewDeal dealId days)) s' logs
  | completed {dealId deal s' logs} (deal_eq : deal = s.market.deals dealId)
      (active : deal.status = .Active) (expired : deal.endTime ≤ msg.timestamp)
      (enough : MIN_PROVIDERS ≤ deal.activeShards)
      (fee_le : protocolFee deal.totalCost s.market.protocolFeeBasisPoints ≤ deal.escrowedAmount)
      (wrote : WroteDeal s.market s'.market dealId
        { deal.withDropped deal.providers with status := .Completed, escrowedAmount := 0 })
      (balance : s.token.balanceOf this ≤
        s'.token.balanceOf this + completionPayout s.market deal)
      (sent : sentBy this logs = completionPayout s.market deal)
      (released : s.market.paymentDistributor ≠ this →
        s'.token.balanceOf s.market.paymentDistributor =
          s.token.balanceOf s.market.paymentDistributor + completionPayout s.market deal) :
      Effect this s msg (.market (.completeDeal dealId)) s' logs
  | cancelled {dealId deal s' logs} (deal_eq : deal = s.market.deals dealId)
      (isOpen : deal.status.isOpen = true) (client : deal.client = msg.sender)
      (started : deal.startTime ≤ deal.endTime)
      (wrote : WroteDeal s.market s'.market dealId
        { deal.withDropped deal.providers with
          status := .Cancelled
          escrowedAmount := deal.escrowedAmount - refundAmount deal msg.timestamp })
      (balance : s.token.balanceOf this =
        s'.token.balanceOf this + refundAmount deal msg.timestamp)
      (sent : sentBy this logs = refundAmount deal msg.timestamp) :
      Effect this s msg (.market (.cancelDeal dealId)) s' logs
  | lost {dealId provider deal s' logs} (deal_eq : deal = s.market.deals dealId)
      (owner : msg.sender = s.market.owner) (isOpen : deal.status.isOpen = true)
      (shard : (deal.shardAllocations provider).active = true)
      (enough : MIN_PROVIDERS + 1 ≤ deal.activeShards)
      (wrote : WroteDeal s.market s'.market dealId
        (deal.withShards (deal.without provider) (deal.activeShards - 1)))
      (token : s'.token = s.token) (sent : sentBy this logs = 0) :
      Effect this s msg (.market (.reportLostShard dealId provider)) s' logs
  | failed {dealId provider deal s' logs} (deal_eq : deal = s.market.deals dealId)
      (owner : msg.sender = s.market.owner) (isOpen : deal.status.isOpen = true)
      (shard : (deal.shardAllocations provider).active = true)
      (pos : 1 ≤ deal.activeShards) (few : deal.activeShards ≤ MIN_PROVIDERS)
      (wrote : WroteDeal s.market s'.market dealId
        { deal.withShards (deal.without provider) (deal.activeShards - 1) with
          status := .Failed, escrowedAmount := 0 })
      (balance : s.token.balanceOf this ≤ s'.token.balanceOf this + deal.escrowedAmount)
      (sent : sentBy this logs = deal.escrowedAmount) :
      Effect this s msg (.market (.reportLostShard dealId provider)) s' logs
  | repaired {dealId oldProvider newProvider newShardCID deal s' logs}
      (deal_eq : deal = s.market.deals dealId)
      (owner : msg.sender = s.market.owner) (isOpen : deal.status.isOpen = true)
      (oldShard : (deal.shardAllocations oldProvider).active = false)
      (newActive : s.registry.isProviderActive newProvider = true)
      (wrote : Wrote s.market s'.market dealId
        (repairedDeal deal oldProvider newProvider newShardCID) s.market.dealCount
        s.market.totalFeesCollected
        (repairedProviderDeals s.market.providerDeals dealId oldProvider newProvider))
      (token : s'.token = s.token) (sent : sentBy this logs = 0) :
      Effect this s msg (.market (.repairShard dealId oldProvider newProvider newShardCID)) s' logs
  | retrieving {dealId provider amount s' logs}
      (active : (s.market.deals dealId).status = .Active) (pos : 0 < amount)
      (market : s'.market =
        { s.market.setRetrieval s.market.retrievalCount
            { dealId, client := msg.sender, provider, amount, completed := false } with
          retrievalCount := s.market.retrievalCount + 1 })
      (balance : s'.token.balanceOf this = s.token.balanceOf this + amount) :
      Effect this s msg (.market (.initiateRetrieval dealId provider amount)) s' logs
  | claimed {retrievalId s' logs}
      (pending : (s.market.retrievals retrievalId).completed = false)
      (provider : msg.sender = (s.market.retrievals retrievalId).provider)
      (market : s'.market = s.market.setRetrieval retrievalId
        { s.market.retrievals retrievalId with completed := true })
      (balance : s.token.balanceOf this =
        s'.token.balanceOf this + (s.market.retrievals retrievalId).amount) :
      Effect this s msg (.market (.claimRetrievalPayment retrievalId)) s' logs
  | withdrawn {s' logs} (owner : msg.sender = s.market.owner)
      (market : s'.market = { s.market with totalFeesCollected := 0 })
      (balance : s.token.balanceOf this ≤
        s'.token.balanceOf this + s.market.totalFeesCollected) :
      Effect this s msg (.market .withdrawFees) s' logs

/-! ## Every successful call has an effect -/

section Effects

variable {this : Address} {s s' : System} {msg : Msg} {logs : List Log}

/-- Being paid through `transferFrom`. -/
theorem pulled {token : StorageToken} {value : Nat} {paid : List TokenLog}
    (hne : msg.sender ≠ this)
    (h : s.token.transferFrom this msg.sender this value = .ok (token, paid)) :
    token.balanceOf this = s.token.balanceOf this + value ∧
      token.allowance this = s.token.allowance this ∧ paid = [.Transfer msg.sender this value] := by
  obtain ⟨-, -, hb, ha, rfl⟩ := StorageToken.transferFrom_ok h
  rw [hb]
  exact ⟨Erc20.balanceOf_move_dst _ _ hne, ha this hne.symm, rfl⟩

/-- Paying through `transfer`: no more than `value` leaves, and exactly `value` if someone else is
paid. -/
theorem pushed {token : StorageToken} {dst : Address} {value : Nat} {paid : List TokenLog}
    (h : s.token.transfer this dst value = .ok (token, paid)) :
    s.token.balanceOf this ≤ token.balanceOf this + value ∧
      (dst ≠ this → s.token.balanceOf this = token.balanceOf this + value ∧
        token.balanceOf dst = s.token.balanceOf dst + value) ∧
      token.allowance this = s.token.allowance this ∧ paid = [.Transfer this dst value] := by
  obtain ⟨-, -, hle, hout⟩ := StorageToken.transfer_eq_ok.mp h
  obtain ⟨rfl, rfl⟩ := Prod.mk.inj hout
  have hb := Erc20.balanceOf_move_src s.token.toErc20 dst hle
  refine ⟨?_, fun hne => ⟨?_, Erc20.balanceOf_move_dst _ _ hne.symm⟩, rfl, rfl⟩
  · rw [hb]
    split <;> omega
  · rw [hb, if_neg hne]
    omega

/-- What a new deal does; the allowance of the contract is used by nobody. -/
theorem createDeal_effect {params : DealParams} (hne : msg.sender ≠ this)
    (h : s.createDeal this msg params = .ok (s', logs)) :
    Effect this s msg (.market (.createDeal params)) s' logs ∧
      s'.token.allowance this = s.token.allowance this := by
  simp only [System.createDeal, bind_eq_ok, require_eq_ok, checkedAdd_eq_ok, checkedMul_eq_ok,
    checkedDiv_eq_ok, pure_eq_ok, Prod.exists, Prod.mk.injEq, exists_const] at h
  obtain ⟨hp, hc, hs, -, _, ⟨-, rfl⟩, _, ⟨-, rfl⟩, _, hcheck, cost, hcost, token, paid, htransfer,
    _, ⟨-, rfl⟩, _, ⟨-, rfl⟩, _, ⟨-, rfl⟩, _, ⟨-, rfl⟩, rfl, rfl⟩ := h
  obtain ⟨hb, ha, rfl⟩ := pulled hne htransfer
  refine ⟨?_, ha⟩
  exact .created hp hc hs (checkProviders_ok hcheck).2 rfl (charge_ok hcost) rfl
    ⟨rfl, rfl, rfl, rfl, rfl, rfl, rfl⟩ hb (by simp [hne]) (by simp)

/-- What a renewal does. -/
theorem renewDeal_effect {dealId days : Nat} (hne : msg.sender ≠ this)
    (h : s.renewDeal this msg dealId days = .ok (s', logs)) :
    Effect this s msg (.market (.renewDeal dealId days)) s' logs ∧
      s'.token.allowance this = s.token.allowance this := by
  simp only [System.renewDeal, bind_eq_ok, require_eq_ok, checkedAdd_eq_ok, checkedMul_eq_ok,
    pure_eq_ok, Prod.exists, Prod.mk.injEq, exists_const] at h
  obtain ⟨hopen, hclient, cost, hcost, token, paid, htransfer, _, ⟨-, rfl⟩, _, ⟨-, rfl⟩, _, ⟨-, rfl⟩,
    _, ⟨-, rfl⟩, _, ⟨-, rfl⟩, rfl, rfl⟩ := h
  obtain ⟨hb, ha, rfl⟩ := pulled hne htransfer
  refine ⟨?_, ha⟩
  exact .renewed rfl hopen hclient (charge_ok hcost) ⟨rfl, rfl, rfl, rfl, rfl, rfl, rfl⟩ hb (by simp [hne])
    (by simp)

/-- What a completion does. -/
theorem completeDeal_effect {dealId : Nat}
    (h : s.completeDeal this msg dealId = .ok (s', logs)) :
    Effect this s msg (.market (.completeDeal dealId)) s' logs ∧
      s'.token.allowance this = s.token.allowance this := by
  simp only [System.completeDeal, bind_eq_ok, require_eq_ok, checkedMul_eq_ok, checkedSub_eq_ok,
    Prod.exists, exists_const] at h
  obtain ⟨hactive, hexpired, henough, registry, deal, l, hloop, _, ⟨-, rfl⟩, _, ⟨hfee, rfl⟩, h⟩ := h
  obtain ⟨hdrop, hsent⟩ := completeShards_dropShards hloop
  obtain ⟨-, rfl⟩ := Deal.dropShards_ok hdrop
  split at h
  · next hpay =>
    simp only [bind_eq_ok, pure_eq_ok, Prod.exists, Prod.mk.injEq] at h
    obtain ⟨token, paid, htransfer, rfl, rfl⟩ := h
    obtain ⟨hb, hother, ha, rfl⟩ := pushed htransfer
    have hpayout : completionPayout s.market (s.market.deals dealId) =
        (s.market.deals dealId).escrowedAmount -
          protocolFee (s.market.deals dealId).totalCost s.market.protocolFeeBasisPoints := by
      rw [completionPayout, if_pos hpay.2]
    refine ⟨.completed rfl hactive hexpired henough hfee ⟨rfl, rfl, rfl, rfl, rfl, rfl, rfl⟩ ?_ ?_ ?_,
      ha⟩
    · rw [hpayout]
      exact hb
    · rw [hpayout]
      simp [hsent, protocolFee, Deal.withDropped, Deal.withShards]
    · rw [hpayout]
      exact fun hne => (hother hne).2
  · next hpay =>
    simp only [pure_eq_ok, Prod.mk.injEq] at h
    obtain ⟨rfl, rfl⟩ := h
    have hpayout : completionPayout s.market (s.market.deals dealId) = 0 := by
      unfold completionPayout
      split
      · next hd =>
        exact Nat.eq_zero_of_not_pos fun hlt => hpay ⟨hlt, hd⟩
      · rfl
    refine ⟨.completed rfl hactive hexpired henough hfee ⟨rfl, rfl, rfl, rfl, rfl, rfl, rfl⟩ ?_ ?_ ?_,
      rfl⟩
    · rw [hpayout]
      exact Nat.le_refl _
    · rw [hpayout]
      simp [hsent]
    · rw [hpayout]
      exact fun _ => rfl

/-- What a cancellation does. -/
theorem cancelDeal_effect {dealId : Nat} (hne : msg.sender ≠ this)
    (h : s.cancelDeal this msg dealId = .ok (s', logs)) :
    Effect this s msg (.market (.cancelDeal dealId)) s' logs ∧
      s'.token.allowance this = s.token.allowance this := by
  simp only [System.cancelDeal, bind_eq_ok, require_eq_ok, checkedSub_eq_ok, exists_const] at h
  obtain ⟨hopen, hclient, deal, hdrop, _, ⟨hstart, rfl⟩, refund, hrefund, h⟩ := h
  obtain ⟨-, rfl⟩ := Deal.dropShards_ok hdrop
  have hamount : refund = refundAmount (s.market.deals dealId) msg.timestamp := refundOf_ok hrefund
  subst hamount
  split at h
  · simp only [bind_eq_ok, checkedSub_eq_ok, pure_eq_ok, Prod.exists, Prod.mk.injEq] at h
    obtain ⟨_, ⟨-, rfl⟩, token, paid, htransfer, rfl, rfl⟩ := h
    obtain ⟨-, hb, ha, rfl⟩ := pushed htransfer
    have hother : (s.market.deals dealId).client ≠ this := by rw [hclient]; exact hne
    exact ⟨.cancelled rfl hopen hclient hstart ⟨rfl, rfl, rfl, rfl, rfl, rfl, rfl⟩ (hb hother).1
      (by simp), ha⟩
  · next hzero =>
    simp only [pure_eq_ok, Prod.mk.injEq] at h
    obtain ⟨rfl, rfl⟩ := h
    have hzero : refundAmount (s.market.deals dealId) msg.timestamp = 0 := by omega
    refine ⟨@Effect.cancelled this s msg dealId _ _ _ rfl hopen hclient hstart ?_ ?_ ?_,
      rfl⟩
    · rw [hzero]
      exact ⟨rfl, rfl, rfl, rfl, rfl, rfl, rfl⟩
    · rw [hzero]
      rfl
    · simp [hzero]

/-- What a lost shard does to a deal with too few left. -/
theorem failDeal_effect {dealId : Nat} {provider : Address} {deal : Deal} {lost : MarketLog}
    (hdeal : deal = s.market.deals dealId) (howner : msg.sender = s.market.owner)
    (hopen : deal.status.isOpen = true) (hshard : (deal.shardAllocations provider).active = true)
    (hpos : 1 ≤ deal.activeShards) (hfew : deal.activeShards ≤ MIN_PROVIDERS)
    (h : s.failDeal this msg dealId provider
      (deal.withShards (deal.without provider) (deal.activeShards - 1)) = .ok (s', logs)) :
    Effect this s msg (.market (.reportLostShard dealId provider)) s' (.market lost :: logs) ∧
      s'.token.allowance this = s.token.allowance this := by
  unfold System.failDeal at h
  dsimp only at h
  split at h
  · simp only [bind_eq_ok, pure_eq_ok, Prod.exists, Prod.mk.injEq] at h
    obtain ⟨token, paid, htransfer, registry, l, -, rfl, rfl⟩ := h
    obtain ⟨hb, -, ha, rfl⟩ := pushed htransfer
    refine ⟨?_, ha⟩
    exact .failed hdeal howner hopen hshard hpos hfew ⟨rfl, rfl, rfl, rfl, rfl, rfl, rfl⟩ hb
      (by simp [Deal.withShards])
  · next hzero =>
    simp only [bind_eq_ok, pure_eq_ok, Prod.exists, Prod.mk.injEq] at h
    obtain ⟨registry, l, -, rfl, rfl⟩ := h
    have hzero : deal.escrowedAmount = 0 := Nat.eq_zero_of_not_pos hzero
    refine ⟨.failed hdeal howner hopen hshard hpos hfew ?_ ?_ ?_, rfl⟩
    · refine ⟨?_, rfl, rfl, rfl, rfl, rfl, rfl⟩
      simp [StorageMarketplace.setDeal, Deal.withShards, hzero]
    · exact Nat.le_add_right _ _
    · simp [hzero]

/-- What the report of a lost shard does. -/
theorem reportLostShard_effect {dealId : Nat} {provider : Address}
    (h : s.reportLostShard this msg dealId provider = .ok (s', logs)) :
    Effect this s msg (.market (.reportLostShard dealId provider)) s' logs ∧
      s'.token.allowance this = s.token.allowance this := by
  simp only [System.reportLostShard, bind_eq_ok, onlyOwner_eq_ok, require_eq_ok,
    Deal.dropShard_eq_ok, exists_const] at h
  obtain ⟨howner, hopen, hshard, _, ⟨hpos, rfl⟩, h⟩ := h
  split at h
  · next hfew =>
    simp only [bind_eq_ok, pure_eq_ok, Prod.exists, Prod.mk.injEq] at h
    obtain ⟨s₁, l, hfail, rfl, rfl⟩ := h
    have hfew : (s.market.deals dealId).activeShards - 1 < MIN_PROVIDERS := hfew
    exact failDeal_effect rfl howner hopen hshard hpos (by omega) hfail
  · next hfew =>
    simp only [pure_eq_ok, Prod.mk.injEq] at h
    obtain ⟨rfl, rfl⟩ := h
    have hfew : ¬ (s.market.deals dealId).activeShards - 1 < MIN_PROVIDERS := hfew
    exact ⟨.lost rfl howner hopen hshard (by omega) ⟨rfl, rfl, rfl, rfl, rfl, rfl, rfl⟩ rfl (by simp), rfl⟩

theorem repairShard_effect {dealId : Nat} {oldProvider newProvider : Address} {cid : String}
    (h : s.repairShard msg dealId oldProvider newProvider cid = .ok (s', logs)) :
    Effect this s msg (.market (.repairShard dealId oldProvider newProvider cid)) s' logs ∧
      s'.token.allowance this = s.token.allowance this := by
  simp only [System.repairShard, bind_eq_ok, onlyOwner_eq_ok, require_eq_ok, checkedAdd_eq_ok,
    pure_eq_ok, Prod.mk.injEq, exists_const] at h
  obtain ⟨howner, hopen, hold, hnew, _, ⟨-, rfl⟩, rfl, rfl⟩ := h
  exact ⟨.repaired rfl howner hopen hold hnew ⟨rfl, rfl, rfl, rfl, rfl, rfl, rfl⟩ rfl (by simp), rfl⟩

theorem initiateRetrieval_effect {dealId amount : Nat} {provider : Address}
    (hne : msg.sender ≠ this)
    (h : s.initiateRetrieval this msg dealId provider amount = .ok (s', logs)) :
    Effect this s msg (.market (.initiateRetrieval dealId provider amount)) s' logs ∧
      s'.token.allowance this = s.token.allowance this := by
  simp only [System.initiateRetrieval, bind_eq_ok, require_eq_ok, checkedAdd_eq_ok, pure_eq_ok,
    Prod.exists, Prod.mk.injEq, exists_const] at h
  obtain ⟨hactive, hpos, token, paid, htransfer, _, ⟨-, rfl⟩, rfl, rfl⟩ := h
  obtain ⟨hb, ha, -⟩ := pulled hne htransfer
  exact ⟨.retrieving hactive hpos rfl hb, ha⟩

/-- What the payment for a retrieval does. -/
theorem claimRetrievalPayment_effect {retrievalId : Nat} (hne : msg.sender ≠ this)
    (h : s.claimRetrievalPayment this msg retrievalId = .ok (s', logs)) :
    Effect this s msg (.market (.claimRetrievalPayment retrievalId)) s' logs ∧
      s'.token.allowance this = s.token.allowance this := by
  simp only [System.claimRetrievalPayment, bind_eq_ok, require_eq_ok, pure_eq_ok, Prod.exists,
    Prod.mk.injEq, exists_const] at h
  obtain ⟨hpending, hprovider, token, paid, htransfer, rfl, rfl⟩ := h
  have hother : (s.market.retrievals retrievalId).provider ≠ this := by
    rw [← hprovider]
    exact hne
  obtain ⟨-, hb, ha, -⟩ := pushed htransfer
  exact ⟨.claimed hpending hprovider rfl (hb hother).1, ha⟩

theorem withdrawFees_effect (h : s.withdrawFees this msg = .ok (s', logs)) :
    Effect this s msg (.market .withdrawFees) s' logs ∧
      s'.token.allowance this = s.token.allowance this := by
  simp only [System.withdrawFees, bind_eq_ok, onlyOwner_eq_ok, require_eq_ok, pure_eq_ok,
    Prod.exists, Prod.mk.injEq, exists_const] at h
  obtain ⟨howner, -, token, paid, htransfer, rfl, rfl⟩ := h
  obtain ⟨hb, -, ha, -⟩ := pushed htransfer
  exact ⟨.withdrawn howner rfl hb, ha⟩

/-- What a call of the marketplace does, one case for each function. -/
theorem marketStep_effect {c : MarketCall} (hne : msg.sender ≠ this)
    (h : s.marketStep this msg c = .ok (s', logs)) :
    Effect this s msg (.market c) s' logs ∧ s'.token.allowance this = s.token.allowance this := by
  cases c with
  | createDeal params => exact createDeal_effect hne h
  | completeDeal dealId => exact completeDeal_effect h
  | cancelDeal dealId => exact cancelDeal_effect hne h
  | renewDeal dealId days => exact renewDeal_effect hne h
  | reportLostShard dealId provider => exact reportLostShard_effect h
  | repairShard dealId oldProvider newProvider cid => exact repairShard_effect h
  | initiateRetrieval dealId provider amount => exact initiateRetrieval_effect hne h
  | claimRetrievalPayment retrievalId => exact claimRetrievalPayment_effect hne h
  | withdrawFees => exact withdrawFees_effect h
  | setPaymentDistributor distributor =>
    simp only [System.marketStep, System.setPaymentDistributor, bind_eq_ok, require_eq_ok,
      pure_eq_ok, Prod.mk.injEq, exists_const] at h
    obtain ⟨-, -, hunset, -, rfl, -⟩ := h
    exact ⟨.idle rfl ⟨rfl, rfl, rfl, rfl, rfl, rfl, fun hset => absurd hunset hset⟩ (Nat.le_refl _),
      rfl⟩
  | setProtocolFee _ | setTreasury _ | updateKynPrice _ | transferOwnership _
  | renounceOwnership =>
    -- the other administrative calls write one field outside the books
    simp only [System.marketStep, System.setProtocolFee, System.setTreasury,
      System.updateKynPrice, bind_eq_ok, pure_eq_ok, Prod.mk.injEq] at h
    first
      | obtain ⟨_, -, rfl, -⟩ := h
      | obtain ⟨_, -, _, -, rfl, -⟩ := h
    exact ⟨.idle rfl ⟨rfl, rfl, rfl, rfl, rfl, rfl, fun _ => rfl⟩ (Nat.le_refl _), rfl⟩

/-- **Every successful call has one of the effects**, and the marketplace still approves nobody. -/
theorem step_effect {a : Action this} (hno : s.NoApproval this)
    (h : s.step this a = .ok (s', logs)) :
    Effect this s a.msg a.call s' logs ∧ s'.NoApproval this := by
  obtain ⟨msg, call, hzero, hne, hstd⟩ := a
  unfold System.step at h
  cases call with
  | token c =>
    simp only [bind_eq_ok, pure_eq_ok, Prod.exists, Prod.mk.injEq] at h
    obtain ⟨token, l, hstep, rfl, rfl⟩ := h
    obtain ⟨hb, ha⟩ := StorageToken.step_frame hne (hstd c rfl) hno hstep
    exact ⟨.idle rfl (SameBooks.refl _) hb, ha⟩
  | registry c =>
    simp only [bind_eq_ok, pure_eq_ok, Prod.exists, Prod.mk.injEq] at h
    obtain ⟨registry, l, -, rfl, rfl⟩ := h
    exact ⟨.idle rfl (SameBooks.refl _) (Nat.le_refl _), hno⟩
  | market c =>
    obtain ⟨he, ha⟩ := marketStep_effect hne h
    exact ⟨he, fun sp => (congrFun ha sp).trans (hno sp)⟩

/-- A distributor, once set, stays. -/
theorem effect_distributor {call : Call} (e : Effect this s msg call s' logs)
    (hset : s.market.paymentDistributor ≠ 0) :
    s'.market.paymentDistributor = s.market.paymentDistributor := by
  cases e with
  | idle _ books _ => exact books.distributor hset
  | created _ _ _ _ _ _ _ wrote | renewed _ _ _ _ wrote | completed _ _ _ _ _ wrote
  | cancelled _ _ _ _ wrote | lost _ _ _ _ _ wrote | failed _ _ _ _ _ _ wrote
  | repaired _ _ _ _ _ wrote => exact wrote.distributor
  | retrieving _ _ market | claimed _ _ market | withdrawn _ market =>
    simp [market, StorageMarketplace.setRetrieval]

theorem noApproval_run {s₀ : System} (h : s₀.NoApproval this) (as : List (Action this)) :
    (run (System.step this) s₀ as).NoApproval this :=
  run_invariant (C := fun _ _ => True) h (fun _ _ _ _ hI _ hs => (step_effect hI hs).2) as
    (meets_true s₀ as)

end Effects

end Kyneto
