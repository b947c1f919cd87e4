import Kyneto.CapacityPledge.Collateral
import Kyneto.PaymentDistributor.Settlement
import Kyneto.StorageMarketplace.Shards

/-!
# Do assignments respect what providers offer?

A provider pledges capacity in one contract and names a minimum price in another. The marketplace asks neither when it
assigns shards: `createDeal` and `repairShard` check that a provider is active and nothing else, the utilisation of a
pledge is written by its contract's owner alone, and a provider can end its pledges whatever it stores.

`within_step_iff` and `prices_step_iff` say of each call when it keeps the load of all providers within their capacity,
and the prices of all active deals above what was asked for; `terms_iff` puts them together for whole runs.
-/

namespace Kyneto

open Evm

/-! ## Load and capacity -/

/-- The size of the shard that a provider holds of a deal, if it is in service. -/
def Deal.held (deal : Deal) (p : Address) : Nat :=
  if (deal.shardAllocations p).active then (deal.shardAllocations p).sizeGB else 0

/-- What an active deal asks of a provider. -/
def Deal.load (deal : Deal) (p : Address) : Nat := if deal.status = .Active then deal.held p else 0

/-- What all active deals ask of a provider. -/
def StorageMarketplace.load (m : StorageMarketplace) (p : Address) : Nat :=
  ∑ dealId ∈ Finset.range m.dealCount, (m.deals dealId).load p

/-- The capacity of a provider's active pledges. -/
def CapacityPledge.capacityOf (c : CapacityPledge) (p : Address) : Nat :=
  ∑ pledgeId ∈ Finset.range (c.pledgeCount p), (c.pledges p pledgeId).counted Pledge.capacityGB

/-- No provider is to store more than it has pledged. -/
def WithinCapacity (n : Network) : Prop := ∀ p, n.market.load p ≤ n.pledges.capacityOf p

/-- The call leaves every provider enough capacity for what it is to store. -/
def CapacityLeft {sites : Sites} (n : Network) (a : NetworkAction sites) : Prop :=
  match a.call with
  | .base (.market (.createDeal params)) =>
    ∀ shard ∈ params.shards, n.market.load shard.1 + shard.2.2 ≤ n.pledges.capacityOf shard.1
  | .base (.market (.repairShard dealId oldProvider newProvider _)) => dealId < n.market.dealCount →
    n.market.load newProvider + ((n.market.deals dealId).shardAllocations oldProvider).sizeGB ≤
      n.pledges.capacityOf newProvider + (n.market.deals dealId).held newProvider
  | .pledge (.completePledge pledgeId) | .pledge (.exitPledgeEarly pledgeId) =>
    n.market.load a.msg.sender + (n.pledges.pledges a.msg.sender pledgeId).capacityGB ≤
      n.pledges.capacityOf a.msg.sender
  | _ => True

/-! ## Prices -/

section Prices

variable {sites : Sites}

/-- The call assigns a shard of the deal to the provider. -/
def Assigns (dealId : Nat) (p : Address) (e : NetworkEntry sites) : Prop :=
  match e.act.call with
  | .base (.market (.createDeal params)) => e.pre.market.dealCount = dealId ∧ p ∈ params.selectedProviders
  | .base (.market (.repairShard id _ newProvider _)) => id = dealId ∧ newProvider = p
  | _ => False

/-- The minimum price that the provider had set when the call was made. -/
def askedBy (p : Address) (e : NetworkEntry sites) : Nat := (e.pre.registry.providers p).minPriceUSD

/-- The price of every active deal is at least what each provider asked for when it was assigned a shard. -/
def PricesMet (n : Network) (hist : List (NetworkEntry sites)) : Prop :=
  ∀ c ∈ hist, ∀ params, c.act.call = .base (.market (.createDeal params)) →
    (n.market.deals c.pre.market.dealCount).status = .Active →
      ∀ e ∈ hist, ∀ p, Assigns c.pre.market.dealCount p e → askedBy p e ≤ params.pricePerGBMonthUSD

/-- A creation pays what the selected providers ask for, and what was asked for in repairs of its slot; a repair, what
the deal was created with. -/
def PriceEnough (n : Network) (hist : List (NetworkEntry sites)) (a : NetworkAction sites) : Prop :=
  match a.call with
  | .base (.market (.createDeal params)) =>
    (∀ p ∈ params.selectedProviders, (n.registry.providers p).minPriceUSD ≤ params.pricePerGBMonthUSD) ∧
      ∀ e ∈ hist, ∀ p, Assigns n.market.dealCount p e → askedBy p e ≤ params.pricePerGBMonthUSD
  | .base (.market (.repairShard dealId _ newProvider _)) =>
    ∀ c ∈ hist, ∀ params, c.act.call = .base (.market (.createDeal params)) → c.pre.market.dealCount = dealId →
      (n.registry.providers newProvider).minPriceUSD ≤ params.pricePerGBMonthUSD
  | _ => True

end Prices

/-! ## What every run keeps -/

/-- No deal is in its grace period, slots and pledges not handed out are empty, and deals are numbered in order. -/
structure WellKept {sites : Sites} (n : Network) (hist : List (NetworkEntry sites)) : Prop where
  noGrace : ∀ id, (n.market.deals id).status ≠ .InGracePeriod
  sizes : ∀ id, n.market.dealCount ≤ id → ∀ p, ((n.market.deals id).shardAllocations p).sizeGB = 0
  pledges : ∀ p id, n.pledges.pledgeCount p ≤ id → (n.pledges.pledges p id).active = false
  numbered : ∀ c ∈ hist, ∀ params, c.act.call = .base (.market (.createDeal params)) →
    c.pre.market.dealCount < n.market.dealCount

/-! ## One deal -/

namespace Deal

variable {deal : Deal} {p : Address}

theorem active_of_open (hopen : deal.status.isOpen = true) (hgrace : deal.status ≠ .InGracePeriod) :
    deal.status = .Active := by
  cases hstatus : deal.status with
  | Active => rfl
  | InGracePeriod => exact absurd hstatus hgrace
  | Completed | Failed | Cancelled =>
    rw [hstatus] at hopen
    cases hopen

theorem load_of_closed (h : deal.status ≠ .Active) : deal.load p = 0 := by
  unfold load
  rw [if_neg h]

theorem load_without_le (deal : Deal) (q p : Address) (k : Nat) :
    (deal.withShards (deal.without q) k).load p ≤ deal.load p := by
  unfold load held withShards without
  by_cases hp : p = q
  · subst hp
    simp
  · simp [Function.update_of_ne hp]

theorem sizeGB_without (deal : Deal) (q p : Address) :
    (deal.without q p).sizeGB = (deal.shardAllocations p).sizeGB := by
  unfold without
  by_cases hp : p = q
  · subst hp
    simp
  · rw [Function.update_of_ne hp]

theorem sizeGB_cleared (deal : Deal) (l : List Address) (p : Address) :
    (deal.cleared l p).sizeGB = (deal.shardAllocations p).sizeGB := by
  unfold cleared
  split <;> rfl

/-- A provider among the new ones gets the shard listed with it. -/
theorem assigned_sizeGB {shards : List (Address × String × Nat)} {shard : Address × String × Nat}
    (allocs : Address → ShardAllocation) (i : Nat) (hnodup : (shards.map Prod.fst).Nodup) (h : shard ∈ shards) :
    (assigned allocs i shards shard.1).sizeGB = shard.2.2 := by
  induction shards generalizing allocs i with
  | nil => cases h
  | cons first rest ih =>
    obtain ⟨provider, cid, size⟩ := first
    rw [List.map_cons, List.nodup_cons] at hnodup
    rw [assigned]
    rcases List.mem_cons.mp h with rfl | hrest
    · rw [assigned_of_notMem _ _ hnodup.1, Function.update_self]
    · exact ih _ _ hnodup.2 hrest

end Deal

/-! ## The load after a call -/

section Load

variable {m m' : StorageMarketplace} {id fees : Nat} {deal : Deal} {pd : Address → List Nat} {p : Address}

theorem load_wrote (w : Wrote m m' id deal m.dealCount fees pd) (hid : id < m.dealCount) :
    m'.load p + (m.deals id).load p = m.load p + deal.load p := by
  have hsum := sum_range_update (fun i => (m.deals i).load p) (deal.load p) hid
  have hsame : (fun i => (m'.deals i).load p) = Function.update (fun i => (m.deals i).load p) id (deal.load p) := by
    rw [w.deals]
    exact Function.comp_update (fun d : Deal => d.load p) m.deals id deal
  unfold StorageMarketplace.load
  rw [w.dealCount, hsame]
  exact hsum

theorem load_wrote_beyond (w : Wrote m m' id deal m.dealCount fees pd) (hid : m.dealCount ≤ id) :
    m'.load p = m.load p := by
  unfold StorageMarketplace.load
  rw [w.dealCount]
  apply Finset.sum_congr rfl
  intro i hi
  have hlt := Finset.mem_range.mp hi
  rw [w.deal_of_ne (by omega)]

theorem load_wrote_le (w : Wrote m m' id deal m.dealCount fees pd) (h : deal.load p ≤ (m.deals id).load p) :
    m'.load p ≤ m.load p := by
  rcases Nat.lt_or_ge id m.dealCount with hid | hid
  · have hload := load_wrote (p := p) w hid
    omega
  · exact (load_wrote_beyond w hid).le

theorem load_created (w : Wrote m m' m.dealCount deal (m.dealCount + 1) fees pd) :
    m'.load p = m.load p + deal.load p := by
  unfold StorageMarketplace.load
  rw [w.dealCount, Finset.sum_range_succ, w.deals, Function.update_self]
  congr 1
  exact sum_range_update_next (fun d : Deal => d.load p) m.deals m.dealCount deal

/-- In a slot without sizes, the new deal asks of each provider what is listed with it. -/
theorem createdDeal_load {params : DealParams} (msg : Msg) (price totalCost endTime : Nat)
    (hfst : params.shards.map Prod.fst = params.selectedProviders) (hnodup : params.selectedProviders.Nodup)
    (hsizes : ∀ p, ((m.deals m.dealCount).shardAllocations p).sizeGB = 0) :
    (∀ shard ∈ params.shards, (createdDeal m msg params price totalCost endTime).load shard.1 = shard.2.2) ∧
      ∀ p ∉ params.selectedProviders, (createdDeal m msg params price totalCost endTime).load p = 0 := by
  have hload : ∀ p, (createdDeal m msg params price totalCost endTime).load p =
      if (Deal.assigned (m.deals m.dealCount).shardAllocations 0 params.shards p).active then
        (Deal.assigned (m.deals m.dealCount).shardAllocations 0 params.shards p).sizeGB else 0 := by
    intro p
    rw [createdDeal, Deal.assignShards_eq]
    rfl
  rw [← hfst] at hnodup
  constructor
  · intro shard hshard
    have hactive := (assigned_of_mem (m.deals m.dealCount).shardAllocations 0 hnodup
      (List.mem_map_of_mem hshard)).1
    rw [hload, if_pos hactive]
    exact Deal.assigned_sizeGB _ 0 hnodup hshard
  · intro p hp
    rw [← hfst] at hp
    rw [hload, assigned_of_notMem _ 0 hp, hsizes, ite_self]

/-- The new provider gets what the old one had, and nobody gets anything else. -/
theorem repairedDeal_load {old : Address} (new : Address) (cid : String) (hactive : deal.status = .Active)
    (hold : (deal.shardAllocations old).active = false) :
    (repairedDeal deal old new cid).load new = (deal.shardAllocations old).sizeGB ∧
      ∀ p, p ≠ new → (repairedDeal deal old new cid).load p = deal.load p := by
  have hload : ∀ d p, (repairedDeal d old new cid).load p =
      if d.status = .Active then (repairedDeal d old new cid).held p else 0 := fun _ _ => rfl
  constructor
  · rw [hload, if_pos hactive]
    unfold Deal.held
    rw [repairedDeal_new]
    rfl
  · intro p hnew
    rw [hload]
    unfold Deal.load Deal.held
    by_cases hp : p = old
    · subst hp
      have hempty : (repairedDeal deal p new cid).shardAllocations p = {} := by simp [repairedDeal, hnew]
      rw [hempty, hold]
      rfl
    · rw [repairedDeal_other hnew hp]

end Load

/-! ## The capacity after a call -/

section Capacity

variable {c c' : CapacityPledge} {owner p : Address} {id : Nat} {pledge : Pledge}

/-- Changing a pledge changes the capacity of its owner by the difference. -/
theorem capacityOf_write (hid : id < c.pledgeCount owner)
    (hpledges : c'.pledges = Function.update c.pledges owner (Function.update (c.pledges owner) id pledge))
    (hcount : c'.pledgeCount = c.pledgeCount) :
    c'.capacityOf owner + (c.pledges owner id).counted Pledge.capacityGB =
        c.capacityOf owner + pledge.counted Pledge.capacityGB ∧
      ∀ p, p ≠ owner → c'.capacityOf p = c.capacityOf p := by
  constructor
  · have hsum := sum_range_update (fun i => (c.pledges owner i).counted Pledge.capacityGB)
      (pledge.counted Pledge.capacityGB) hid
    have hsame : (fun i => (c'.pledges owner i).counted Pledge.capacityGB) =
        Function.update (fun i => (c.pledges owner i).counted Pledge.capacityGB) id
          (pledge.counted Pledge.capacityGB) := by
      rw [hpledges, Function.update_self]
      exact Function.comp_update (Pledge.counted Pledge.capacityGB) (c.pledges owner) id pledge
    unfold CapacityPledge.capacityOf
    rw [hcount, hsame]
    exact hsum
  · intro p hp
    unfold CapacityPledge.capacityOf
    rw [hcount, hpledges, Function.update_of_ne hp]

theorem capacityOf_create
    (hpledges : c'.pledges = Function.update c.pledges owner
      (Function.update (c.pledges owner) (c.pledgeCount owner) pledge))
    (hcount : c'.pledgeCount = Function.update c.pledgeCount owner (c.pledgeCount owner + 1)) (p : Address) :
    c.capacityOf p ≤ c'.capacityOf p := by
  unfold CapacityPledge.capacityOf
  by_cases hp : p = owner
  · subst hp
    rw [hpledges, hcount, Function.update_self, Function.update_self, Finset.sum_range_succ, sum_range_update_next]
    exact Nat.le_add_right _ _
  · rw [hpledges, hcount, Function.update_of_ne hp, Function.update_of_ne hp]

end Capacity

/-! ## When a call leaves enough capacity -/

section Within

variable {sites : Sites} {n n' : Network} {a : NetworkAction sites} {hist : List (NetworkEntry sites)}
  {logs : List NetworkLog}

theorem WithinCapacity.mono (h : WithinCapacity n) (hload : ∀ p, n'.market.load p ≤ n.market.load p)
    (hcapacity : ∀ p, n.pledges.capacityOf p ≤ n'.pledges.capacityOf p) : WithinCapacity n' :=
  fun p => (hload p).trans ((h p).trans (hcapacity p))

/-- A new deal stays within the capacities exactly if each of its providers has enough left. -/
theorem within_created_iff {msg : Msg} {params : DealParams} {price totalCost endTime fees : Nat}
    {pd : Address → List Nat} (ho : WellKept n hist) (h : WithinCapacity n)
    (hfst : params.shards.map Prod.fst = params.selectedProviders) (hnodup : params.selectedProviders.Nodup)
    (w : Wrote n.market n'.market n.market.dealCount
      (createdDeal n.market msg params price totalCost endTime) (n.market.dealCount + 1) fees pd)
    (hpledges : n'.pledges = n.pledges) :
    WithinCapacity n' ↔
      ∀ shard ∈ params.shards, n.market.load shard.1 + shard.2.2 ≤ n.pledges.capacityOf shard.1 := by
  obtain ⟨hnew, hother⟩ := createdDeal_load msg price totalCost endTime hfst hnodup (ho.sizes _ (Nat.le_refl _))
  unfold WithinCapacity
  rw [hpledges]
  constructor
  · intro h' shard hshard
    have hafter := h' shard.1
    rw [load_created w, hnew shard hshard] at hafter
    exact hafter
  · intro hleft p
    rw [load_created w]
    by_cases hp : p ∈ params.selectedProviders
    · rw [← hfst] at hp
      obtain ⟨shard, hshard, rfl⟩ := List.mem_map.mp hp
      rw [hnew shard hshard]
      exact hleft shard hshard
    · rw [hother p hp]
      exact h p

/-- A repair stays within the capacities exactly if the new provider has enough left. -/
theorem within_repaired_iff {id fees : Nat} {old new : Address} {cid : String} {pd : Address → List Nat}
    (h : WithinCapacity n) (hactive : (n.market.deals id).status = .Active)
    (hold : ((n.market.deals id).shardAllocations old).active = false)
    (w : Wrote n.market n'.market id (repairedDeal (n.market.deals id) old new cid) n.market.dealCount fees pd)
    (hpledges : n'.pledges = n.pledges) :
    WithinCapacity n' ↔ (id < n.market.dealCount →
      n.market.load new + ((n.market.deals id).shardAllocations old).sizeGB ≤
        n.pledges.capacityOf new + (n.market.deals id).held new) := by
  obtain ⟨hnew, hother⟩ := repairedDeal_load new cid hactive hold
  have hheld : (n.market.deals id).load new = (n.market.deals id).held new := by
    unfold Deal.load
    rw [if_pos hactive]
  unfold WithinCapacity
  rw [hpledges]
  constructor
  · intro h' hid
    have hload := load_wrote (p := new) w hid
    have hafter := h' new
    omega
  · intro hleft p
    rcases Nat.lt_or_ge id n.market.dealCount with hid | hid
    · have hload := load_wrote (p := p) w hid
      by_cases hp : p = new
      · subst hp
        have hleft := hleft hid
        omega
      · have hsame := hother p hp
        have hbefore := h p
        omega
    · rw [load_wrote_beyond w hid]
      exact h p

/-- A call of the marketplace other than the two assignments. -/
theorem within_released {id fees : Nat} {deal : Deal} {pd : Address → List Nat} (h : WithinCapacity n)
    (w : Wrote n.market n'.market id deal n.market.dealCount fees pd)
    (hless : ∀ p, deal.load p ≤ (n.market.deals id).load p) (hpledges : n'.pledges = n.pledges) :
    WithinCapacity n' := by
  apply h.mono
  · exact fun p => load_wrote_le w (hless p)
  · rw [hpledges]
    exact fun p => Nat.le_refl _

/-- The same for any call of the marketplace. -/
theorem within_market_iff {c : MarketCall} {l : List Log} {msg : Msg} (ho : WellKept n hist) (h : WithinCapacity n)
    (hcall : a.call = .base (.market c)) (hpledges : n'.pledges = n.pledges)
    (e : Effect sites.marketplace n.toSystem msg (.market c) n'.toSystem l) :
    WithinCapacity n' ↔ CapacityLeft n a := by
  unfold CapacityLeft
  rw [hcall]
  cases e with
  | idle noDeal books _ =>
    have hsame : ∀ p, n'.market.load p ≤ n.market.load p := by
      intro p
      unfold StorageMarketplace.load
      rw [books.deals, books.dealCount]
    have hwithin : WithinCapacity n' := h.mono hsame (by rw [hpledges]; exact fun p => Nat.le_refl _)
    cases c with
    | createDeal params => cases noDeal
    | repairShard dealId old new cid => cases noDeal
    | _ => exact iff_of_true hwithin trivial
  | created providers cids sizes nodup _ _ _ wrote =>
    exact within_created_iff ho h (DealParams.shards_map_fst providers cids sizes) nodup wrote hpledges
  | renewed deal_eq isOpen _ _ wrote =>
    subst deal_eq
    refine iff_of_true (within_released h wrote ?_ hpledges) trivial
    intro p
    -- renewing makes the deal active, and it was active before
    have hactive := Deal.active_of_open isOpen (ho.noGrace _)
    unfold Deal.load
    rw [if_pos rfl, if_pos hactive]
    exact Nat.le_refl _
  | completed deal_eq _ _ _ _ wrote | cancelled deal_eq _ _ _ wrote | failed deal_eq _ _ _ _ _ wrote =>
    refine iff_of_true (within_released h wrote ?_ hpledges) trivial
    intro p
    rw [Deal.load_of_closed (by simp)]
    exact Nat.zero_le _
  | lost deal_eq _ _ _ _ wrote =>
    subst deal_eq
    exact iff_of_true (within_released h wrote (Deal.load_without_le _ _ · _) hpledges) trivial
  | repaired deal_eq _ isOpen oldShard _ wrote =>
    subst deal_eq
    exact within_repaired_iff h (Deal.active_of_open isOpen (ho.noGrace _)) oldShard wrote hpledges
  | retrieving _ _ market | claimed _ _ market | withdrawn _ market =>
    refine iff_of_true (h.mono ?_ ?_) trivial
    · rw [market]
      exact fun p => Nat.le_refl _
    · rw [hpledges]
      exact fun p => Nat.le_refl _

/-- A call of the contract of pledges, as that contract with its token sees it. -/
def NetworkAction.onPledges (a : NetworkAction sites) (c : CapacityPledge.Call) : PledgeAction sites.pledges where
  msg := a.msg
  call := .pledge c
  sender_ne_zero := a.sender_ne_zero
  sender_ne_this := a.sender_ne_pledges
  standard := by intro c h; cases h

theorem capacityLeft_ends {c : CapacityPledge.Call} (hcall : a.call = .pledge c) :
    ((a.onPledges c).ends = none → CapacityLeft n a) ∧
      ∀ id, (a.onPledges c).ends = some (a.msg.sender, id) → (CapacityLeft n a ↔
        n.market.load a.msg.sender + (n.pledges.pledges a.msg.sender id).capacityGB ≤
          n.pledges.capacityOf a.msg.sender) := by
  unfold CapacityLeft PledgeAction.ends NetworkAction.onPledges
  rw [hcall]
  cases c <;> simp

/-- A call of the pledge contract stays within the capacities exactly if it takes back nothing that
is used. -/
theorem within_pledge_iff {c : CapacityPledge.Call} (ho : WellKept n hist) (h : WithinCapacity n)
    (hcall : a.call = .pledge c) (hmarket : n'.market = n.market)
    (e : PledgeEffect sites.pledges ⟨n.token, n.pledges⟩ (a.onPledges c) ⟨n'.token, n'.pledges⟩) :
    WithinCapacity n' ↔ CapacityLeft n a := by
  have hload : ∀ p, n'.market.load p ≤ n.market.load p := by
    rw [hmarket]
    exact fun p => Nat.le_refl _
  cases e with
  | idle ends _ books _ =>
    refine iff_of_true (h.mono hload ?_) ((capacityLeft_ends hcall).1 ends)
    intro p
    unfold CapacityPledge.capacityOf
    rw [books.pledges, books.pledgeCount]
  | created ends _ _ _ _ _ pledges pledgeCount =>
    refine iff_of_true (h.mono hload ?_) ((capacityLeft_ends hcall).1 ends)
    exact capacityOf_create pledges pledgeCount
  -- a pledge that ends takes its capacity with it
  | @ended id penalty returned pledge pledge_eq ends _ active pledges pledgeCount =>
    subst pledge_eq
    have hactive : (n.pledges.pledges a.msg.sender id).active = true := active
    -- an active pledge has been created
    have hid : id < n.pledges.pledgeCount a.msg.sender := by
      by_contra hbeyond
      rw [ho.pledges a.msg.sender id (by omega)] at hactive
      cases hactive
    obtain ⟨hwrite, hother⟩ := capacityOf_write hid pledges pledgeCount
    have hsender : n'.pledges.capacityOf a.msg.sender + (n.pledges.pledges a.msg.sender id).capacityGB =
        n.pledges.capacityOf a.msg.sender := by
      rw [counted_active hactive] at hwrite
      exact hwrite
    rw [(capacityLeft_ends hcall).2 id ends]
    constructor
    -- the capacity that is left has to cover the load
    · intro h'
      have hafter := h' a.msg.sender
      rw [hmarket] at hafter
      omega
    · intro hleft p
      rw [hmarket]
      by_cases hp : p = a.msg.sender
      · subst hp
        omega
      · rw [hother p hp]
        exact h p
  | @utilized provider id newUtilizationGB pledge pledge_eq ends _ active _ pledges pledgeCount =>
    subst pledge_eq
    refine iff_of_true (h.mono hload ?_) ((capacityLeft_ends hcall).1 ends)
    have hactive : (n.pledges.pledges provider id).active = true := active
    have hid : id < n.pledges.pledgeCount provider := by
      by_contra hbeyond
      rw [ho.pledges provider id (by omega)] at hactive
      cases hactive
    obtain ⟨hprovider, hother⟩ := capacityOf_write hid pledges pledgeCount
    -- only the utilization changes, which the capacity does not depend on
    intro p
    by_cases hp : p = provider
    · subst hp
      exact Nat.le_of_add_le_add_right hprovider.ge
    · exact (hother p hp).ge

/-- **When a call keeps everybody within its capacity.** -/
theorem within_step_iff (ho : WellKept n hist) (h : WithinCapacity n) (hstep : n.step sites a = .ok (n', logs)) :
    WithinCapacity n' ↔ CapacityLeft n a := by
  cases networkStep_of_ok hstep with
  | market call done => exact within_market_iff ho h call rfl (marketStep_effect a.sender_ne_marketplace done).1
  | @pledge c token pledges paid l call done =>
    have heffect := (@pledgeStep_effect sites.pledges ⟨n.token, n.pledges⟩ token paid (a.onPledges c) c pledges l rfl
      done).1
    exact within_pledge_iff ho h call rfl heffect
  | token call _ | registry call _ =>
    unfold CapacityLeft
    rw [call]
    exact iff_of_true h trivial
  | distributor call done =>
    obtain ⟨hmarket, -, hpledges⟩ := distributorStep_frame done
    unfold CapacityLeft WithinCapacity
    rw [call, hmarket, hpledges]
    exact iff_of_true h trivial

end Within

/-! ## When a call keeps the prices -/

section Met

variable {sites : Sites} {n n' : Network} {a : NetworkAction sites} {hist : List (NetworkEntry sites)}
  {logs : List NetworkLog}

/-- A call that assigns nothing, and makes no deal active that was not. -/
theorem PricesMet.of_other (h : PricesMet n hist)
    (hcreate : ∀ params, a.call ≠ .base (.market (.createDeal params)))
    (hrepair : ∀ id old new cid, a.call ≠ .base (.market (.repairShard id old new cid)))
    (hactive : ∀ id, (n'.market.deals id).status = .Active → (n.market.deals id).status = .Active) :
    PricesMet n' (hist ++ [⟨n, a, logs, n'⟩]) := by
  intro c hc params hparams hstatus e he p hassigns
  rcases List.mem_append.mp hc with hc | hc
  · rcases List.mem_append.mp he with he | he
    · exact h c hc params hparams (hactive _ hstatus) e he p hassigns
    · obtain rfl := List.mem_singleton.mp he
      unfold Assigns at hassigns
      split at hassigns
      · next hcall => exact absurd hcall (hcreate _)
      · next hcall => exact absurd hcall (hrepair _ _ _ _)
      · exact hassigns.elim
  · obtain rfl := List.mem_singleton.mp hc
    exact absurd hparams (hcreate params)

theorem assigns_created {params : DealParams} (hcall : a.call = .base (.market (.createDeal params))) (id : Nat)
    (p : Address) : Assigns id p ⟨n, a, logs, n'⟩ ↔ n.market.dealCount = id ∧ p ∈ params.selectedProviders := by
  unfold Assigns
  rw [hcall]

theorem assigns_repaired {dealId : Nat} {old new : Address} {cid : String}
    (hcall : a.call = .base (.market (.repairShard dealId old new cid))) (id : Nat) (p : Address) :
    Assigns id p ⟨n, a, logs, n'⟩ ↔ dealId = id ∧ new = p := by
  unfold Assigns
  rw [hcall]

/-- A new deal meets the prices exactly if it pays what its providers ask. -/
theorem prices_created_iff {params : DealParams} {deal : Deal} {fees : Nat} {pd : Address → List Nat}
    (ho : WellKept n hist) (h : PricesMet n hist) (hcall : a.call = .base (.market (.createDeal params)))
    (w : Wrote n.market n'.market n.market.dealCount deal (n.market.dealCount + 1) fees pd)
    (hactive : deal.status = .Active) :
    PricesMet n' (hist ++ [⟨n, a, logs, n'⟩]) ↔ PriceEnough n hist a := by
  unfold PriceEnough
  rw [hcall]
  have hself : ⟨n, a, logs, n'⟩ ∈ hist ++ [⟨n, a, logs, n'⟩] :=
    List.mem_append_right _ (List.mem_singleton_self _)
  have hstatus : (n'.market.deals n.market.dealCount).status = .Active := by rw [w.deal_self, hactive]
  constructor
  · intro h'
    constructor
    · intro p hp
      exact h' _ hself params hcall hstatus _ hself p ((assigns_created hcall _ p).mpr ⟨rfl, hp⟩)
    · intro e he p hassigns
      exact h' _ hself params hcall hstatus e (List.mem_append_left _ he) p hassigns
  · rintro ⟨hselected, hplanted⟩ c hc params' hparams hactive' e he p hassigns
    rcases List.mem_append.mp hc with hc | hc
    · -- an earlier deal: nothing happens to it
      have hlt := ho.numbered c hc params' hparams
      rw [w.deal_of_ne (Nat.ne_of_lt hlt)] at hactive'
      rcases List.mem_append.mp he with he | he
      · exact h c hc params' hparams hactive' e he p hassigns
      · obtain rfl := List.mem_singleton.mp he
        have hid := ((assigns_created hcall _ p).mp hassigns).1
        omega
    · obtain rfl := List.mem_singleton.mp hc
      obtain rfl : params = params' := by
        rw [hcall] at hparams
        injection hparams with hparams
        injection hparams with hparams
        injection hparams
      rcases List.mem_append.mp he with he | he
      · exact hplanted e he p hassigns
      · obtain rfl := List.mem_singleton.mp he
        exact hselected p ((assigns_created hcall _ p).mp hassigns).2

/-- A repair meets the prices exactly if the deal pays what the new provider asks. -/
theorem prices_repaired_iff {dealId fees : Nat} {old new : Address} {cid : String} {deal : Deal}
    {pd : Address → List Nat} (h : PricesMet n hist)
    (hcall : a.call = .base (.market (.repairShard dealId old new cid)))
    (w : Wrote n.market n'.market dealId deal n.market.dealCount fees pd) (hactive : deal.status = .Active)
    (hbefore : (n.market.deals dealId).status = .Active) :
    PricesMet n' (hist ++ [⟨n, a, logs, n'⟩]) ↔ PriceEnough n hist a := by
  unfold PriceEnough
  rw [hcall]
  constructor
  · intro h' c hc params hparams hid
    have hstatus : (n'.market.deals c.pre.market.dealCount).status = .Active := by
      rw [hid, w.deal_self, hactive]
    exact h' c (List.mem_append_left _ hc) params hparams hstatus ⟨n, a, logs, n'⟩
      (List.mem_append_right _ (List.mem_singleton_self _)) new ((assigns_repaired hcall _ new).mpr ⟨hid.symm, rfl⟩)
  · intro henough c hc params hparams hstatus e he p hassigns
    rcases List.mem_append.mp hc with hc | hc
    · rcases List.mem_append.mp he with he | he
      · refine h c hc params hparams ?_ e he p hassigns
        by_cases hid : c.pre.market.dealCount = dealId
        · rw [hid, hbefore]
        · rwa [w.deal_of_ne hid] at hstatus
      · obtain rfl := List.mem_singleton.mp he
        obtain ⟨hid, rfl⟩ := (assigns_repaired hcall _ p).mp hassigns
        exact henough c hc params hparams hid.symm
    · obtain rfl := List.mem_singleton.mp hc
      rw [hcall] at hparams
      injection hparams with hparams
      injection hparams with hparams
      cases hparams

/-- **When a call keeps the prices of all active deals.** -/
theorem prices_step_iff (ho : WellKept n hist) (h : PricesMet n hist) (hstep : n.step sites a = .ok (n', logs)) :
    PricesMet n' (hist ++ [⟨n, a, logs, n'⟩]) ↔ PriceEnough n hist a := by
  -- only the marketplace touches deals
  rcases step_market hstep with ⟨hother, hmarket⟩ | ⟨c, l, hcall, -, heffect⟩
  · have henough : PriceEnough n hist a := by
      unfold PriceEnough
      split
      · next hcall => exact absurd hcall (hother _)
      · next hcall => exact absurd hcall (hother _)
      · trivial
    refine iff_of_true (h.of_other ?_ ?_ ?_) henough
    · exact fun _ => hother _
    · exact fun _ _ _ _ => hother _
    · rw [hmarket]
      exact fun _ => id
  -- of its calls only two can make a deal active or give it another provider
  · have other : (∀ params, c ≠ .createDeal params) → (∀ id old new cid, c ≠ .repairShard id old new cid) →
        (∀ id, (n'.market.deals id).status = .Active → (n.market.deals id).status = .Active) →
        (PricesMet n' (hist ++ [⟨n, a, logs, n'⟩]) ↔ PriceEnough n hist a) := by
      intro hcreate hrepair hactive
      have henough : PriceEnough n hist a := by
        unfold PriceEnough
        rw [hcall]
        cases c with
        | createDeal params => exact absurd rfl (hcreate params)
        | repairShard id old new cid => exact absurd rfl (hrepair id old new cid)
        | _ => trivial
      refine iff_of_true (h.of_other ?_ ?_ hactive) henough
      · intro params hparams
        rw [hcall] at hparams
        injection hparams with hparams
        injection hparams with hparams
        exact hcreate params hparams
      · intro id old new cid hparams
        rw [hcall] at hparams
        injection hparams with hparams
        injection hparams with hparams
        exact hrepair id old new cid hparams
    -- a write to one deal
    have kept : ∀ {id fees deal pd}, Wrote n.market n'.market id deal n.market.dealCount fees pd →
        (deal.status = .Active → (n.market.deals id).status = .Active) →
        ∀ i, (n'.market.deals i).status = .Active → (n.market.deals i).status = .Active := by
      intro id fees deal pd w hdeal i hi
      by_cases hid : i = id
      · subst hid
        rw [w.deal_self] at hi
        exact hdeal hi
      · rwa [w.deal_of_ne hid] at hi
    cases heffect with
    | idle noDeal books _ =>
      -- what is idle is neither of the two
      apply other
      · rintro params rfl
        cases noDeal
      · rintro id old new cid rfl
        cases noDeal
      · rw [books.deals]
        exact fun _ => id
    | created _ _ _ _ _ _ _ wrote =>
      -- a creation, by the lemma about it
      apply prices_created_iff ho h hcall wrote
      rw [createdDeal, Deal.assignShards_eq]
      rfl
    | renewed deal_eq isOpen _ _ wrote =>
      subst deal_eq
      apply other (by simp) (by simp) (kept wrote _)
      -- a deal that is renewed was active, since no deal is ever in its grace period
      exact fun _ => Deal.active_of_open isOpen (ho.noGrace _)
    | completed _ _ _ _ _ wrote | cancelled _ _ _ _ wrote | failed _ _ _ _ _ _ wrote =>
      apply other (by simp) (by simp) (kept wrote _)
      intro hstatus
      cases hstatus
    | lost deal_eq _ _ _ _ wrote =>
      subst deal_eq
      -- these three kinds of calls make no deal active
      exact other (by simp) (by simp) (kept wrote id)
    | repaired deal_eq _ isOpen _ _ wrote =>
      subst deal_eq
      have hactive := Deal.active_of_open isOpen (ho.noGrace _)
      exact prices_repaired_iff h hcall wrote hactive hactive
    | retrieving _ _ market | claimed _ _ market | withdrawn _ market =>
      apply other (by simp) (by simp)
      rw [market]
      exact fun _ => id

end Met

/-! ## Runs -/

section Runs

variable {sites : Sites} {n n' : Network} {a : NetworkAction sites} {hist : List (NetworkEntry sites)}
  {logs : List NetworkLog}

/-- The marketplace's part of `WellKept`. -/
theorem wellKept_market {this : Address} {s s' : System} {msg : Msg} {call : Call} {l : List Log}
    (hgrace : ∀ id, (s.market.deals id).status ≠ .InGracePeriod)
    (hsizes : ∀ id, s.market.dealCount ≤ id → ∀ p, ((s.market.deals id).shardAllocations p).sizeGB = 0)
    (e : Effect this s msg call s' l) :
    (∀ id, (s'.market.deals id).status ≠ .InGracePeriod) ∧
      (∀ id, s'.market.dealCount ≤ id → ∀ p, ((s'.market.deals id).shardAllocations p).sizeGB = 0) ∧
      s.market.dealCount ≤ s'.market.dealCount := by
  -- what a write to one deal keeps, if the new deal keeps it
  have kept : ∀ {id count fees deal pd}, Wrote s.market s'.market id deal count fees pd →
      s.market.dealCount ≤ count → deal.status ≠ .InGracePeriod →
      (count ≤ id → ∀ p, (deal.shardAllocations p).sizeGB = 0) →
      (∀ i, (s'.market.deals i).status ≠ .InGracePeriod) ∧
        (∀ i, s'.market.dealCount ≤ i → ∀ p, ((s'.market.deals i).shardAllocations p).sizeGB = 0) ∧
        s.market.dealCount ≤ s'.market.dealCount := by
    intro id count fees deal pd w hcount hstatus hdeal
    refine ⟨?_, ?_, ?_⟩
    · intro i
      by_cases hid : i = id
      · subst hid
        rw [w.deal_self]
        exact hstatus
      · rw [w.deal_of_ne hid]
        exact hgrace i
    · exact w.beyond (P := fun d => ∀ p, (d.shardAllocations p).sizeGB = 0) hsizes hcount hdeal
    · rw [w.dealCount]
      exact hcount
  cases e with
  | idle _ books _ =>
    rw [books.deals, books.dealCount]
    exact ⟨hgrace, hsizes, Nat.le_refl _⟩
  | created _ _ _ _ _ _ _ wrote =>
    -- the status of a new deal is active
    refine kept wrote (Nat.le_succ _) ?_ (fun hle => absurd hle (Nat.not_succ_le_self _))
    rw [createdDeal, Deal.assignShards_eq]
    simp [Deal.fill]
  | renewed deal_eq _ _ _ wrote =>
    subst deal_eq
    exact kept wrote (Nat.le_refl _) (by simp) (hsizes _)
  | completed deal_eq _ _ _ _ wrote | cancelled deal_eq _ _ _ wrote =>
    subst deal_eq
    refine kept wrote (Nat.le_refl _) (by simp) ?_
    intro hle p
    exact (Deal.sizeGB_cleared _ _ p).trans (hsizes _ hle p)
  | lost deal_eq _ _ _ _ wrote =>
    subst deal_eq
    refine kept wrote (Nat.le_refl _) (hgrace _) ?_
    intro hle p
    exact (Deal.sizeGB_without _ _ p).trans (hsizes _ hle p)
  | failed deal_eq _ _ _ _ _ wrote =>
    subst deal_eq
    refine kept wrote (Nat.le_refl _) (by simp) ?_
    intro hle p
    exact (Deal.sizeGB_without _ _ p).trans (hsizes _ hle p)
  | @repaired dealId old new cid deal _ _ deal_eq _ _ _ _ wrote =>
    subst deal_eq
    refine kept wrote (Nat.le_refl _) (hgrace _) ?_
    intro hle p
    -- the new provider gets the size that the old one had, which is none beyond the counter
    by_cases hnew : p = new
    · subst hnew
      rw [repairedDeal_new]
      exact hsizes _ hle old
    · by_cases hold : p = old
      · subst hold
        simp [repairedDeal, hnew]
      · rw [repairedDeal_other hnew hold]
        exact hsizes _ hle p
  | retrieving _ _ market | claimed _ _ market | withdrawn _ market =>
    rw [market]
    exact ⟨hgrace, hsizes, Nat.le_refl _⟩

/-- The pledges' part of `WellKept`. -/
theorem wellKept_pledges {this : Address} {s s' : PledgeSystem} {b : PledgeAction this}
    (h : ∀ p id, s.pledges.pledgeCount p ≤ id → (s.pledges.pledges p id).active = false)
    (e : PledgeEffect this s b s') :
    ∀ p id, s'.pledges.pledgeCount p ≤ id → (s'.pledges.pledges p id).active = false := by
  cases e with
  | idle _ _ books _ =>
    rw [books.pledges, books.pledgeCount]
    exact h
  | created _ _ _ _ _ _ pledges pledgeCount =>
    intro p id hid
    rw [pledgeCount] at hid
    rw [pledges, update_update_apply]
    by_cases hp : p = b.msg.sender
    · subst hp
      rw [Function.update_self] at hid
      rw [if_neg (by omega)]
      exact h _ id (by omega)
    · rw [Function.update_of_ne hp] at hid
      rw [if_neg (by simp [hp])]
      exact h p id hid
  | ended pledge_eq _ _ _ pledges pledgeCount =>
    intro p id hid
    rw [pledgeCount] at hid
    rw [pledges, update_update_apply]
    split
    · rfl
    · exact h p id hid
  | utilized pledge_eq _ _ _ _ pledges pledgeCount =>
    subst pledge_eq
    intro p id hid
    rw [pledgeCount] at hid
    rw [pledges, update_update_apply]
    split
    · next heq =>
      obtain ⟨rfl, rfl⟩ := heq
      exact h p id hid
    · exact h p id hid

/-- Creations are numbered before they are made. -/
theorem numbered_step (ho : WellKept n hist) (hstep : n.step sites a = .ok (n', logs))
    (hle : n.market.dealCount ≤ n'.market.dealCount) :
    ∀ c ∈ hist ++ [⟨n, a, logs, n'⟩], ∀ params, c.act.call = .base (.market (.createDeal params)) →
      c.pre.market.dealCount < n'.market.dealCount := by
  intro c hc params hparams
  rcases List.mem_append.mp hc with hc | hc
  · exact (ho.numbered c hc params hparams).trans_le hle
  · obtain rfl := List.mem_singleton.mp hc
    rcases step_market hstep with ⟨hother, -⟩ | ⟨call, l, hcall, -, heffect⟩
    · exact absurd hparams (hother _)
    · rw [hcall] at hparams
      injection hparams with hparams
      injection hparams with hparams
      subst hparams
      cases heffect with
      | idle noDeal => cases noDeal
      | created _ _ _ _ _ _ _ wrote =>
        show n.market.dealCount < n'.market.dealCount
        rw [wrote.dealCount]
        exact Nat.lt_succ_self _

/-- Every call keeps the books of deals and pledges. -/
theorem wellKept_step (ho : WellKept n hist) (hstep : n.step sites a = .ok (n', logs)) :
    WellKept n' (hist ++ [⟨n, a, logs, n'⟩]) := by
  have hmarket : (∀ id, (n'.market.deals id).status ≠ .InGracePeriod) ∧
      (∀ id, n'.market.dealCount ≤ id → ∀ p, ((n'.market.deals id).shardAllocations p).sizeGB = 0) ∧
      n.market.dealCount ≤ n'.market.dealCount := by
    rcases step_market hstep with ⟨-, hsame⟩ | ⟨c, l, -, -, heffect⟩
    · rw [hsame]
      exact ⟨ho.noGrace, ho.sizes, Nat.le_refl _⟩
    · exact wellKept_market ho.noGrace ho.sizes heffect
  have hpledges : ∀ p id, n'.pledges.pledgeCount p ≤ id → (n'.pledges.pledges p id).active = false := by
    cases networkStep_of_ok hstep with
    | @pledge c token pledges paid l call done =>
      exact wellKept_pledges ho.pledges (@pledgeStep_effect sites.pledges ⟨n.token, n.pledges⟩ token paid
        (a.onPledges c) c pledges l rfl done).1
    | market call _ | token call _ | registry call _ => exact ho.pledges
    | distributor call done =>
      rw [(distributorStep_frame done).2.2]
      exact ho.pledges
  exact ⟨hmarket.1, hmarket.2.1, hpledges, numbered_step ho hstep hmarket.2.2⟩

/-- Assignments respect what the providers offer: capacity and price. -/
structure TermsRespected (n : Network) (hist : List (NetworkEntry sites)) : Prop where
  capacity : WithinCapacity n
  prices : PricesMet n hist

/-- The call leaves capacity, and pays what is asked for. -/
structure RespectsTerms (n : Network) (hist : List (NetworkEntry sites)) (a : NetworkAction sites) : Prop where
  capacity : CapacityLeft n a
  price : PriceEnough n hist a

/-- The network in which the contract of pledges has just been deployed. -/
def Network.withNewPledges (n : Network) (msg : Msg) : Network := { n with pledges := .deploy msg }

/-- **Provider terms, exactly.** From the deployment of the marketplace and the contract of pledges on, assignments
respect the providers' terms in every state of a run if and only if every call that goes through leaves enough capacity
and pays what is asked for. -/
theorem terms_iff (n : Network) (msg pledgesMsg : Msg) (treasury : Address) (as : List (NetworkAction sites)) :
    (∀ bs, bs <+: as →
        TermsRespected (run (Network.step sites) ((n.withNewMarket msg treasury).withNewPledges pledgesMsg) bs)
          (history (Network.step sites) ((n.withNewMarket msg treasury).withNewPledges pledgesMsg) bs)) ↔
      ∀ bs a, bs ++ [a] <+: as →
        Succeeds (Network.step sites)
          (run (Network.step sites) ((n.withNewMarket msg treasury).withNewPledges pledgesMsg) bs) a →
        RespectsTerms (run (Network.step sites) ((n.withNewMarket msg treasury).withNewPledges pledgesMsg) bs)
          (history (Network.step sites) ((n.withNewMarket msg treasury).withNewPledges pledgesMsg) bs) a := by
  apply lookback_iff (I := WellKept)
  · refine ⟨?_, ?_⟩
    · intro p
      exact Nat.zero_le _
    · intro c hc
      cases hc
  · refine ⟨?_, ?_, ?_, ?_⟩
    · intro id hstatus
      cases hstatus
    · exact fun _ _ _ => rfl
    · exact fun _ _ _ => rfl
    · intro c hc
      cases hc
  · exact fun _ _ _ _ _ ho hstep => wellKept_step ho hstep
  · intro n hist a n' logs ho h hstep
    constructor
    · intro h'
      exact ⟨(within_step_iff ho h.capacity hstep).mp h'.capacity, (prices_step_iff ho h.prices hstep).mp h'.prices⟩
    · intro hterms
      exact ⟨(within_step_iff ho h.capacity hstep).mpr hterms.capacity,
        (prices_step_iff ho h.prices hstep).mpr hterms.price⟩

end Runs

namespace SmallNetwork

/-- None of the fifteen providers of the deal has pledged anything. -/
theorem created_beyond_capacity :
    ¬ TermsRespected (run (Network.step sites) deployed (created SmallMarket.params))
      (history (Network.step sites) deployed (created SmallMarket.params)) := by
  intro hterms
  have hcapacity := hterms.capacity (SmallMarket.provider 0).addr
  revert hcapacity
  decide +kernel

end SmallNetwork

end Kyneto
