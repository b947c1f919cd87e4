import Kyneto.PaymentDistributor.Settlement

/-!
# Usage rewards of one deal, again

The distributor keeps no record of the deals it has paid. A completed deal never changes, so a call that went
through once goes through again as long as the owner makes it and the balance covers the deal's pool, and it
books the fee and the reserve each time. `paidOnce_iff` says that nothing else stops it.
-/

namespace Kyneto

open Evm

section Definitions

variable {sites : Sites}

/-- The call pays usage rewards of the deal, and the books of the distributor change. -/
def ChangesUsage (dealId : Nat) (e : NetworkEntry sites) : Prop :=
  e.act.call = .distributor (.distributeUsageRewards dealId) ∧
    (e.post.distributor.earnings ≠ e.pre.distributor.earnings ∨
      e.post.distributor.protocolFeeCollected ≠ e.pre.distributor.protocolFeeCollected ∨
      e.post.distributor.repairReserve ≠ e.pre.distributor.repairReserve)

/-- No deal's usage rewards change the books twice. -/
def PaidOnce (hist : List (NetworkEntry sites)) : Prop :=
  hist.Pairwise fun e e' => ∀ dealId, ¬ (ChangesUsage dealId e ∧ ChangesUsage dealId e')

/-- A call for a deal that was paid already does not come from the owner, or it finds a balance below the
deal's pool, or a counter that is full. -/
def Refused (sites : Sites) (n : Network) (hist : List (NetworkEntry sites)) (a : NetworkAction sites) :
    Prop :=
  match a.call with
  | .distributor (.distributeUsageRewards dealId) =>
    (∃ e ∈ hist, ChangesUsage dealId e) →
      a.msg.sender ≠ n.distributor.owner ∨
        n.token.balanceOf sites.distributor < providerPool (n.market.deals dealId).totalCost ∨
        uint256Size ≤ n.distributor.protocolFeeCollected +
          (n.market.deals dealId).totalCost * PROTOCOL_FEE_RATE / 10000 ∨
        uint256Size ≤ n.distributor.repairReserve +
          (n.market.deals dealId).totalCost * RESERVE_RATE / 10000
  | _ => True

end Definitions

/-! ## Completed deals -/

/-- A deal the distributor pays for, and books something for. -/
structure Payable (deal : Deal) : Prop where
  completed : deal.status = .Completed
  shards : 10 ≤ deal.activeShards
  cost_lt : deal.totalCost * RESERVE_RATE < uint256Size
  cost_ge : 20 ≤ deal.totalCost

/-- A completion takes all listed shards out of service. -/
def Cleared (m : StorageMarketplace) : Prop :=
  ∀ id, (m.deals id).status = .Completed →
    ∀ p ∈ (m.deals id).providers, ((m.deals id).shardAllocations p).active = false

section Market

variable {sites : Sites} {n n' : Network} {a : NetworkAction sites} {c : MarketCall} {l : List Log}

theorem Cleared.of_wrote {m m' : StorageMarketplace} {id count fees : Nat} {deal : Deal}
    {pd : Address → List Nat} (h : Cleared m) (w : Wrote m m' id deal count fees pd)
    (hdeal : deal.status = .Completed → ∀ p ∈ deal.providers, (deal.shardAllocations p).active = false) :
    Cleared m' := by
  intro i
  by_cases hi : i = id
  · subst hi
    rw [w.deal_self]
    exact hdeal
  · rw [w.deal_of_ne hi]
    exact h i

/-- Every call of the marketplace keeps the shards of completed deals out of service. -/
theorem cleared_effect (h : Cleared n.market)
    (he : Effect sites.marketplace n.toSystem a.msg (.market c) n'.toSystem l) : Cleared n'.market := by
  cases he with
  | idle _ books _ =>
    unfold Cleared
    rw [books.deals]
    exact h
  | created _ _ _ _ _ _ _ wrote =>
    apply h.of_wrote wrote
    rw [createdDeal, Deal.assignShards_eq]
    intro hcompleted
    cases hcompleted
  | renewed _ _ _ _ wrote | cancelled _ _ _ _ wrote | failed _ _ _ _ _ _ wrote =>
    apply h.of_wrote wrote
    intro hcompleted
    cases hcompleted
  | completed deal_eq _ _ _ _ wrote =>
    subst deal_eq
    apply h.of_wrote wrote
    intro _ p hp
    have hp : p ∈ (n.market.deals _).providers := hp
    simp [Deal.withDropped, Deal.withShards, Deal.cleared, hp]
  | lost deal_eq _ isOpen _ _ wrote | repaired deal_eq _ isOpen _ _ wrote =>
    subst deal_eq
    apply h.of_wrote wrote
    intro hcompleted
    have hwas : (n.market.deals _).status = .Completed := hcompleted
    rw [hwas] at isOpen
    cases isOpen
  | retrieving _ _ market | claimed _ _ market | withdrawn _ market =>
    intro id
    have hsame : n'.market.deals id = n.market.deals id := by
      simp [market, StorageMarketplace.setRetrieval]
    rw [hsame]
    exact h id

/-- The marketplace only adds deals. -/
theorem dealCount_le_effect
    (he : Effect sites.marketplace n.toSystem a.msg (.market c) n'.toSystem l) :
    n.market.dealCount ≤ n'.market.dealCount := by
  cases he with
  | idle _ books _ => exact books.dealCount.ge
  | created _ _ _ _ _ _ _ wrote =>
    rw [wrote.dealCount]
    exact Nat.le_succ _
  | renewed _ _ _ _ wrote | completed _ _ _ _ _ wrote | cancelled _ _ _ _ wrote | lost _ _ _ _ _ wrote
  | failed _ _ _ _ _ _ wrote | repaired _ _ _ _ _ wrote => exact wrote.dealCount.ge
  | retrieving _ _ market | claimed _ _ market | withdrawn _ market =>
    simp [market, StorageMarketplace.setRetrieval]

/-- A created deal that is closed does not change: a creation fills the slot beyond. -/
theorem closed_kept {id : Nat} (hid : id < n.market.dealCount)
    (hclosed : (n.market.deals id).status.isOpen = false)
    (he : Effect sites.marketplace n.toSystem a.msg (.market c) n'.toSystem l) :
    n'.market.deals id = n.market.deals id := by
  rcases @effect_writes _ _ _ _ (a.onMarket c) he with ⟨-, hsame⟩ | ⟨i, hcall, hother, hopen, -⟩
  · rw [hsame]
  · apply hother
    rintro rfl
    have hslot : SlotOpen n.toSystem (a.onMarket c) := by
      unfold SlotOpen
      split
      · next params hcreate =>
        rw [hcreate] at hcall
        have hnext : n.market.dealCount = id := Option.some.inj hcall
        omega
      · trivial
    rw [hopen hslot] at hclosed
    cases hclosed

end Market

/-! ## A call for a completed deal -/

section Call

variable {sites : Sites} {n n' : Network} {msg : Msg} {dealId : Nat} {logs : List NetworkLog}

/-- Below the range of a word, the split of the usage cost does not overflow. -/
theorem usageSplit_of_cost_lt {totalCost : Nat} (h : totalCost * RESERVE_RATE < uint256Size) :
    usageSplit totalCost = .ok ⟨totalCost * PROTOCOL_FEE_RATE / 10000, totalCost * RESERVE_RATE / 10000,
      providerPool totalCost⟩ := by
  have hfee : totalCost * PROTOCOL_FEE_RATE < uint256Size :=
    Nat.lt_of_le_of_lt (Nat.mul_le_mul_left _ (by decide)) h
  simp only [usageSplit, bind_eq_ok, checkedMul_eq_ok, checkedSub_eq_ok, pure_eq_ok]
  refine ⟨_, ⟨hfee, rfl⟩, _, ⟨h, rfl⟩, _, ⟨?_, rfl⟩, _, ⟨?_, rfl⟩, rfl⟩
  · unfold PROTOCOL_FEE_RATE
    omega
  · unfold PROTOCOL_FEE_RATE RESERVE_RATE
    omega

/-- What a call that goes through found, and what it booked: the loop finds no shard in service. -/
theorem distributeUsageRewards_ok (hcleared : Cleared n.market)
    (h : n.distributeUsageRewards sites msg dealId = .ok (n', logs)) :
    (msg.sender = n.distributor.owner ∧ (n.market.deals dealId).status = .Completed ∧
      10 ≤ (n.market.deals dealId).activeShards ∧
      (n.market.deals dealId).totalCost * RESERVE_RATE < uint256Size ∧
      providerPool (n.market.deals dealId).totalCost ≤ n.token.balanceOf sites.distributor ∧
      n.distributor.protocolFeeCollected + (n.market.deals dealId).totalCost * PROTOCOL_FEE_RATE / 10000 <
        uint256Size ∧
      n.distributor.repairReserve + (n.market.deals dealId).totalCost * RESERVE_RATE / 10000 <
        uint256Size) ∧
    n' = { n with distributor := { n.distributor with
      protocolFeeCollected := n.distributor.protocolFeeCollected +
        (n.market.deals dealId).totalCost * PROTOCOL_FEE_RATE / 10000
      repairReserve := n.distributor.repairReserve +
        (n.market.deals dealId).totalCost * RESERVE_RATE / 10000 } } := by
  simp only [Network.distributeUsageRewards, bind_eq_ok, require_eq_ok, onlyOwner_eq_ok, checkedAdd_eq_ok,
    pure_eq_ok, Prod.exists, Prod.mk.injEq, exists_const] at h
  obtain ⟨howner, hcompleted, hshards, split, hsplit, hbalance, _, ⟨hfees, rfl⟩, _, ⟨hreserve, rfl⟩, d, _,
    hloop, rfl, -⟩ := h
  rw [PaymentDistributor.creditActive_of_inactive _ _ _ (hcleared dealId hcompleted)] at hloop
  obtain ⟨rfl, -⟩ := Prod.mk.inj (Except.ok.inj hloop)
  have hcost : (n.market.deals dealId).totalCost * RESERVE_RATE < uint256Size := by
    simp only [usageSplit, bind_eq_ok, checkedMul_eq_ok] at hsplit
    obtain ⟨_, -, _, ⟨hlt, -⟩, -⟩ := hsplit
    exact hlt
  obtain rfl := usageSplit_eq hsplit
  exact ⟨⟨howner, hcompleted, hshards, hcost, hbalance, hfees, hreserve⟩, rfl⟩

/-- A payable deal is paid whenever the owner asks, the balance covers its pool and the counters have room. -/
theorem distributeUsageRewards_succeeds (hcleared : Cleared n.market)
    (hpay : Payable (n.market.deals dealId)) (howner : msg.sender = n.distributor.owner)
    (hbalance : providerPool (n.market.deals dealId).totalCost ≤ n.token.balanceOf sites.distributor)
    (hfees : n.distributor.protocolFeeCollected +
      (n.market.deals dealId).totalCost * PROTOCOL_FEE_RATE / 10000 < uint256Size)
    (hreserve : n.distributor.repairReserve + (n.market.deals dealId).totalCost * RESERVE_RATE / 10000 <
      uint256Size) :
    ∃ r, n.distributeUsageRewards sites msg dealId = .ok r := by
  have hloop := fun d reward => PaymentDistributor.creditActive_of_inactive d dealId reward
    (hcleared dealId hpay.completed)
  simp only [Network.distributeUsageRewards, bind_eq_ok, require_eq_ok, onlyOwner_eq_ok, checkedAdd_eq_ok,
    pure_eq_ok, exists_const]
  exact ⟨_, howner, hpay.completed, hpay.shards, _, usageSplit_of_cost_lt hpay.cost_lt, hbalance, _,
    ⟨hfees, rfl⟩, _, ⟨hreserve, rfl⟩, _, hloop _ _, rfl⟩

/-- A call that goes through changes the books exactly if the deal costs enough for a reserve. -/
theorem changesUsage_iff {a : NetworkAction sites} (hcleared : Cleared n.market)
    (hcall : a.call = .distributor (.distributeUsageRewards dealId))
    (h : n.distributeUsageRewards sites a.msg dealId = .ok (n', logs)) :
    ChangesUsage dealId ⟨n, a, logs, n'⟩ ↔ 20 ≤ (n.market.deals dealId).totalCost := by
  obtain ⟨-, rfl⟩ := distributeUsageRewards_ok hcleared h
  simp only [ChangesUsage, hcall, true_and, PROTOCOL_FEE_RATE, RESERVE_RATE, ne_eq, not_true_eq_false,
    false_or]
  omega

end Call

/-! ## Runs -/

section Runs

variable {sites : Sites} {n n' : Network} {hist : List (NetworkEntry sites)} {a : NetworkAction sites}
  {logs : List NetworkLog}

/-- What every run keeps: a deal that was paid is a created one, and can be paid again. -/
structure Settled (n : Network) (hist : List (NetworkEntry sites)) : Prop where
  money : DealMoney n.market hist
  cleared : Cleared n.market
  payable : ∀ id, (∃ e ∈ hist, ChangesUsage id e) →
    id < n.market.dealCount ∧ Payable (n.market.deals id)

/-- What was paid before stays payable: the market does not change closed deals. -/
theorem Settled.payable_step {id : Nat} (h : Settled n hist) (hstep : n.step sites a = .ok (n', logs))
    (hbefore : ∃ e ∈ hist, ChangesUsage id e) :
    id < n'.market.dealCount ∧ Payable (n'.market.deals id) := by
  obtain ⟨hid, hpay⟩ := h.payable id hbefore
  rcases step_market hstep with ⟨-, hmarket⟩ | ⟨c, l, -, -, he⟩
  · rw [hmarket]
    exact ⟨hid, hpay⟩
  · have hclosed : (n.market.deals id).status.isOpen = false := by
      rw [hpay.completed]
      rfl
    rw [closed_kept hid hclosed he]
    exact ⟨Nat.lt_of_lt_of_le hid (dealCount_le_effect he), hpay⟩

/-- The call itself: it goes through for a completed deal, and changes something if the deal costs enough. -/
theorem Settled.payable_of_changes {id : Nat} (h : Settled n hist) (hstep : n.step sites a = .ok (n', logs))
    (hchanges : ChangesUsage id ⟨n, a, logs, n'⟩) :
    id < n'.market.dealCount ∧ Payable (n'.market.deals id) := by
  have hcall : a.call = .distributor (.distributeUsageRewards id) := hchanges.1
  simp only [Network.step, hcall] at hstep
  have hcost := (changesUsage_iff h.cleared hcall hstep).mp hchanges
  obtain ⟨⟨-, hcompleted, hshards, hlt, -⟩, -⟩ := distributeUsageRewards_ok h.cleared hstep
  have hid : id < n.market.dealCount := by
    by_contra hge
    rw [h.money.free id (Nat.le_of_not_lt hge)] at hcost
    omega
  rw [(distributorStep_frame hstep).1]
  exact ⟨hid, hcompleted, hshards, hlt, hcost⟩

/-- One more call, and what was paid can still be paid again. -/
theorem settled_step (h : Settled n hist) (hstep : n.step sites a = .ok (n', logs)) :
    Settled n' (hist ++ [⟨n, a, logs, n'⟩]) := by
  refine ⟨dealMoney_step h.money hstep, ?_, ?_⟩
  · rcases step_market hstep with ⟨-, hmarket⟩ | ⟨c, l, -, -, he⟩
    · rw [hmarket]
      exact h.cleared
    · exact cleared_effect h.cleared he
  · rintro id ⟨e, he, hchanges⟩
    rcases List.mem_append.mp he with he | he
    · exact h.payable_step hstep ⟨e, he, hchanges⟩
    · obtain rfl := List.mem_singleton.mp he
      exact h.payable_of_changes hstep hchanges

theorem settled_deployV2 {msg : Msg} {slashing : Address} (h : Network.deployV2 sites msg slashing = .ok n) :
    Settled n ([] : List (NetworkEntry sites)) := by
  refine ⟨dealMoney_run h [], ?_, ?_⟩
  · rw [deployV2_market h]
    intro id hcompleted
    cases hcompleted
  · rintro id ⟨e, he, -⟩
    cases he

theorem PaidOnce.of_prefix {hist' : List (NetworkEntry sites)} (h : PaidOnce hist) (hle : hist' <+: hist) :
    PaidOnce hist' :=
  List.Pairwise.sublist hle.sublist h

/-- One more call that goes through: if it is for a deal that was paid, the deal is paid again. -/
theorem paidOnce_snoc_iff (hs : Settled n hist) (honce : PaidOnce hist)
    (hstep : n.step sites a = .ok (n', logs)) :
    PaidOnce (hist ++ [⟨n, a, logs, n'⟩]) ↔ Refused sites n hist a := by
  unfold PaidOnce at honce ⊢
  rw [List.pairwise_append]
  constructor
  · rintro ⟨-, -, hnew⟩
    unfold Refused
    split
    · next dealId hcall =>
      rintro ⟨e, he, hchanges⟩
      obtain ⟨-, hpay⟩ := hs.payable dealId ⟨e, he, hchanges⟩
      have hcalled := hstep
      simp only [Network.step, hcall] at hcalled
      have hagain := (changesUsage_iff hs.cleared hcall hcalled).mpr hpay.cost_ge
      exact absurd ⟨hchanges, hagain⟩ (hnew e he _ (List.mem_singleton_self _) dealId)
    · trivial
  · intro hrefused
    refine ⟨honce, List.pairwise_singleton _ _, ?_⟩
    rintro e he e' he' dealId ⟨hbefore, hagain⟩
    obtain rfl := List.mem_singleton.mp he'
    have hcall : a.call = .distributor (.distributeUsageRewards dealId) := hagain.1
    simp only [Network.step, hcall] at hstep
    obtain ⟨⟨howner, -, -, -, hbalance, hfees, hreserve⟩, -⟩ := distributeUsageRewards_ok hs.cleared hstep
    simp only [Refused, hcall] at hrefused
    rcases hrefused ⟨e, he, hbefore⟩ with hsender | hpoor | hfull | hfull
    · exact hsender howner
    · omega
    · omega
    · omega

/-- A call that reverts was either for a deal that had not been paid, or it was refused. -/
theorem refused_of_error (hs : Settled n hist) (h : ¬ Succeeds (Network.step sites) n a) :
    Refused sites n hist a := by
  unfold Refused
  split
  · next dealId hcall =>
    intro hbefore
    obtain ⟨-, hpay⟩ := hs.payable dealId hbefore
    by_contra hpaid
    simp only [not_or, not_not, not_lt, not_le, ne_eq] at hpaid
    obtain ⟨howner, hbalance, hfees, hreserve⟩ := hpaid
    apply h
    unfold Succeeds Network.step
    rw [hcall]
    exact distributeUsageRewards_succeeds hs.cleared hpay howner hbalance hfees hreserve
  · trivial

/-- **Usage rewards are booked once a deal exactly if every later call for it is refused**, by its sender, by
the balance or by a full counter. -/
theorem paidOnce_iff {n₀ : Network} {msg : Msg} {slashing : Address}
    (h : Network.deployV2 sites msg slashing = .ok n₀) (as : List (NetworkAction sites)) :
    PaidOnce (history (Network.step sites) n₀ as) ↔
      ∀ bs a, bs ++ [a] <+: as →
        Refused sites (run (Network.step sites) n₀ bs) (history (Network.step sites) n₀ bs) a := by
  have hrun : (∀ bs, bs <+: as → PaidOnce (history (Network.step sites) n₀ bs)) ↔
      ∀ bs a, bs ++ [a] <+: as → Succeeds (Network.step sites) (run (Network.step sites) n₀ bs) a →
        Refused sites (run (Network.step sites) n₀ bs) (history (Network.step sites) n₀ bs) a :=
    lookback_iff (P := fun _ hist => PaidOnce hist) (I := Settled) (C := Refused sites)
      List.Pairwise.nil (settled_deployV2 h) (fun _ _ _ _ _ hs hstep => settled_step hs hstep)
      (fun _ _ _ _ _ hs honce hstep => paidOnce_snoc_iff hs honce hstep) as
  constructor
  · intro honce bs a hbs
    by_cases hsucceeds : Succeeds (Network.step sites) (run (Network.step sites) n₀ bs) a
    · refine hrun.mp ?_ bs a hbs hsucceeds
      rintro cs ⟨ds, rfl⟩
      rw [history_append] at honce
      exact honce.of_prefix (List.prefix_append _ _)
    · refine refused_of_error ?_ hsucceeds
      exact run_induction (P := Settled) (C := fun _ _ => True) (settled_deployV2 h)
        (fun _ _ _ _ _ hs _ hstep => settled_step hs hstep) bs (meets_true n₀ bs)
  · intro hall
    exact hrun.mpr (fun bs a hbs _ => hall bs a hbs) as (List.prefix_refl as)

end Runs

/-! ### In the small network -/

namespace SmallNetwork

/-- A deal whose counter ten repairs have raised, so that it still counts ten shards after its completion. -/
def completedInflated : List (NetworkAction sites) :=
  created SmallMarket.params ++
    ((List.finRange 10).map fun _ =>
      account 0 0 (.base (.market (.repairShard 0 50 (SmallMarket.provider 0).addr "QmShard")))) ++
    [completion]

def usageCall : NetworkAction sites := account 0 (30 * DAY) (.distributor (.distributeUsageRewards 0))

/-- The call is for the deal and raises the fees. -/
def raisesFees (e : NetworkEntry sites) : Bool :=
  match e.act.call with
  | .distributor (.distributeUsageRewards 0) =>
    e.post.distributor.protocolFeeCollected ≠ e.pre.distributor.protocolFeeCollected
  | _ => false

theorem changesUsage_of_raisesFees {e : NetworkEntry sites} (h : raisesFees e = true) : ChangesUsage 0 e := by
  unfold raisesFees at h
  split at h
  · next hcall => exact ⟨hcall, Or.inr (Or.inl (of_decide_eq_true h))⟩
  · cases h

end SmallNetwork

section Concrete

open SmallNetwork

/-- In the example, one call for the usage pays once. -/
theorem paidOnce_single :
    PaidOnce (history (Network.step sites) deployed (completedInflated ++ [usageCall])) := by
  apply (paidOnce_iff deployV2_eq (completedInflated ++ [usageCall])).mpr
  have hother : ∀ a ∈ completedInflated, ∀ dealId, a.call ≠ .distributor (.distributeUsageRewards dealId) := by
    intro a ha dealId
    simp only [completedInflated, created, List.mem_append, List.mem_map, List.mem_cons, List.not_mem_nil,
      or_false] at ha
    rcases ha with ((((rfl | rfl) | ⟨i, -, rfl⟩) | rfl) | ⟨i, -, rfl⟩) | rfl <;>
      exact fun hcall => by cases hcall
  intro bs a hbs
  unfold Refused
  split
  · next dealId hcall =>
    rw [List.prefix_concat_iff] at hbs
    rcases hbs with heq | hearlier
    · obtain ⟨rfl, -⟩ := List.append_inj' heq rfl
      rintro ⟨e, he, hchanges⟩
      exact absurd hchanges.1 (hother _ (act_mem_of_history he) dealId)
    · have hmem : a ∈ completedInflated := hearlier.subset (by simp)
      exact absurd hcall (hother a hmem dealId)
  · trivial

/-- The owner calls twice, and both calls book the fee. -/
theorem usageCall_paid_twice :
    ((history (Network.step sites) deployed (completedInflated ++ [usageCall, usageCall])).filter
        raisesFees).length = 2 ∧
      ¬ PaidOnce (history (Network.step sites) deployed (completedInflated ++ [usageCall, usageCall])) := by
  refine ⟨by decide +kernel, ?_⟩
  intro honce
  have hfees : (history (Network.step sites) deployed (completedInflated ++ [usageCall, usageCall])).Pairwise
      fun e e' => ¬ (raisesFees e = true ∧ raisesFees e' = true) := by
    apply List.Pairwise.imp _ honce
    rintro e e' hnot ⟨he, he'⟩
    exact hnot 0 ⟨changesUsage_of_raisesFees he, changesUsage_of_raisesFees he'⟩
  revert hfees
  decide +kernel

end Concrete

end Kyneto
