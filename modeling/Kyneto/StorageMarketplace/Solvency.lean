import Kyneto.StorageMarketplace.Effect

/-!
# Solvency

The marketplace owes the fees it has collected, the escrow of every open deal and the amount of
every retrieval nobody has claimed yet (`liabilities`). It is solvent while its token balance covers
all of them.

Creation and renewal count the protocol fee twice: the client pays payment plus fee once, the fee is
added to `totalFeesCollected`, and payment plus fee together become the escrow that a cancelled or
failed deal pays back. Each such call therefore uses up as much surplus as the fee it charges, and no
other call uses up any. `solvent_along_iff` makes this exact: a run stays solvent if and only if every
fee it charges is covered by a surplus that was there before.

First come the slots beyond the counters, which hold no money and belong to nobody.
-/

namespace Kyneto

open Evm

/-! ## Slots beyond the counters -/

/-- No client and no money in the slots no deal has been created in, and nothing at all in the
slots of retrievals to come. (Shards there can be: `repairShard` does not ask whether the deal
exists.) -/
structure Blank (m : StorageMarketplace) : Prop where
  client : ∀ id, m.dealCount ≤ id → (m.deals id).client = 0
  escrow : ∀ id, m.dealCount ≤ id → (m.deals id).escrowedAmount = 0
  retrieval : ∀ id, m.retrievalCount ≤ id → m.retrievals id = {}

theorem blank_deploy (msg : Msg) (treasury : Address) :
    Blank (StorageMarketplace.deploy msg treasury) :=
  ⟨fun _ _ => rfl, fun _ _ => rfl, fun _ _ => rfl⟩

theorem Blank.of_sameBooks {m m' : StorageMarketplace} (h : Blank m) (hb : SameBooks m m') :
    Blank m' where
  client := by rw [hb.deals, hb.dealCount]; exact h.client
  escrow := by rw [hb.deals, hb.dealCount]; exact h.escrow
  retrieval := by rw [hb.retrievals, hb.retrievalCount]; exact h.retrieval

/-- Writing a deal keeps the slots blank if the deal is a created one, or stays without client and
money. -/
theorem Blank.of_wrote {m m' : StorageMarketplace} {id n fees : Nat} {deal : Deal}
    {pd : Address → List Nat} (h : Blank m) (w : Wrote m m' id deal n fees pd)
    (hn : m.dealCount ≤ n) (hc : n ≤ id → deal.client = 0)
    (he : n ≤ id → deal.escrowedAmount = 0) : Blank m' where
  client := w.beyond (P := fun d => d.client = 0) h.client hn hc
  escrow := w.beyond (P := fun d => d.escrowedAmount = 0) h.escrow hn he
  retrieval := by
    rw [w.retrievals, w.retrievalCount]
    exact h.retrieval

/-- A deal with a client has been created. -/
theorem Blank.created_of_client {m : StorageMarketplace} (h : Blank m) {id : Nat}
    {sender : Address} (hz : sender ≠ 0) (hc : (m.deals id).client = sender) :
    id < m.dealCount := by
  by_contra hge
  exact hz (hc.symm.trans (h.client id (Nat.le_of_not_lt hge)))

/-- Only providers named in a retrieval can claim it, so what is claimed has been initiated. -/
theorem Blank.initiated_of_provider {m : StorageMarketplace} (h : Blank m) {id : Nat}
    {sender : Address} (hz : sender ≠ 0) (hp : sender = (m.retrievals id).provider) :
    id < m.retrievalCount := by
  by_contra hge
  rw [h.retrieval id (Nat.le_of_not_lt hge)] at hp
  exact hz hp

/-- Whatever happens, slots that are not in use stay blank. -/
theorem blank_effect {this : Address} {s s' : System} {msg : Msg} {call : Call} {logs : List Log}
    (hz : msg.sender ≠ 0) (h : Blank s.market) (e : Effect this s msg call s' logs) :
    Blank s'.market := by
  cases e with
  | idle _ books _ => exact h.of_sameBooks books
  | created _ _ _ _ _ _ _ wrote =>
    exact h.of_wrote wrote (Nat.le_succ _) (fun hle => absurd hle (Nat.not_succ_le_self _))
      (fun hle => absurd hle (Nat.not_succ_le_self _))
  -- only a client can renew or cancel, so the deal has been created
  | renewed deal_eq _ client _ wrote =>
    subst deal_eq
    have hlt := h.created_of_client hz client
    exact h.of_wrote wrote (Nat.le_refl _) (fun hge => h.client _ hge)
      (fun hge => absurd hlt (Nat.not_lt.mpr hge))
  -- these write the slot with the client that it has, or nobody, and owe nothing afterwards
  | completed deal_eq _ _ _ _ wrote | failed deal_eq _ _ _ _ _ wrote =>
    subst deal_eq
    exact h.of_wrote wrote (Nat.le_refl _) (fun hge => h.client _ hge) (fun _ => rfl)
  | cancelled deal_eq _ client _ wrote =>
    subst deal_eq
    have hlt := h.created_of_client hz client
    exact h.of_wrote wrote (Nat.le_refl _) (fun hge => h.client _ hge)
      (fun hge => absurd hlt (Nat.not_lt.mpr hge))
  | lost deal_eq _ _ _ _ wrote | repaired deal_eq _ _ _ _ wrote =>
    subst deal_eq
    exact h.of_wrote wrote (Nat.le_refl _) (fun hge => h.client _ hge) (fun hge => h.escrow _ hge)
  | retrieving _ _ market =>
    rw [market]
    refine ⟨h.client, h.escrow, ?_⟩
    intro id hid
    have hne : id ≠ s.market.retrievalCount := Nat.ne_of_gt hid
    simpa [StorageMarketplace.setRetrieval, hne] using h.retrieval id (Nat.le_of_lt hid)
  -- only the provider of a retrieval can claim it, so it has been opened
  | @claimed retrievalId _ _ _ provider market =>
    have hlt := h.initiated_of_provider hz provider
    rw [market]
    refine ⟨h.client, h.escrow, ?_⟩
    intro id hid
    have hne : id ≠ retrievalId := by
      have : s.market.retrievalCount ≤ id := hid
      omega
    simpa [StorageMarketplace.setRetrieval, hne] using h.retrieval id hid
  | withdrawn _ market =>
    rw [market]
    exact ⟨h.client, h.escrow, h.retrieval⟩

/-! ## What the marketplace owes -/

/-- The escrow a deal still has a claim to: all of it while the deal is open. -/
def Deal.owed (deal : Deal) : Nat := if deal.status.isOpen then deal.escrowedAmount else 0

/-- The amount a retrieval still has a claim to. -/
def Retrieval.owed (r : Retrieval) : Nat := if r.completed then 0 else r.amount

def liabilities (m : StorageMarketplace) : Nat :=
  m.totalFeesCollected + ∑ id ∈ Finset.range m.dealCount, (m.deals id).owed +
    ∑ id ∈ Finset.range m.retrievalCount, (m.retrievals id).owed

theorem Deal.owed_le (deal : Deal) : deal.owed ≤ deal.escrowedAmount := by
  unfold Deal.owed
  split
  · exact Nat.le_refl _
  · exact Nat.zero_le _

theorem Deal.owed_of_isOpen {deal : Deal} (h : deal.status.isOpen = true) :
    deal.owed = deal.escrowedAmount := by
  simp [Deal.owed, h]

theorem liabilities_of_sameBooks {m m' : StorageMarketplace} (h : SameBooks m m') :
    liabilities m' = liabilities m := by
  simp only [liabilities, h.totalFeesCollected, h.dealCount, h.deals, h.retrievalCount,
    h.retrievals]

/-- Writing a deal changes what is owed by the change of that deal and of the fees. -/
theorem liabilities_of_wrote {m m' : StorageMarketplace} {id fees : Nat} {deal : Deal}
    {pd : Address → List Nat} (w : Wrote m m' id deal m.dealCount fees pd)
    (hold : m.dealCount ≤ id → (m.deals id).owed = 0) (hnew : m.dealCount ≤ id → deal.owed = 0) :
    liabilities m' + (m.deals id).owed + m.totalFeesCollected =
      liabilities m + deal.owed + fees := by
  have hsum : (fun i => (Function.update m.deals id deal i).owed) =
      Function.update (fun i => (m.deals i).owed) id deal.owed :=
    Function.comp_update Deal.owed m.deals id deal
  simp only [liabilities, w.totalFeesCollected, w.dealCount, w.deals, w.retrievals,
    w.retrievalCount, hsum]
  by_cases hid : id < m.dealCount
  · have := sum_range_update (fun i => (m.deals i).owed) deal.owed hid
    omega
  · have hge := Nat.le_of_not_lt hid
    rw [sum_range_update_of_le _ _ hge, hold hge, hnew hge]
    omega

/-- Filling the next slot adds the new deal to what is owed. -/
theorem liabilities_of_created {m m' : StorageMarketplace} {fees : Nat} {deal : Deal}
    {pd : Address → List Nat} (w : Wrote m m' m.dealCount deal (m.dealCount + 1) fees pd) :
    liabilities m' + m.totalFeesCollected = liabilities m + deal.owed + fees := by
  have hsum := sum_range_update_next Deal.owed m.deals m.dealCount deal
  simp only [liabilities, w.totalFeesCollected, w.dealCount, w.deals, w.retrievals,
    w.retrievalCount, Finset.sum_range_succ, hsum, Function.update_self]
  omega

/-- A new retrieval is added to what is owed. -/
theorem liabilities_initiate (m : StorageMarketplace) {m' : StorageMarketplace} {r : Retrieval}
    (h : m' = { m.setRetrieval m.retrievalCount r with retrievalCount := m.retrievalCount + 1 }) :
    liabilities m' = liabilities m + r.owed := by
  subst h
  have hsum := sum_range_update_next Retrieval.owed m.retrievals m.retrievalCount r
  simp only [liabilities, StorageMarketplace.setRetrieval, Finset.sum_range_succ, hsum,
    Function.update_self]
  omega

/-- A claimed retrieval is no longer owed. -/
theorem liabilities_claim (m : StorageMarketplace) {m' : StorageMarketplace} {id : Nat}
    (hid : id < m.retrievalCount)
    (h : m' = m.setRetrieval id { m.retrievals id with completed := true }) :
    liabilities m' + (m.retrievals id).owed = liabilities m := by
  subst h
  have hsum : (fun i => (Function.update m.retrievals id
      { m.retrievals id with completed := true } i).owed) =
        Function.update (fun i => (m.retrievals i).owed) id 0 :=
    Function.comp_update Retrieval.owed m.retrievals id _
  have := sum_range_update (fun i => (m.retrievals i).owed) 0 hid
  simp only [liabilities, StorageMarketplace.setRetrieval, hsum]
  omega

theorem Retrieval.owed_of_pending {r : Retrieval} (h : r.completed = false) :
    r.owed = r.amount := by
  simp [Retrieval.owed, h]

/-- A closed deal is owed nothing, whatever its escrow says. -/
theorem Deal.owed_of_closed {deal : Deal} (h : deal.status.isOpen = false) : deal.owed = 0 := by
  simp [Deal.owed, h]

theorem Deal.owed_withShards (deal : Deal) (allocs : Address → ShardAllocation) (n : Nat) :
    (deal.withShards allocs n).owed = deal.owed := rfl

theorem owed_repairedDeal (deal : Deal) (oldProvider newProvider : Address) (cid : String) :
    (repairedDeal deal oldProvider newProvider cid).owed = deal.owed := rfl

theorem owed_createdDeal (m : StorageMarketplace) (msg : Msg) (params : DealParams)
    (price totalCost endTime : Nat) :
    (createdDeal m msg params price totalCost endTime).owed = totalCost := by
  rw [createdDeal, Deal.assignShards_eq]
  rfl

/-! ## Solvency -/

/-- The marketplace is able to transfer `value` tokens, to anyone. -/
def System.CanPay (this : Address) (s : System) (value : Nat) : Prop :=
  ∀ dst, dst ≠ 0 → ∃ r, s.token.transfer this dst value = .ok r

/-- The balance covers what is owed, so that the fees can be withdrawn, every open deal can be paid
back in full or in part, and every retrieval can be claimed. -/
structure Solvent (this : Address) (s : System) : Prop where
  covered : liabilities s.market ≤ s.token.balanceOf this
  fees : s.CanPay this s.market.totalFeesCollected
  refunds : ∀ id < s.market.dealCount, (s.market.deals id).status.isOpen = true →
    ∀ value ≤ (s.market.deals id).escrowedAmount, s.CanPay this value
  claims : ∀ id < s.market.retrievalCount, (s.market.retrievals id).completed = false →
    s.CanPay this (s.market.retrievals id).amount

/-- If the call charges a fee, the marketplace holds that much beyond what it owes before it. -/
def FeeCovered (this : Address) (s : System) (a : Action this) : Prop :=
  0 < (charged s.market a.call).fee →
    liabilities s.market + (charged s.market a.call).fee ≤ s.token.balanceOf this

section Solvency

variable {this : Address} {s s' : System}

theorem canPay_of_le (ht : this ≠ 0) {value : Nat} (h : value ≤ s.token.balanceOf this) :
    s.CanPay this value := by
  intro dst hd
  exact ⟨_, StorageToken.transfer_eq_ok.mpr ⟨ht, hd, h, rfl⟩⟩

/-- The contract is solvent exactly if its balance covers all that it owes. -/
theorem solvent_iff (ht : this ≠ 0) :
    Solvent this s ↔ liabilities s.market ≤ s.token.balanceOf this := by
  constructor
  · intro h
    exact h.covered
  -- each debt is a part of the sum, so that a balance above the sum pays any of them
  · intro h
    have hdeals : ∀ id < s.market.dealCount,
        (s.market.deals id).owed ≤ ∑ id ∈ Finset.range s.market.dealCount, (s.market.deals id).owed :=
      fun id hid => Finset.single_le_sum (f := fun i => (s.market.deals i).owed)
        (fun _ _ => Nat.zero_le _) (Finset.mem_range.mpr hid)
    have hretr : ∀ id < s.market.retrievalCount, (s.market.retrievals id).owed ≤
        ∑ id ∈ Finset.range s.market.retrievalCount, (s.market.retrievals id).owed :=
      fun id hid => Finset.single_le_sum (f := fun i => (s.market.retrievals i).owed)
        (fun _ _ => Nat.zero_le _) (Finset.mem_range.mpr hid)
    have hsum := h
    unfold liabilities at hsum
    refine ⟨h, ?_, ?_, ?_⟩
    · apply canPay_of_le ht
      omega
    · intro id hid hopen value hvalue
      have hid := hdeals id hid
      rw [Deal.owed_of_isOpen hopen] at hid
      apply canPay_of_le ht
      omega
    · intro id hid hpending
      have hid := hretr id hid
      rw [Retrieval.owed_of_pending hpending] at hid
      apply canPay_of_le ht
      omega

/-- **A call keeps the marketplace solvent exactly if the fee it charges was covered before.** For
the calls that charge a fee the two sides differ by that fee; the others only give surplus back. -/
theorem effect_covered_iff {msg : Msg} {call : Call} {logs : List Log} (hz : msg.sender ≠ 0)
    (hblank : Blank s.market) (hcov : liabilities s.market ≤ s.token.balanceOf this)
    (e : Effect this s msg call s' logs) :
    liabilities s'.market ≤ s'.token.balanceOf this ↔
      liabilities s.market + (charged s.market call).fee ≤ s.token.balanceOf this := by
  -- a deal nobody created owes nothing, and a closed deal neither
  have hnone : ∀ id, s.market.dealCount ≤ id → (s.market.deals id).owed = 0 := by
    intro id hid
    have := (s.market.deals id).owed_le
    rw [hblank.escrow id hid] at this
    omega
  cases e with
  | idle noDeal books balance =>
    rw [liabilities_of_sameBooks books, charged_of_noDeal noDeal]
    dsimp only
    omega
  -- the client pays the price and the fee; the escrow owes the price only
  | @created params price cost _ _ _ _ _ _ _ price_eq cost_eq _ wrote balance _ _ =>
    have hl := liabilities_of_created wrote
    rw [owed_createdDeal] at hl
    have hcharge : charged s.market (.market (.createDeal params)) = cost := by
      rw [cost_eq, price_eq]
      rfl
    rw [balance, hcharge, Charge.total]
    rw [Charge.total] at hl
    omega
  -- the same for a renewal, of a deal that is there
  | @renewed dealId days cost deal _ _ deal_eq isOpen client cost_eq wrote balance _ _ =>
    have hlt : dealId < s.market.dealCount :=
      hblank.created_of_client hz (by rw [← deal_eq]; exact client)
    have hl := liabilities_of_wrote wrote (fun hge => absurd hlt (Nat.not_lt.mpr hge))
      (fun hge => absurd hlt (Nat.not_lt.mpr hge))
    rw [← deal_eq, Deal.owed_of_isOpen isOpen, Deal.owed_of_isOpen rfl] at hl
    have hcharge : charged s.market (.market (.renewDeal dealId days)) = cost := by
      rw [cost_eq, deal_eq]
      rfl
    rw [balance, hcharge, Charge.total]
    dsimp only [Charge.total] at hl
    omega
  -- the provider shares and the fee come out of the escrow
  | completed deal_eq active _ _ fee_le wrote balance _ =>
    subst deal_eq
    have hl := liabilities_of_wrote wrote (hnone _) (fun _ => Deal.owed_of_closed rfl)
    rw [Deal.owed_of_isOpen (by rw [active]; rfl), Deal.owed_of_closed rfl] at hl
    have hb := balance.trans (Nat.add_le_add_left (completionPayout_le _ _) _)
    simp only [charged]
    omega
  | cancelled deal_eq isOpen _ _ wrote balance _ =>
    -- the whole escrow stops being owed, and at most that much is paid
    subst deal_eq
    have hl := liabilities_of_wrote wrote (hnone _) (fun _ => Deal.owed_of_closed rfl)
    rw [Deal.owed_of_isOpen isOpen, Deal.owed_of_closed rfl] at hl
    have hb := balance.le.trans (Nat.add_le_add_left (refundAmount_le _ _) _)
    simp only [charged]
    omega
  | lost deal_eq _ isOpen _ _ wrote token _ =>
    subst deal_eq
    have hl := liabilities_of_wrote wrote (hnone _) (hnone _)
    rw [Deal.owed_withShards] at hl
    rw [token]
    simp only [charged]
    omega
  -- what the client gets back is at most the escrow
  | failed deal_eq _ isOpen _ _ _ wrote balance _ =>
    subst deal_eq
    have hl := liabilities_of_wrote wrote (hnone _) (fun _ => Deal.owed_of_closed rfl)
    rw [Deal.owed_of_isOpen isOpen, Deal.owed_of_closed rfl] at hl
    simp only [charged]
    omega
  | repaired deal_eq _ isOpen _ _ wrote token _ =>
    subst deal_eq
    have hl := liabilities_of_wrote wrote (hnone _) (hnone _)
    rw [owed_repairedDeal] at hl
    rw [token]
    simp only [charged]
    omega
  | retrieving _ _ market balance =>
    have hl := liabilities_initiate s.market market
    rw [Retrieval.owed_of_pending rfl] at hl
    simp only [charged]
    dsimp only at hl
    omega
  -- the payment leaves the balance and the liabilities together
  | claimed pending provider market balance =>
    have hl := liabilities_claim s.market (hblank.initiated_of_provider hz provider) market
    rw [Retrieval.owed_of_pending pending] at hl
    simp only [charged]
    omega
  | withdrawn _ market balance =>
    -- the fees leave the balance and the liabilities together
    rw [market]
    simp only [charged, liabilities] at hcov ⊢
    omega

/-- **Solvency, exactly.** From the deployment on, a run stays solvent in all its states if and only
if every call that goes through and charges a fee finds that much surplus in the marketplace. -/
theorem solvent_along_iff {s₀ : System} (h : s₀.Deployed this) (as : List (Action this)) :
    Along (System.step this) (Solvent this) s₀ as ↔
      Meets (System.step this) (FeeCovered this) s₀ as := by
  obtain ⟨msg, treasury, hfresh⟩ := h.fresh
  refine along_iff_meets (I := fun s => Blank s.market ∧ s.NoApproval this) ?_ ?_ ?_ ?_ as
  · rw [solvent_iff h.ne_zero, hfresh]
    simp [liabilities, StorageMarketplace.deploy]
  · rw [hfresh]
    exact ⟨blank_deploy msg treasury, h.noApproval⟩
  · intro s a s' logs hI hstep
    obtain ⟨he, hno⟩ := step_effect hI.2 hstep
    exact ⟨blank_effect a.sender_ne_zero hI.1 he, hno⟩
  · intro s a s' logs hI hs hstep
    rw [solvent_iff h.ne_zero] at hs ⊢
    rw [effect_covered_iff a.sender_ne_zero hI.1 hs (step_effect hI.2 hstep).1, FeeCovered]
    omega

/-- Somebody gives the marketplace a token before the first deal. -/
def SmallMarket.gift : Action SmallMarket.this :=
  SmallMarket.client.callsToken 0 (.transfer SmallMarket.this (10 ^ 18)) id

theorem solvent_along_iff_smallMarket :
    Along (System.step SmallMarket.this) (Solvent SmallMarket.this) SmallMarket.deployed
      (SmallMarket.setup ++ [SmallMarket.gift] ++ [SmallMarket.client.calls 0 (.createDeal SmallMarket.params)]) := by
  refine (solvent_along_iff SmallMarket.deployed_deployed _).mpr (meets_snoc _ _ _ |>.mpr ⟨?_, fun _ => ?_⟩)
  · refine meets_of_forall _ fun a ha s => ?_
    simp only [SmallMarket.setup, List.mem_append, List.mem_map, List.mem_cons, List.not_mem_nil, or_false] at ha
    rcases ha with ((rfl | rfl | rfl | rfl) | ⟨i, -, rfl⟩) | rfl <;> exact fun hfee => absurd hfee (Nat.lt_irrefl 0)
  · intro _
    decide +kernel

/-- One deal is enough: right after its creation the marketplace owes 1.06 KYN and holds 1.03. If
the owner withdraws the fee, the client's immediate cancellation cannot be paid. -/
theorem createDeal_not_solvent :
    ¬ Solvent SmallMarket.this
        (SmallMarket.after [SmallMarket.client.calls 0 (.createDeal SmallMarket.params)]) ∧
      revertOf (System.step SmallMarket.this
        (SmallMarket.after
          [SmallMarket.client.calls 0 (.createDeal SmallMarket.params),
            SmallMarket.owner.calls 0 .withdrawFees])
        (SmallMarket.client.calls 0 (.cancelDeal 0))) =
        some (.error "ERC20InsufficientBalance") := by
  constructor
  · intro h
    have hcov := h.covered
    revert hcov
    decide +kernel
  · decide +kernel

end Solvency

end Kyneto
