import Kyneto.StorageMarketplace.Solvency

/-!
# The ledger of a deal

What a run's history says about one deal: what its client paid in when it was created and renewed,
how that split into payments for the providers and protocol fees, and what was paid out under its id.
`Ledger` ties these totals to the escrow the contract stores, and holds in every run
(`books_run`): an open deal's escrow is all its client ever paid in, and no deal pays out more.

The second part is about the end of a deal. No call changes a closed deal, except that `createDeal`
fills the slot of the next id without looking at it; `final_iff` says that this is the only exception.
-/

namespace Kyneto

open Evm

/-- A successful call of the system, with the states around it. -/
abbrev MarketEntry (this : Address) := Entry System (Action this) Log

section Totals

variable {this : Address}

/-- The call deposits tokens for the deal: it creates it, or renews it. -/
def depositsFor (id : Nat) (e : MarketEntry this) : Bool :=
  match e.act.call with
  | .market (.createDeal _) => e.pre.market.dealCount = id
  | .market (.renewDeal dealId _) => dealId = id
  | _ => false

/-- Sum an amount over the entries that deposit for the deal. -/
def deposited (id : Nat) (amount : MarketEntry this → Nat) (hist : List (MarketEntry this)) : Nat :=
  (hist.map fun e => if depositsFor id e then amount e else 0).sum

/-- What the client paid in for the deal, by the token's logs. -/
def paidIn (id : Nat) (hist : List (MarketEntry this)) : Nat :=
  deposited id (fun e => receivedBy this e.logs) hist

/-- The provider payments charged for the deal. -/
def payments (id : Nat) (hist : List (MarketEntry this)) : Nat :=
  deposited id (fun e => (charged e.pre.market e.act.call).payment) hist

/-- The fees the deal added to `totalFeesCollected`. -/
def fees (id : Nat) (hist : List (MarketEntry this)) : Nat :=
  deposited id
    (fun e => e.post.market.totalFeesCollected - e.pre.market.totalFeesCollected) hist

/-- What the marketplace paid out in calls about the deal, by the token's logs. -/
def paidOut (id : Nat) (hist : List (MarketEntry this)) : Nat :=
  (hist.map fun e => if e.act.call.dealId e.pre = some id then sentBy this e.logs else 0).sum

@[simp] theorem deposited_nil (id : Nat) (amount : MarketEntry this → Nat) :
    deposited id amount [] = 0 := rfl

@[simp] theorem deposited_snoc (id : Nat) (amount : MarketEntry this → Nat)
    (hist : List (MarketEntry this)) (e : MarketEntry this) :
    deposited id amount (hist ++ [e]) =
      deposited id amount hist + if depositsFor id e then amount e else 0 := by
  simp [deposited]

@[simp] theorem paidOut_nil (id : Nat) : @paidOut this id [] = 0 := rfl

@[simp] theorem paidOut_snoc (id : Nat) (hist : List (MarketEntry this)) (e : MarketEntry this) :
    paidOut id (hist ++ [e]) =
      paidOut id hist + if e.act.call.dealId e.pre = some id then sentBy this e.logs else 0 := by
  simp [paidOut]

/-- A call that pays into a deal is a call for that deal. -/
theorem dealId_of_depositsFor {id : Nat} {e : MarketEntry this} (h : depositsFor id e = true) :
    e.act.call.dealId e.pre = some id := by
  unfold depositsFor at h
  split at h
  · next hcall =>
    rw [hcall]
    exact congrArg some (of_decide_eq_true h)
  · next hcall =>
    rw [hcall]
    exact congrArg some (of_decide_eq_true h)
  · cases h

/-- A call that is not about a deal adds nothing to its totals. -/
theorem totals_of_other {id : Nat} {e : MarketEntry this} (hist : List (MarketEntry this))
    (h : e.act.call.dealId e.pre ≠ some id) :
    paidIn id (hist ++ [e]) = paidIn id hist ∧ payments id (hist ++ [e]) = payments id hist ∧
      fees id (hist ++ [e]) = fees id hist ∧ paidOut id (hist ++ [e]) = paidOut id hist := by
  have hnot : depositsFor id e = false := by
    by_contra hdep
    exact h (dealId_of_depositsFor (Bool.eq_true_of_not_eq_false hdep))
  simp [paidIn, payments, fees, hnot, h]

/-- A call that is about a deal and deposits nothing adds to what was paid out only. -/
theorem totals_of_payout {id : Nat} {e : MarketEntry this} (hist : List (MarketEntry this))
    (h : e.act.call.dealId e.pre = some id) (hnot : depositsFor id e = false) :
    paidIn id (hist ++ [e]) = paidIn id hist ∧ fees id (hist ++ [e]) = fees id hist ∧
      paidOut id (hist ++ [e]) = paidOut id hist + sentBy this e.logs := by
  simp [paidIn, fees, hnot, h]

end Totals

/-! ## The ledger invariant -/

/-- The totals of the history agree with the escrow in the books. -/
structure Ledger {this : Address} (m : StorageMarketplace) (hist : List (MarketEntry this)) :
    Prop where
  split : ∀ id, paidIn id hist = payments id hist + fees id hist
  held : ∀ id, (m.deals id).status.isOpen = true → (m.deals id).escrowedAmount = paidIn id hist
  bound : ∀ id, (m.deals id).escrowedAmount + paidOut id hist ≤ paidIn id hist
  fresh : ∀ id, m.dealCount ≤ id → paidIn id hist = 0

section Ledger

variable {this : Address} {s s' : System} {logs : List Log} {hist : List (MarketEntry this)}

/-- Calls for no deal leave the ledger as it is. -/
theorem Ledger.of_noDeal {m : StorageMarketplace} {e : MarketEntry this} (h : Ledger m hist)
    {m' : StorageMarketplace} (hd : m'.deals = m.deals) (hn : m'.dealCount = m.dealCount)
    (hcall : e.act.call.dealId e.pre = none) : Ledger m' (hist ++ [e]) := by
  have hne : ∀ id, e.act.call.dealId e.pre ≠ some id := by
    intro id
    rw [hcall]
    exact (Option.some_ne_none id).symm
  refine ⟨?_, ?_, ?_, ?_⟩
  · intro id
    obtain ⟨hin, hpay, hfee, -⟩ := totals_of_other hist (hne id)
    rw [hin, hpay, hfee, h.split]
  · intro id
    rw [hd, (totals_of_other hist (hne id)).1]
    exact h.held id
  · intro id
    obtain ⟨hin, -, -, hout⟩ := totals_of_other hist (hne id)
    rw [hd, hin, hout]
    exact h.bound id
  · intro id
    rw [hn, (totals_of_other hist (hne id)).1]
    exact h.fresh id

/-- A call about a deal keeps the ledger if it books what it takes in and pays out what it had:
`p` and `f` are the payment and the fee it takes in, `out` is what it pays out. -/
theorem Ledger.of_wrote {e : MarketEntry this} {id n totalFees p f out : Nat} {deal : Deal}
    {pd : Address → List Nat} (h : Ledger e.pre.market hist)
    (w : Wrote e.pre.market e.post.market id deal n totalFees pd)
    (hcall : e.act.call.dealId e.pre = some id)
    (hn : e.pre.market.dealCount ≤ n)
    (hin : (if depositsFor id e then receivedBy this e.logs else 0) = p + f)
    (hpay : (if depositsFor id e then (charged e.pre.market e.act.call).payment else 0) = p)
    (hfee : (if depositsFor id e then
      e.post.market.totalFeesCollected - e.pre.market.totalFeesCollected else 0) = f)
    (hout : sentBy this e.logs = out)
    (hheld : deal.status.isOpen = true →
      deal.escrowedAmount = paidIn id hist + (p + f))
    (hbound : deal.escrowedAmount + paidOut id hist + out ≤ paidIn id hist + (p + f))
    (hfresh : n ≤ id → p + f = 0) : Ledger e.post.market (hist ++ [e]) := by
  -- only the ledger of this deal changes
  have other : ∀ i, i ≠ id → e.act.call.dealId e.pre ≠ some i := by
    intro i hi
    rw [hcall]
    exact fun heq => hi (Option.some.inj heq).symm
  have hin' : paidIn id (hist ++ [e]) = paidIn id hist + (p + f) := by
    rw [paidIn, deposited_snoc, hin]
    rfl
  have hout' : paidOut id (hist ++ [e]) = paidOut id hist + out := by
    rw [paidOut_snoc, if_pos hcall, hout]
  refine ⟨?_, ?_, ?_, ?_⟩
  -- `split`, `held`, `bound` and `fresh`, each for this deal and for the others
  · intro i
    by_cases hi : i = id
    · subst hi
      have hp : payments i (hist ++ [e]) = payments i hist + p := by
        rw [payments, deposited_snoc, hpay]
        rfl
      have hf : fees i (hist ++ [e]) = fees i hist + f := by
        rw [fees, deposited_snoc, hfee]
        rfl
      rw [hin', hp, hf, h.split]
      omega
    · obtain ⟨hin, hpay, hfee, -⟩ := totals_of_other hist (other i hi)
      rw [hin, hpay, hfee, h.split]
  -- an open deal holds all that has been paid in
  · intro i hopen
    by_cases hi : i = id
    · subst hi
      rw [w.deal_self] at hopen ⊢
      rw [hin']
      exact hheld hopen
    · rw [w.deal_of_ne hi] at hopen ⊢
      rw [(totals_of_other hist (other i hi)).1]
      exact h.held i hopen
  · intro i
    by_cases hi : i = id
    · subst hi
      rw [w.deal_self, hin', hout']
      omega
    · obtain ⟨hin, -, -, hout⟩ := totals_of_other hist (other i hi)
      rw [w.deal_of_ne hi, hin, hout]
      exact h.bound i
  · intro i hge
    rw [w.dealCount] at hge
    by_cases hi : i = id
    · subst hi
      rw [hin', h.fresh i (hn.trans hge), hfresh hge]
    · rw [(totals_of_other hist (other i hi)).1]
      exact h.fresh i (hn.trans hge)

/-- The same for a call that takes nothing in. -/
theorem Ledger.of_payout {e : MarketEntry this} {id totalFees out : Nat} {deal : Deal}
    {pd : Address → List Nat} (h : Ledger e.pre.market hist)
    (w : Wrote e.pre.market e.post.market id deal e.pre.market.dealCount totalFees pd)
    (hcall : e.act.call.dealId e.pre = some id) (hnot : depositsFor id e = false)
    (hout : sentBy this e.logs = out)
    (hheld : deal.status.isOpen = true → deal.escrowedAmount = paidIn id hist)
    (hbound : deal.escrowedAmount + paidOut id hist + out ≤ paidIn id hist) :
    Ledger e.post.market (hist ++ [e]) := by
  have hzero : ∀ v, (if depositsFor id e then v else 0) = 0 := by
    intro v
    rw [hnot]
    rfl
  exact h.of_wrote w hcall (Nat.le_refl _) (hzero _) (hzero _) (hzero _) hout hheld hbound
    (fun _ => rfl)

/-- What goes in and out with a call, one case for each. -/
theorem ledger_effect {a : Action this} (hblank : Blank s.market) (h : Ledger s.market hist)
    (e : Effect this s a.msg a.call s' logs) :
    Ledger s'.market (hist ++ [⟨s, a, logs, s'⟩]) := by
  obtain ⟨msg, call, hzero, hne, hstd⟩ := a
  cases e with
  | idle noDeal books _ => exact h.of_noDeal books.deals books.dealCount noDeal
  | @created params price cost _ _ _ _ _ _ _ price_eq cost_eq _ wrote _ sent received =>
    have hcharge : charged s.market (.market (.createDeal params)) = cost := by
      rw [cost_eq, price_eq]
      rfl
    -- nothing has been paid into the slot before the creation
    have hfresh := h.fresh _ (Nat.le_refl _)
    have hescrow : ∀ t, (createdDeal s.market msg params price cost.total t).escrowedAmount =
        cost.total := by
      intro t
      rw [createdDeal, Deal.assignShards_eq]
      rfl
    refine h.of_wrote (e := ⟨s, _, logs, s'⟩) (p := cost.payment) (f := cost.fee) wrote rfl
      (Nat.le_succ _) ?_ ?_ ?_ sent ?_ ?_ ?_
    · simpa [depositsFor, Charge.total] using received
    · simp [depositsFor, hcharge]
    · simp only [depositsFor, decide_true, if_true, wrote.totalFeesCollected]
      exact Nat.add_sub_cancel_left _ _
    · intro _
      rw [hescrow, hfresh, Nat.zero_add]
      rfl
    · have hbound := h.bound s.market.dealCount
      rw [hescrow, Charge.total]
      omega
    · intro hle
      exact absurd hle (Nat.not_succ_le_self _)
  -- only a client renews, so the deal is there and its ledger goes on
  | @renewed dealId days cost deal _ _ deal_eq isOpen client cost_eq wrote _ sent received =>
    subst deal_eq
    have hcharge : charged s.market (.market (.renewDeal dealId days)) = cost := by
      rw [cost_eq]
      rfl
    have hlt := hblank.created_of_client hzero client
    have hheld := h.held dealId isOpen
    refine h.of_wrote (e := ⟨s, _, logs, s'⟩) (p := cost.payment) (f := cost.fee) wrote rfl
      (Nat.le_refl _) ?_ ?_ ?_ sent ?_ ?_ ?_
    · simpa [depositsFor, Charge.total] using received
    · simp [depositsFor, hcharge]
    · simp only [depositsFor, decide_true, if_true, wrote.totalFeesCollected]
      exact Nat.add_sub_cancel_left _ _
    · intro _
      show (s.market.deals dealId).escrowedAmount + cost.total = _
      rw [hheld]
      rfl
    · have hbound := h.bound dealId
      dsimp only
      rw [Charge.total]
      omega
    · intro hge
      exact absurd hlt (Nat.not_lt.mpr hge)
  -- what a closed deal pays out it had, so `bound` stays
  | @completed dealId deal _ _ deal_eq active _ _ _ wrote _ sent =>
    subst deal_eq
    refine h.of_payout (e := ⟨s, _, logs, s'⟩) wrote rfl rfl sent Bool.false_ne_true.elim ?_
    have hbound := h.bound dealId
    have hle := completionPayout_le s.market (s.market.deals dealId)
    dsimp only
    omega
  | @cancelled dealId deal _ _ deal_eq isOpen _ _ wrote _ sent =>
    subst deal_eq
    refine h.of_payout (e := ⟨s, _, logs, s'⟩) wrote rfl rfl sent Bool.false_ne_true.elim ?_
    have hbound := h.bound dealId
    have hle := refundAmount_le (s.market.deals dealId) msg.timestamp
    dsimp only
    omega
  | @failed dealId _ deal _ _ deal_eq _ _ _ _ _ wrote _ sent =>
    subst deal_eq
    refine h.of_payout (e := ⟨s, _, logs, s'⟩) wrote rfl rfl sent Bool.false_ne_true.elim ?_
    have hbound := h.bound dealId
    dsimp only
    omega
  -- a shard moves, and the escrow stays
  | @lost dealId _ deal _ _ deal_eq _ _ _ _ wrote _ sent
  | @repaired dealId _ _ _ deal _ _ deal_eq _ _ _ _ wrote _ sent =>
    subst deal_eq
    exact h.of_payout (e := ⟨s, _, logs, s'⟩) wrote rfl rfl sent (h.held dealId) (h.bound dealId)
  -- these move tokens, but under no deal
  | retrieving _ _ market | claimed _ _ market | withdrawn _ market =>
    refine h.of_noDeal ?_ ?_ rfl
    all_goals simp [market, StorageMarketplace.setRetrieval]

/-- What every run keeps: the slots beyond the counters are blank, nobody is approved, and the
ledger agrees with the history. -/
structure Books (s : System) (hist : List (MarketEntry this)) : Prop where
  blank : Blank s.market
  noApproval : s.NoApproval this
  ledger : Ledger s.market hist

theorem books_deployed (h : s.Deployed this) : @Books this s [] := by
  obtain ⟨msg, treasury, hfresh⟩ := h.fresh
  refine ⟨?_, h.noApproval, ?_⟩
  · rw [hfresh]
    exact blank_deploy msg treasury
  · rw [hfresh]
    exact ⟨fun _ => rfl, fun _ _ => rfl, fun _ => Nat.le_refl _, fun _ _ => rfl⟩

theorem books_step {a : Action this} (h : Books s hist) (hs : s.step this a = .ok (s', logs)) :
    Books s' (hist ++ [⟨s, a, logs, s'⟩]) := by
  obtain ⟨he, hno⟩ := step_effect h.noApproval hs
  exact ⟨blank_effect a.sender_ne_zero h.blank he, hno, ledger_effect h.blank h.ledger he⟩

theorem books_run {s₀ : System} (h : s₀.Deployed this) (as : List (Action this)) :
    Books (run (System.step this) s₀ as) (history (System.step this) s₀ as) :=
  run_induction (C := fun _ _ => True) (books_deployed h)
    (fun _ _ _ _ _ hb _ hs => books_step hb hs) as (meets_true s₀ as)

end Ledger

/-! ## The end of a deal -/

section Finality

variable {this : Address} {s s' : System} {logs : List Log} {hist : List (MarketEntry this)}

/-- The call ends the deal: it completes or cancels it, or reports the loss that fails it. -/
def closes (id : Nat) (e : MarketEntry this) : Bool :=
  match e.act.call with
  | .market (.completeDeal dealId) | .market (.cancelDeal dealId) => dealId = id
  | .market (.reportLostShard dealId _) =>
    dealId = id && (e.post.market.deals id).status = .Failed
  | _ => false

/-- How often the deal was ended. -/
def closings (id : Nat) (hist : List (MarketEntry this)) : Nat := hist.countP (closes id)

/-- Conservation and finality, for every deal id: it is ended at most once, it pays out no more than
its client paid in, and no call changes it once it has ended. -/
structure Final (hist : List (MarketEntry this)) : Prop where
  once : ∀ id, closings id hist ≤ 1
  conserved : ∀ id, paidOut id hist ≤ paidIn id hist
  frozen : ∀ e ∈ hist, ∀ id, (e.pre.market.deals id).status.isOpen = false →
    e.post.market.deals id = e.pre.market.deals id

/-- A creation finds its slot open. -/
def SlotOpen (s : System) (a : Action this) : Prop :=
  match a.call with
  | .market (.createDeal _) => (s.market.deals s.market.dealCount).status.isOpen = true
  | _ => True

@[simp] theorem closings_snoc (id : Nat) (hist : List (MarketEntry this)) (e : MarketEntry this) :
    closings id (hist ++ [e]) = closings id hist + if closes id e then 1 else 0 := by
  simp [closings, List.countP_append, List.countP_singleton]

/-- A call that closes a deal is a call for that deal. -/
theorem dealId_of_closes {id : Nat} {e : MarketEntry this} (h : closes id e = true) :
    e.act.call.dealId e.pre = some id := by
  unfold closes at h
  split at h
  · next hcall =>
    rw [hcall]
    exact congrArg some (of_decide_eq_true h)
  · next hcall =>
    rw [hcall]
    exact congrArg some (of_decide_eq_true h)
  · next hcall =>
    rw [hcall]
    rw [Bool.and_eq_true] at h
    exact congrArg some (of_decide_eq_true h.1)
  · cases h

/-- A call changes only the deal it is about, and that one was open, unless it was just created. -/
theorem effect_writes {a : Action this} (e : Effect this s a.msg a.call s' logs) :
    (a.call.dealId s = none ∧ s'.market.deals = s.market.deals) ∨
      ∃ id, a.call.dealId s = some id ∧ (∀ i, i ≠ id → s'.market.deals i = s.market.deals i) ∧
        (SlotOpen s a → (s.market.deals id).status.isOpen = true) ∧
        (closes id ⟨s, a, logs, s'⟩ = !(s'.market.deals id).status.isOpen) := by
  obtain ⟨msg, call, hzero, hne, hstd⟩ := a
  cases e with
  | idle noDeal books _ => exact Or.inl ⟨noDeal, books.deals⟩
  | created _ _ _ _ _ _ _ wrote =>
    refine Or.inr ⟨_, rfl, fun _ => wrote.deal_of_ne, id, ?_⟩
    rw [wrote.deal_self, createdDeal, Deal.assignShards_eq]
    rfl
  | renewed deal_eq isOpen _ _ wrote =>
    subst deal_eq
    refine Or.inr ⟨_, rfl, fun _ => wrote.deal_of_ne, fun _ => isOpen, ?_⟩
    rw [wrote.deal_self]
    rfl
  | completed deal_eq active _ _ _ wrote =>
    subst deal_eq
    refine Or.inr ⟨_, rfl, fun _ => wrote.deal_of_ne, fun _ => by rw [active]; rfl, ?_⟩
    rw [wrote.deal_self]
    simp [closes, DealStatus.isOpen]
  | cancelled deal_eq isOpen _ _ wrote =>
    subst deal_eq
    refine Or.inr ⟨_, rfl, fun _ => wrote.deal_of_ne, fun _ => isOpen, ?_⟩
    rw [wrote.deal_self]
    simp [closes, DealStatus.isOpen]
  | @lost dealId _ deal _ _ deal_eq _ isOpen _ _ wrote =>
    subst deal_eq
    refine Or.inr ⟨_, rfl, fun _ => wrote.deal_of_ne, fun _ => isOpen, ?_⟩
    have hnot : (s.market.deals dealId).status ≠ .Failed := by
      intro hf
      rw [hf] at isOpen
      cases isOpen
    simp [closes, wrote.deal_self, Deal.withShards, hnot, isOpen]
  | failed deal_eq _ isOpen _ _ _ wrote =>
    subst deal_eq
    refine Or.inr ⟨_, rfl, fun _ => wrote.deal_of_ne, fun _ => isOpen, ?_⟩
    simp [closes, wrote.deal_self, DealStatus.isOpen]
  | repaired deal_eq _ isOpen _ _ wrote =>
    subst deal_eq
    refine Or.inr ⟨_, rfl, fun _ => wrote.deal_of_ne, fun _ => isOpen, ?_⟩
    rw [wrote.deal_self]
    simp [closes, repairedDeal, isOpen]
  | retrieving _ _ market | claimed _ _ market | withdrawn _ market =>
    refine Or.inl ⟨rfl, ?_⟩
    simp [market, StorageMarketplace.setRetrieval]

/-- While creations find open slots, a deal has been ended once if it is closed, and else never. -/
def CountsClosings (m : StorageMarketplace) (hist : List (MarketEntry this)) : Prop :=
  ∀ id, closings id hist = if (m.deals id).status.isOpen then 0 else 1

/-- A call that finds an open slot keeps the count of closings. -/
theorem countsClosings_effect {a : Action this} (h : CountsClosings s.market hist)
    (hslot : SlotOpen s a) (e : Effect this s a.msg a.call s' logs) :
    CountsClosings s'.market (hist ++ [⟨s, a, logs, s'⟩]) := by
  have noClose : ∀ i, a.call.dealId s ≠ some i → closes i ⟨s, a, logs, s'⟩ = false := by
    intro i hi
    by_contra hc
    exact hi (dealId_of_closes (Bool.eq_true_of_not_eq_false hc))
  intro i
  rw [closings_snoc, h i]
  rcases effect_writes e with ⟨hcall, hsame⟩ | ⟨id, hcall, hother, hopen, hcloses⟩
  · rw [hsame, noClose i]
    · rfl
    · rw [hcall]
      exact (Option.some_ne_none i).symm
  · by_cases hi : i = id
    · subst hi
      rw [hcloses, hopen hslot]
      cases (s'.market.deals i).status.isOpen <;> rfl
    · rw [hother i hi, noClose i]
      · rfl
      · rw [hcall]
        exact fun heq => hi (Option.some.inj heq).symm

theorem frozen_effect {a : Action this} {id : Nat} (hslot : SlotOpen s a)
    (e : Effect this s a.msg a.call s' logs)
    (hclosed : (s.market.deals id).status.isOpen = false) :
    s'.market.deals id = s.market.deals id := by
  rcases effect_writes e with ⟨-, hsame⟩ | ⟨i, -, hother, hopen, -⟩
  · rw [hsame]
  · apply hother
    rintro rfl
    rw [hopen hslot] at hclosed
    cases hclosed

/-- A creation in a closed slot opens it again. -/
theorem created_reopens {a : Action this} {params : DealParams}
    (hcall : a.call = .market (.createDeal params)) (e : Effect this s a.msg a.call s' logs) :
    (s'.market.deals s.market.dealCount).status = .Active := by
  rw [hcall] at e
  cases e with
  | idle noDeal => cases noDeal
  | created _ _ _ _ _ _ _ wrote =>
    rw [wrote.deal_self, createdDeal, Deal.assignShards_eq]
    rfl

/-- Every entry of a run's history is a step that had an effect. -/
theorem history_effect {s₀ : System} (h : s₀.Deployed this) (as : List (Action this)) :
    ∀ e ∈ history (System.step this) s₀ as,
      Effect this e.pre e.act.msg e.act.call e.post e.logs := by
  refine forall_history (I := fun s => s.NoApproval this) h.noApproval ?_ as (meets_true s₀ as)
  intro s a s' logs hno _ hs
  exact (step_effect hno hs).symm

/-- **Conservation and finality, exactly.** They hold of a run if and only if no creation of the run
fills a slot that is closed already. -/
theorem final_iff {s₀ : System} (h : s₀.Deployed this) (as : List (Action this)) :
    Final (history (System.step this) s₀ as) ↔ Meets (System.step this) SlotOpen s₀ as := by
  constructor
  · intro hf
    rw [meets_iff_history]
    intro e he
    unfold SlotOpen
    split
    · next params hcall =>
      -- a creation in a closed slot would have changed it
      have hreopened := created_reopens hcall (history_effect h as e he)
      by_contra hclosed
      have hclosed := Bool.eq_false_of_not_eq_true hclosed
      rw [hf.frozen e he _ hclosed] at hreopened
      rw [hreopened] at hclosed
      cases hclosed
    · trivial
  · intro hm
    have hcount : CountsClosings (run (System.step this) s₀ as).market
        (history (System.step this) s₀ as) := by
      refine (run_induction (P := fun s hist => s.NoApproval this ∧ CountsClosings s.market hist)
        ⟨h.noApproval, ?_⟩ ?_ as hm).2
      · obtain ⟨msg, treasury, hfresh⟩ := h.fresh
        rw [hfresh]
        exact fun _ => rfl
      · rintro s hist a s' logs ⟨hno, hc⟩ hslot hs
        obtain ⟨he, hno'⟩ := step_effect hno hs
        exact ⟨hno', countsClosings_effect hc hslot he⟩
    refine ⟨?_, ?_, ?_⟩
    · intro id
      rw [hcount id]
      split <;> omega
    · intro id
      exact (Nat.le_add_left _ _).trans ((books_run h as).ledger.bound id)
    · intro e he id hclosed
      exact frozen_effect ((meets_iff_history s₀ as).mp hm e he) (history_effect h as e he) hclosed

theorem final_iff_smallMarket :
    Final (history (System.step SmallMarket.this) SmallMarket.deployed
        (SmallMarket.setup ++ [SmallMarket.client.calls 0 (.createDeal SmallMarket.params)])) ↔
      Meets (System.step SmallMarket.this) SlotOpen SmallMarket.deployed
        (SmallMarket.setup ++ [SmallMarket.client.calls 0 (.createDeal SmallMarket.params)]) :=
  final_iff SmallMarket.deployed_deployed _

/-- A shard of a deal that does not exist is repaired and lost again, which fails the deal; then
the deal is created. -/
def SmallMarket.plantedDeal : List (Action SmallMarket.this) :=
  setup ++
    [owner.calls 0 (.repairShard 0 spare.addr (provider 0).addr "QmShard"),
      owner.calls 0 (.reportLostShard 0 (provider 0).addr),
      client.calls 0 (.createDeal params)]

/-- The creation opens the failed deal again. -/
theorem createDeal_not_final :
    ¬ Final (history (System.step SmallMarket.this) SmallMarket.deployed
      SmallMarket.plantedDeal) := by
  intro h
  have hfailed : ∀ e ∈ history (System.step SmallMarket.this) SmallMarket.deployed
      SmallMarket.plantedDeal,
      (e.pre.market.deals 0).status = .Failed → (e.post.market.deals 0).status = .Failed := by
    intro e he hfailed
    rw [h.frozen e he 0 (by rw [hfailed]; rfl)]
    exact hfailed
  revert hfailed
  decide +kernel

end Finality

end Kyneto
