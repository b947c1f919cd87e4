import Kyneto.StorageMarketplace.Ledger

/-!
# Where the escrow goes

Two results about the end of a deal, both read off its ledger.

`completeDeal` takes its fee a second time: on `totalCost`, which includes the fee of the creation but
no renewal, and at the rate of the moment. `completeDeal_releases_iff` says when this happens to give
back the fees the deal was charged, so that the distributor gets exactly the provider payments.

A deal can also end with tokens that nobody is owed any more: a cancellation keeps what it does not
refund, and a completion without a distributor keeps everything. `noStrand_iff` says exactly which
calls leave nothing behind.
-/

namespace Kyneto

open Evm

/-! ## The two formulas -/

/-- A cancellation refunds the whole escrow only at the very start of the deal. -/
theorem refundAmount_eq_iff (deal : Deal) (timestamp : Nat) :
    refundAmount deal timestamp = deal.escrowedAmount ↔
      deal.escrowedAmount = 0 ∨ (timestamp ≤ deal.startTime ∧ deal.startTime < deal.endTime) := by
  unfold refundAmount
  split
  -- the refund is the quotient of the escrow by the time that is left
  · next hlt =>
    have hpos : 0 < deal.endTime - deal.startTime := by omega
    constructor
    · intro heq
      by_contra hnot
      rw [not_or] at hnot
      obtain ⟨hescrow, hlate⟩ := hnot
      -- some time has passed, so the quotient is smaller than the escrow
      have hless : deal.escrowedAmount *
          (deal.endTime - deal.startTime - (timestamp - deal.startTime)) <
            deal.escrowedAmount * (deal.endTime - deal.startTime) := by
        apply Nat.mul_lt_mul_of_pos_left _ (Nat.pos_of_ne_zero hescrow)
        omega
      rw [Nat.mul_comm _ (deal.endTime - deal.startTime)] at hless
      exact absurd heq (Nat.ne_of_lt (Nat.div_lt_of_lt_mul hless))
    · rintro (hzero | ⟨hearly, -⟩)
      · simp [hzero]
      · rw [Nat.sub_eq_zero_of_le hearly, Nat.sub_zero, Nat.mul_div_cancel _ hpos]
  -- a deal that ends when it starts is not refunded at all
  · next hge =>
    constructor
    · intro heq
      exact Or.inl heq.symm
    · rintro (hzero | ⟨hearly, hlt⟩)
      · exact hzero.symm
      · omega

theorem protocolFee_le_iff (amount bps fee : Nat) :
    protocolFee amount bps ≤ fee ↔ amount * bps < 10000 * (fee + 1) := by
  unfold protocolFee
  rw [← Nat.lt_succ_iff, Nat.div_lt_iff_lt_mul (by decide), Nat.mul_comm (fee + 1)]

theorem le_protocolFee_iff (amount bps fee : Nat) :
    fee ≤ protocolFee amount bps ↔ 10000 * fee ≤ amount * bps := by
  unfold protocolFee
  rw [Nat.le_div_iff_mul_le (by decide), Nat.mul_comm]

/-! ## Completion -/

section Completion

variable {this : Address} {s s' : System} {logs : List Log} {hist : List (MarketEntry this)}

/-- Before it ends, an open deal has paid nothing out and holds all that was paid in. -/
theorem Ledger.of_isOpen {m : StorageMarketplace} {id : Nat} (h : Ledger m hist)
    (hopen : (m.deals id).status.isOpen = true) :
    (m.deals id).escrowedAmount = payments id hist + fees id hist ∧ paidOut id hist = 0 := by
  have hheld := h.held id hopen
  have hbound := h.bound id
  rw [h.split] at hheld hbound
  omega

theorem completeDeal_inv {a : Action this} {id : Nat} (hcall : a.call = .market (.completeDeal id))
    (e : Effect this s a.msg a.call s' logs) :
    (s.market.deals id).status = .Active ∧
      protocolFee (s.market.deals id).totalCost s.market.protocolFeeBasisPoints ≤
        (s.market.deals id).escrowedAmount ∧
      sentBy this logs = completionPayout s.market (s.market.deals id) := by
  rw [hcall] at e
  cases e with
  | idle noDeal => cases noDeal
  | completed deal_eq active _ _ fee_le _ _ sent =>
    subst deal_eq
    exact ⟨active, fee_le, sent⟩

/-- **What a completion releases, exactly.** With a distributor set, the providers' payments go to it
and the charged fees stay, if and only if the rate of the moment on the deal's total cost comes to
the fees the deal was charged. -/
theorem completeDeal_releases_iff {s₀ : System} (h : s₀.Deployed this) (as : List (Action this))
    {a : Action this} {id : Nat} {r : System × List Log}
    (hcall : a.call = .market (.completeDeal id))
    (hset : (run (System.step this) s₀ as).market.paymentDistributor ≠ 0)
    (hok : System.step this (run (System.step this) s₀ as) a = .ok r) :
    (sentBy this r.2 = payments id (history (System.step this) s₀ as) ∧
      paidIn id (history (System.step this) s₀ as) - sentBy this r.2 =
        fees id (history (System.step this) s₀ as)) ↔
    (10000 * fees id (history (System.step this) s₀ as) ≤
        ((run (System.step this) s₀ as).market.deals id).totalCost *
          (run (System.step this) s₀ as).market.protocolFeeBasisPoints ∧
      ((run (System.step this) s₀ as).market.deals id).totalCost *
          (run (System.step this) s₀ as).market.protocolFeeBasisPoints <
        10000 * (fees id (history (System.step this) s₀ as) + 1)) := by
  have hbooks := books_run h as
  generalize run (System.step this) s₀ as = s at hset hok hbooks ⊢
  generalize history (System.step this) s₀ as = hist at hbooks ⊢
  obtain ⟨hactive, hfee, hsent⟩ := completeDeal_inv hcall (step_effect hbooks.noApproval hok).1
  have hopen : (s.market.deals id).status.isOpen = true := by
    rw [hactive]
    rfl
  obtain ⟨hescrow, -⟩ := hbooks.ledger.of_isOpen hopen
  rw [← le_protocolFee_iff, ← protocolFee_le_iff, hsent, completionPayout, if_pos hset,
    hbooks.ledger.split]
  omega

/-- A distributor is set, the rate is `bps`, and a deal is created. -/
def SmallMarket.oneDeal (bps : Nat) : List (Action SmallMarket.this) :=
  setup ++
    [owner.calls 0 (.setPaymentDistributor 60), owner.calls 0 (.setProtocolFee bps),
      client.calls 0 (.createDeal params)]

/-- Anyone completes the deal when it has run out. -/
def SmallMarket.completion : Action SmallMarket.this :=
  client.calls (30 * DAY) (.completeDeal 0)

/-- Without a fee there is nothing to take twice. -/
theorem completeDeal_releases_iff_smallMarket :
    ∃ r, System.step SmallMarket.this
        (run (System.step SmallMarket.this) SmallMarket.deployed (SmallMarket.oneDeal 0))
        SmallMarket.completion = .ok r ∧
      ((sentBy SmallMarket.this r.2 = payments 0
          (history (System.step SmallMarket.this) SmallMarket.deployed (SmallMarket.oneDeal 0)) ∧
        paidIn 0 (history (System.step SmallMarket.this) SmallMarket.deployed
            (SmallMarket.oneDeal 0)) - sentBy SmallMarket.this r.2 =
          fees 0 (history (System.step SmallMarket.this) SmallMarket.deployed
            (SmallMarket.oneDeal 0))) ∧
      sentBy SmallMarket.this r.2 = 10 ^ 18) := by
  have hrun : ((System.step SmallMarket.this
      (run (System.step SmallMarket.this) SmallMarket.deployed (SmallMarket.oneDeal 0))
      SmallMarket.completion).toOption.map fun r => sentBy SmallMarket.this r.2) =
        some (10 ^ 18) := by decide +kernel
  obtain ⟨r, hr, hsent⟩ := exists_ok_of_map hrun
  refine ⟨r, hr, ?_, hsent⟩
  refine (completeDeal_releases_iff SmallMarket.deployed_deployed (SmallMarket.oneDeal 0) rfl ?_
    hr).mpr ?_
  · decide +kernel
  · decide +kernel

/-- At the default rate the completion keeps three percent of 1.03 KYN, not of the one KYN the fee
was charged on. -/
theorem completeDeal_not_releases :
    ∃ r, System.step SmallMarket.this
        (run (System.step SmallMarket.this) SmallMarket.deployed (SmallMarket.oneDeal 300))
        SmallMarket.completion = .ok r ∧
      sentBy SmallMarket.this r.2 ≠ payments 0
        (history (System.step SmallMarket.this) SmallMarket.deployed (SmallMarket.oneDeal 300)) := by
  have hrun : ((System.step SmallMarket.this
      (run (System.step SmallMarket.this) SmallMarket.deployed (SmallMarket.oneDeal 300))
      SmallMarket.completion).toOption.map fun r => sentBy SmallMarket.this r.2) =
        some 999100000000000000 := by decide +kernel
  obtain ⟨r, hr, hsent⟩ := exists_ok_of_map hrun
  refine ⟨r, hr, ?_⟩
  rw [hsent]
  decide +kernel

end Completion

/-! ## What a closed deal leaves behind -/

section Stranded

variable {this : Address} {s s' : System} {logs : List Log} {hist : List (MarketEntry this)}

/-- A closed deal holds nothing, and all that was paid in for it has been paid out again or counted
as a fee. -/
def NoStrand (s : System) (hist : List (MarketEntry this)) : Prop :=
  ∀ id, (s.market.deals id).status.isOpen = false →
    (s.market.deals id).escrowedAmount = 0 ∧ paidIn id hist ≤ paidOut id hist + fees id hist

/-- The call leaves nothing behind if it ends a deal: a cancellation comes before any time has
passed, and a completion has a distributor to pay and takes no more than the fees already counted
(unless there is nothing to pay). -/
def LeavesNothing (s : System) (hist : List (MarketEntry this)) (a : Action this) : Prop :=
  match a.call with
  | .market (.cancelDeal id) =>
    (s.market.deals id).escrowedAmount = 0 ∨
      (a.msg.timestamp ≤ (s.market.deals id).startTime ∧
        (s.market.deals id).startTime < (s.market.deals id).endTime)
  | .market (.completeDeal id) =>
    payments id hist = 0 ∨
      (s.market.paymentDistributor ≠ 0 ∧
        (s.market.deals id).totalCost * s.market.protocolFeeBasisPoints <
          10000 * (fees id hist + 1))
  | _ => True

/-- After a call about a deal, nothing is stranded if nothing is in that deal. -/
theorem noStrand_wrote_iff {a : Action this} {id n totalFees : Nat} {deal : Deal}
    {pd : Address → List Nat} (h : NoStrand s hist)
    (w : Wrote s.market s'.market id deal n totalFees pd) (hcall : a.call.dealId s = some id) :
    NoStrand s' (hist ++ [⟨s, a, logs, s'⟩]) ↔
      (deal.status.isOpen = false → deal.escrowedAmount = 0 ∧
        paidIn id (hist ++ [⟨s, a, logs, s'⟩]) ≤
          paidOut id (hist ++ [⟨s, a, logs, s'⟩]) + fees id (hist ++ [⟨s, a, logs, s'⟩])) := by
  constructor
  · intro hs hclosed
    have hid := hs id
    rw [w.deal_self] at hid
    exact hid hclosed
  · intro hd i
    by_cases hi : i = id
    · subst hi
      rw [w.deal_self]
      exact hd
    · have hne : a.call.dealId s ≠ some i := by
        rw [hcall]
        exact fun heq => hi (Option.some.inj heq).symm
      obtain ⟨hin, -, hfee, hout⟩ := totals_of_other (e := ⟨s, a, logs, s'⟩) hist hne
      rw [w.deal_of_ne hi, hin, hfee, hout]
      exact h i

theorem noStrand_noDeal {a : Action this} (h : NoStrand s hist)
    (hd : s'.market.deals = s.market.deals) (hcall : a.call.dealId s = none) :
    NoStrand s' (hist ++ [⟨s, a, logs, s'⟩]) := by
  intro id
  have hne : a.call.dealId s ≠ some id := by
    rw [hcall]
    exact (Option.some_ne_none id).symm
  obtain ⟨hin, -, hfee, hout⟩ := totals_of_other (e := ⟨s, a, logs, s'⟩) hist hne
  rw [hd, hin, hfee, hout]
  exact h id

/-- **A call strands nothing exactly if it leaves nothing behind.** -/
theorem step_noStrand_iff {a : Action this} (hledger : Ledger s.market hist)
    (h : NoStrand s hist) (e : Effect this s a.msg a.call s' logs) :
    NoStrand s' (hist ++ [⟨s, a, logs, s'⟩]) ↔ LeavesNothing s hist a := by
  obtain ⟨msg, call, hzero, hne, hstd⟩ := a
  cases e with
  | idle noDeal books _ =>
    have hleaves : LeavesNothing s hist (⟨msg, call, hzero, hne, hstd⟩ : Action this) := by
      cases call with
      | token c => trivial
      | registry c => trivial
      | market c => cases c <;> trivial
    exact iff_of_true (noStrand_noDeal h books.deals noDeal) hleaves
  -- open deals are not asked about
  | created _ _ _ _ _ _ _ wrote =>
    refine iff_of_true ((noStrand_wrote_iff h wrote rfl).mpr ?_) trivial
    intro hclosed
    rw [createdDeal, Deal.assignShards_eq] at hclosed
    cases hclosed
  | renewed _ _ _ _ wrote =>
    refine iff_of_true ((noStrand_wrote_iff h wrote rfl).mpr ?_) trivial
    intro hclosed
    cases hclosed
  | lost deal_eq _ isOpen _ _ wrote | repaired deal_eq _ isOpen _ _ wrote =>
    refine iff_of_true ((noStrand_wrote_iff h wrote rfl).mpr ?_) trivial
    intro hclosed
    exact absurd (isOpen.symm.trans hclosed) (by decide)
  -- a failed deal pays its escrow back in full, so nothing is left
  | @failed dealId _ deal _ _ deal_eq _ isOpen _ _ _ wrote _ sent =>
    subst deal_eq
    obtain ⟨hescrow, -⟩ := hledger.of_isOpen isOpen
    refine iff_of_true ((noStrand_wrote_iff h wrote rfl).mpr ?_) trivial
    intro _
    obtain ⟨hin, hfee, hout⟩ := @totals_of_payout this dealId
      ⟨s, ⟨msg, _, hzero, hne, hstd⟩, logs, s'⟩ hist rfl rfl
    rw [hin, hfee, hout, sent, hledger.split]
    refine ⟨rfl, ?_⟩
    omega
  | @completed dealId deal _ _ deal_eq active _ _ fee_le wrote _ sent =>
    subst deal_eq
    have hopen : (s.market.deals dealId).status.isOpen = true := by
      rw [active]
      rfl
    obtain ⟨hescrow, hnone⟩ := hledger.of_isOpen hopen
    obtain ⟨hin, hfee, hout⟩ := @totals_of_payout this dealId
      ⟨s, ⟨msg, _, hzero, hne, hstd⟩, logs, s'⟩ hist rfl rfl
    -- what stays behind is the difference between the fee that is taken and the fees that were paid in
    rw [noStrand_wrote_iff h wrote rfl, hin, hfee, hout, sent, hledger.split]
    show (_ → _) ↔ payments dealId hist = 0 ∨ (_ ∧ _)
    rw [← protocolFee_le_iff]
    constructor
    · intro hall
      have hle := (hall rfl).2
      -- without a distributor nothing is sent, so there was nothing to pay
      by_cases hset : s.market.paymentDistributor = 0
      · rw [completionPayout, if_neg (not_not.mpr hset)] at hle
        omega
      · rw [completionPayout, if_pos hset] at hle
        have hfees : protocolFee (s.market.deals dealId).totalCost s.market.protocolFeeBasisPoints ≤
            fees dealId hist ∨ payments dealId hist = 0 := by
          omega
        exact hfees.symm.imp_right fun hle => ⟨hset, hle⟩
    · rintro hleaves -
      refine ⟨rfl, ?_⟩
      -- the distributor gets everything but the fee
      rcases hleaves with hnothing | ⟨hset, hfees⟩
      · omega
      · rw [completionPayout, if_pos hset]
        omega
  | @cancelled dealId deal _ _ deal_eq isOpen _ _ wrote _ sent =>
    subst deal_eq
    obtain ⟨hescrow, hnone⟩ := hledger.of_isOpen isOpen
    obtain ⟨hin, hfee, hout⟩ := @totals_of_payout this dealId
      ⟨s, ⟨msg, _, hzero, hne, hstd⟩, logs, s'⟩ hist rfl rfl
    -- what stays behind is what the client does not get back
    rw [noStrand_wrote_iff h wrote rfl, hin, hfee, hout, sent, hledger.split]
    dsimp only
    have hle := refundAmount_le (s.market.deals dealId) msg.timestamp
    apply Iff.trans _ (refundAmount_eq_iff (s.market.deals dealId) msg.timestamp)
    constructor
    · intro hall
      have hrest : (s.market.deals dealId).escrowedAmount -
          refundAmount (s.market.deals dealId) msg.timestamp = 0 := (hall rfl).1
      omega
    · intro hfull _
      refine ⟨?_, ?_⟩
      · show (s.market.deals dealId).escrowedAmount -
          refundAmount (s.market.deals dealId) msg.timestamp = 0
        omega
      · omega
  -- retrievals and fees belong to no deal
  | retrieving _ _ market | claimed _ _ market | withdrawn _ market =>
    refine iff_of_true (noStrand_noDeal h ?_ rfl) trivial
    simp [market, StorageMarketplace.setRetrieval]

/-- **No stranded escrow, exactly.** In all states of a run the closed deals have left nothing
behind, if and only if every call of the run that ends a deal leaves nothing behind. -/
theorem noStrand_iff {s₀ : System} (h : s₀.Deployed this) (as : List (Action this)) :
    (∀ bs, bs <+: as →
      NoStrand (run (System.step this) s₀ bs) (history (System.step this) s₀ bs)) ↔
    ∀ bs a, bs ++ [a] <+: as → Succeeds (System.step this) (run (System.step this) s₀ bs) a →
      LeavesNothing (run (System.step this) s₀ bs) (history (System.step this) s₀ bs) a := by
  refine lookback_iff (I := fun s hist => Books s hist) ?_ (books_deployed h) ?_ ?_ as
  · intro id hclosed
    obtain ⟨msg, treasury, hfresh⟩ := h.fresh
    rw [hfresh] at hclosed
    cases hclosed
  · intro s hist a s' logs hb hs
    exact books_step hb hs
  · intro s hist a s' logs hb hn hs
    exact step_noStrand_iff hb.ledger hn (step_effect hb.noApproval hs).1

theorem noStrand_iff_smallMarket :
    (∀ bs, bs <+: SmallMarket.oneDeal 0 ++ [SmallMarket.completion] →
      NoStrand (run (System.step SmallMarket.this) SmallMarket.deployed bs)
        (history (System.step SmallMarket.this) SmallMarket.deployed bs)) ↔
    ∀ bs a, bs ++ [a] <+: SmallMarket.oneDeal 0 ++ [SmallMarket.completion] →
      Succeeds (System.step SmallMarket.this)
        (run (System.step SmallMarket.this) SmallMarket.deployed bs) a →
      LeavesNothing (run (System.step SmallMarket.this) SmallMarket.deployed bs)
        (history (System.step SmallMarket.this) SmallMarket.deployed bs) a :=
  noStrand_iff SmallMarket.deployed_deployed _

/-- Cancelled half way through, a deal keeps half its escrow. Completed without a distributor, its
escrow is cleared and the tokens stay. -/
theorem cancelDeal_strands :
    ¬ NoStrand (SmallMarket.after
        [SmallMarket.client.calls 0 (.createDeal SmallMarket.params),
          SmallMarket.client.calls (15 * DAY) (.cancelDeal 0)])
      (history (System.step SmallMarket.this) SmallMarket.deployed (SmallMarket.setup ++
        [SmallMarket.client.calls 0 (.createDeal SmallMarket.params),
          SmallMarket.client.calls (15 * DAY) (.cancelDeal 0)])) ∧
    ¬ NoStrand (SmallMarket.after
        [SmallMarket.client.calls 0 (.createDeal SmallMarket.params), SmallMarket.completion])
      (history (System.step SmallMarket.this) SmallMarket.deployed (SmallMarket.setup ++
        [SmallMarket.client.calls 0 (.createDeal SmallMarket.params),
          SmallMarket.completion])) := by
  constructor
  · intro h
    have hheld := (h 0 (by decide +kernel)).1
    revert hheld
    decide +kernel
  · intro h
    have hle := (h 0 (by decide +kernel)).2
    revert hle
    decide +kernel

end Stranded

end Kyneto
