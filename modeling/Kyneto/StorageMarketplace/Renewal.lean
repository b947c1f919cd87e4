import Kyneto.StorageMarketplace.Escrow

/-!
# Can a client cancel better by renewing first?

The refund of a cancellation is the escrow by the share of the time that is left. A renewal adds its price to the
escrow and its days to both times, so that time that has passed becomes a smaller share of the deal: some of the old
escrow for it is refunded after all. The renewal costs more than that as long as its seconds are not cheaper than those
of the deal, up to rounding (`netGain_renewed_le_iff`). But months are paid as a whole, and a deal of a single day has
paid for thirty.
-/

namespace Kyneto

open Evm

/-- The tokens that an account has won from one state to another. -/
def netGain (a : Address) (s s' : System) : Int := (s'.token.balanceOf a : Int) - s.token.balanceOf a

/-- A renewal takes no more of the old escrow back than it costs. Before the end of the deal, the old escrow for the
time that has passed, spread over the new days, is compared with the price of these. After the end, what is compared is
the old escrow for the time that is left now. -/
def RenewalCovered (deal : Deal) (cost additionalDays timestamp : Nat) : Prop :=
  let total := deal.endTime - deal.startTime
  let additional := additionalDays * DAY
  let elapsed := timestamp - deal.startTime
  if elapsed < total then
    deal.escrowedAmount * additional * elapsed < cost * total * elapsed +
      (total + additional) * (total - deal.escrowedAmount * (total - elapsed) % total)
  else if elapsed < total + additional then
    deal.escrowedAmount * (total + additional - elapsed) < cost * elapsed + (total + additional)
  else True

instance (deal : Deal) (cost additionalDays timestamp : Nat) :
    Decidable (RenewalCovered deal cost additionalDays timestamp) := by
  unfold RenewalCovered
  infer_instance

/-! ## Two quotients -/

section Quotients

variable {escrow cost total additional elapsed : Nat}

/-- Before the end: the old refund is rounded down, and so is the new one. -/
theorem shares_le_iff (h : elapsed < total) :
    (escrow + cost) * (total + additional - elapsed) / (total + additional) ≤
        escrow * (total - elapsed) / total + cost ↔
      escrow * additional * elapsed < cost * total * elapsed +
        (total + additional) * (total - escrow * (total - elapsed) % total) := by
  obtain ⟨left, rfl⟩ : ∃ left, total = elapsed + left := ⟨total - elapsed, by omega⟩
  have hpos : 0 < elapsed + left := by omega
  have hleft : elapsed + left - elapsed = left := Nat.add_sub_cancel_left _ _
  have hmore : elapsed + left + additional - elapsed = left + additional := by omega
  rw [hleft, hmore, ← Nat.lt_add_one_iff, Nat.div_lt_iff_lt_mul (by omega)]
  have hdivision := Nat.div_add_mod (escrow * left) (elapsed + left)
  have hrest := Nat.mod_lt (escrow * left) hpos
  generalize escrow * left / (elapsed + left) = share at hdivision ⊢
  generalize escrow * left % (elapsed + left) = rest at hdivision hrest ⊢
  obtain ⟨short, hshort⟩ : ∃ short, elapsed + left = rest + short := ⟨elapsed + left - rest, by omega⟩
  have hsub : elapsed + left - rest = short := by omega
  rw [hsub, ← Nat.mul_lt_mul_left hpos]
  zify at hdivision hshort ⊢
  -- multiplied by the duration, the two sides differ by the same number
  have hsame : ((elapsed : ℤ) + left) * ((share + cost + 1) * (elapsed + left + additional)) -
      ((elapsed : ℤ) + left) * ((escrow + cost) * (left + additional)) =
        cost * (elapsed + left) * elapsed + (elapsed + left + additional) * short -
          escrow * additional * elapsed := by
    linear_combination (elapsed + left + additional : ℤ) * (hdivision + hshort)
  constructor
  · intro h
    linarith
  · intro h
    linarith

/-- After the end there is no old refund. -/
theorem share_le_iff (h : elapsed < total + additional) :
    (escrow + cost) * (total + additional - elapsed) / (total + additional) ≤ cost ↔
      escrow * (total + additional - elapsed) < cost * elapsed + (total + additional) := by
  obtain ⟨left, hleft⟩ : ∃ left, total + additional = elapsed + left := ⟨total + additional - elapsed, by omega⟩
  have hsub : elapsed + left - elapsed = left := Nat.add_sub_cancel_left _ _
  rw [hleft, hsub, ← Nat.lt_add_one_iff, Nat.div_lt_iff_lt_mul (by omega), Nat.add_mul, Nat.add_mul, Nat.one_mul,
    Nat.mul_add]
  omega

end Quotients

/-! ## The two ways to cancel -/

section Calls

variable {this : Address} {s s' : System} {logs : List Log} {msg : Msg} {id days : Nat}

/-- What the client pays for a renewal, and that the deal ends later. -/
theorem renewDeal_pays (hne : msg.sender ≠ this) (h : s.renewDeal this msg id days = .ok (s', logs)) :
    s'.token.balanceOf msg.sender + (Charge.of (s.market.deals id).fileSizeGB (s.market.deals id).pricePerGBMonth days
        s.market.protocolFeeBasisPoints).total = s.token.balanceOf msg.sender ∧
      s'.market.deals id =
        { s.market.deals id with
          endTime := (s.market.deals id).endTime + days * DAY
          duration := (s.market.deals id).duration + days
          escrowedAmount := (s.market.deals id).escrowedAmount +
            (Charge.of (s.market.deals id).fileSizeGB (s.market.deals id).pricePerGBMonth days
              s.market.protocolFeeBasisPoints).total
          status := .Active } := by
  simp only [System.renewDeal, bind_eq_ok, checkedAdd_eq_ok, checkedMul_eq_ok, pure_eq_ok, Prod.exists,
    Prod.mk.injEq] at h
  obtain ⟨-, -, -, -, cost, hcost, token, paid, htransfer, _, -, _, ⟨-, rfl⟩, _, ⟨-, rfl⟩, _, ⟨-, rfl⟩, _, ⟨-, rfl⟩,
    rfl, -⟩ := h
  obtain ⟨-, hle, hbalance, -⟩ := StorageToken.transferFrom_ok htransfer
  have hmoved := Erc20.balanceOf_move_src s.token.toErc20 this hle
  rw [if_neg hne.symm] at hmoved
  rw [← charge_ok hcost]
  constructor
  · show token.balanceOf msg.sender + cost.total = s.token.balanceOf msg.sender
    rw [hbalance, hmoved]
    omega
  · exact Function.update_self _ _ _

/-- What the client gets back for a cancellation, by the time that is left. -/
theorem cancelDeal_refunds (hne : msg.sender ≠ this) (h : s.cancelDeal this msg id = .ok (s', logs)) :
    (s.market.deals id).startTime ≤ (s.market.deals id).endTime ∧
      s'.token.balanceOf msg.sender =
        s.token.balanceOf msg.sender + refundAmount (s.market.deals id) msg.timestamp := by
  simp only [System.cancelDeal, bind_eq_ok, require_eq_ok, checkedSub_eq_ok, exists_const] at h
  obtain ⟨-, hclient, deal, hdrop, _, ⟨hstarted, rfl⟩, refund, hrefund, h⟩ := h
  obtain ⟨-, rfl⟩ := Deal.dropShards_ok hdrop
  refine ⟨hstarted, ?_⟩
  have hamount : refund = refundAmount (s.market.deals id) msg.timestamp := refundOf_ok hrefund
  subst hamount
  split at h
  · simp only [bind_eq_ok, pure_eq_ok, Prod.exists, Prod.mk.injEq] at h
    obtain ⟨_, -, token, paid, htransfer, rfl, -⟩ := h
    obtain ⟨-, hother, -⟩ := pushed htransfer
    rw [← hclient]
    exact (hother (hclient ▸ hne)).2
  · next hzero =>
    simp only [pure_eq_ok, Prod.mk.injEq] at h
    obtain ⟨rfl, -⟩ := h
    have hnothing : refundAmount (s.market.deals id) msg.timestamp = 0 := Nat.eq_zero_of_not_pos hzero
    rw [hnothing]
    rfl

/-- **Renewing first is no better way to cancel** exactly if the renewal is covered. -/
theorem netGain_renewed_le_iff {renewal cancellation : Action this} {r₁ r₂ r₃ : System × List Log}
    (hrenewal : renewal.call = .market (.renewDeal id days))
    (hcancellation : cancellation.call = .market (.cancelDeal id)) (hmsg : renewal.msg = cancellation.msg)
    (hrenew : System.step this s renewal = .ok r₁) (hthen : System.step this r₁.1 cancellation = .ok r₂)
    (halone : System.step this s cancellation = .ok r₃) :
    netGain cancellation.msg.sender s r₂.1 ≤ netGain cancellation.msg.sender s r₃.1 ↔
      RenewalCovered (s.market.deals id)
        (Charge.of (s.market.deals id).fileSizeGB (s.market.deals id).pricePerGBMonth days
          s.market.protocolFeeBasisPoints).total days cancellation.msg.timestamp := by
  obtain ⟨msg, call, hzero, hne, hstd⟩ := cancellation
  obtain ⟨msg', call', hzero', hne', hstd'⟩ := renewal
  obtain rfl : msg' = msg := hmsg
  obtain rfl : call = .market (.cancelDeal id) := hcancellation
  obtain rfl : call' = .market (.renewDeal id days) := hrenewal
  obtain ⟨s₁, logs₁⟩ := r₁
  obtain ⟨s₂, logs₂⟩ := r₂
  obtain ⟨s₃, logs₃⟩ := r₃
  obtain ⟨hpaid, hrenewed⟩ := renewDeal_pays hne hrenew
  obtain ⟨-, hthen⟩ := cancelDeal_refunds hne hthen
  obtain ⟨hstarted, halone⟩ := cancelDeal_refunds hne halone
  rw [hrenewed] at hthen
  dsimp only at hthen halone ⊢
  generalize hcost : (Charge.of (s.market.deals id).fileSizeGB (s.market.deals id).pricePerGBMonth days
    s.market.protocolFeeBasisPoints).total = cost at hpaid hthen ⊢
  generalize s.market.deals id = deal at hstarted hthen halone ⊢
  have hgain : netGain msg'.sender s s₂ ≤ netGain msg'.sender s s₃ ↔
      refundAmount { deal with
          endTime := deal.endTime + days * DAY, duration := deal.duration + days
          escrowedAmount := deal.escrowedAmount + cost, status := .Active } msg'.timestamp ≤
        refundAmount deal msg'.timestamp + cost := by
    unfold netGain
    omega
  have htotal : deal.endTime + days * DAY - deal.startTime = deal.endTime - deal.startTime + days * DAY := by omega
  rw [hgain]
  unfold refundAmount RenewalCovered
  dsimp only
  rw [htotal]
  split
  · next hlt =>
    by_cases hbefore : msg'.timestamp - deal.startTime < deal.endTime - deal.startTime
    · rw [if_pos hbefore, if_pos hbefore]
      exact shares_le_iff hbefore
    · rw [if_neg hbefore, if_neg hbefore, Nat.zero_add]
      exact share_le_iff hlt
  · next hge =>
    have hover : ¬ msg'.timestamp - deal.startTime < deal.endTime - deal.startTime := by omega
    rw [if_neg hover, if_neg hover]
    exact iff_of_true (Nat.zero_le _) trivial

end Calls

/-! ### A month and a day -/

namespace SmallMarket

/-- The client's balances after a renewal and a cancellation, and after the cancellation alone. -/
def bothWays (s : System) (renewal cancellation : Action this) : Option (Nat × Nat) := do
  let r₁ ← (System.step this s renewal).toOption
  let r₂ ← (System.step this r₁.1 cancellation).toOption
  let r₃ ← (System.step this s cancellation).toOption
  return (r₂.1.token.balanceOf client.addr, r₃.1.token.balanceOf client.addr)

/-- What `bothWays` computes are the balances after the two ways of leaving a deal. -/
theorem exists_of_bothWays {s : System} {renewal cancellation : Action this} {x y : Nat}
    (h : bothWays s renewal cancellation = some (x, y)) :
    ∃ r₁ r₂ r₃, System.step this s renewal = .ok r₁ ∧ System.step this r₁.1 cancellation = .ok r₂ ∧
      System.step this s cancellation = .ok r₃ ∧ r₂.1.token.balanceOf client.addr = x ∧
      r₃.1.token.balanceOf client.addr = y := by
  cases h₁ : System.step this s renewal with
  | error e => simp [bothWays, h₁, Except.toOption] at h
  | ok r₁ =>
    cases h₂ : System.step this r₁.1 cancellation with
    | error e => simp [bothWays, h₁, h₂, Except.toOption] at h
    | ok r₂ =>
      cases h₃ : System.step this s cancellation with
      | error e => simp [bothWays, h₁, h₃, Except.toOption] at h
      | ok r₃ =>
        simp only [bothWays, h₁, h₂, h₃, Except.toOption, Option.bind_eq_bind, Option.bind_some,
          Option.pure_def, Option.some.injEq, Prod.mk.injEq] at h
        exact ⟨r₁, r₂, r₃, rfl, h₂, rfl, h.1, h.2⟩

/-- A deal of the given days, which cost what a month does. -/
def dealOf (days : Nat) : System := after [client.calls 0 (.createDeal { params with durationDays := days })]

/-- A month, renewed for another one when half of it is over. -/
theorem month_renewed : ∃ r₁ r₂ r₃, System.step this (dealOf 30) (client.calls (15 * DAY) (.renewDeal 0 30)) = .ok r₁ ∧
    System.step this r₁.1 (client.calls (15 * DAY) (.cancelDeal 0)) = .ok r₂ ∧
    System.step this (dealOf 30) (client.calls (15 * DAY) (.cancelDeal 0)) = .ok r₃ ∧
    netGain client.addr (dealOf 30) r₂.1 ≤ netGain client.addr (dealOf 30) r₃.1 := by
  have hrun :
      bothWays (dealOf 30) (client.calls (15 * DAY) (.renewDeal 0 30)) (client.calls (15 * DAY) (.cancelDeal 0)) =
      some (9999485000000000000000, 9999485000000000000000) := by
    decide +kernel
  obtain ⟨r₁, r₂, r₃, h₁, h₂, h₃, -, -⟩ := exists_of_bothWays hrun
  have hrenewal : (client.calls (15 * DAY) (.renewDeal 0 30)).call = .market (.renewDeal 0 30) := rfl
  have hcancellation : (client.calls (15 * DAY) (.cancelDeal 0)).call = .market (.cancelDeal 0) := rfl
  refine ⟨r₁, r₂, r₃, h₁, h₂, h₃, ?_⟩
  refine (netGain_renewed_le_iff hrenewal hcancellation rfl h₁ h₂ h₃).mpr ?_
  decide +kernel

/-- A day, renewed for a month when it is over: most of what the day has cost comes back. -/
theorem day_renewed : ∃ r₁ r₂ r₃, System.step this (dealOf 1) (client.calls DAY (.renewDeal 0 30)) = .ok r₁ ∧
    System.step this r₁.1 (client.calls DAY (.cancelDeal 0)) = .ok r₂ ∧
    System.step this (dealOf 1) (client.calls DAY (.cancelDeal 0)) = .ok r₃ ∧
    ¬ netGain client.addr (dealOf 1) r₂.1 ≤ netGain client.addr (dealOf 1) r₃.1 := by
  have hrun : bothWays (dealOf 1) (client.calls DAY (.renewDeal 0 30)) (client.calls DAY (.cancelDeal 0)) =
      some (9999933548387096774193, 9998970000000000000000) := by
    decide +kernel
  obtain ⟨r₁, r₂, r₃, h₁, h₂, h₃, hrenewed, halone⟩ := exists_of_bothWays hrun
  refine ⟨r₁, r₂, r₃, h₁, h₂, h₃, ?_⟩
  unfold netGain
  rw [hrenewed, halone]
  omega

end SmallMarket

end Kyneto
