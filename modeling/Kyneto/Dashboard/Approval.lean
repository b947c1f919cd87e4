import Kyneto.StorageMarketplace.Effect
import Kyneto.Js.Number

/-!
# The approval before a deal

The dashboard approves tokens for a deal and then calls `createDeal`, which pulls what the deal costs. Both compute the
cost from the same numbers. The dashboard adds the fee in dollars, at the rate that the marketplace starts with, and
converts the sum to KYN; the contract converts the price of a month, and takes its fee in KYN.

Two roundings work against each other. The dashboard loses up to a micro-dollar of the fee, and the contract loses up to
one unit of the price for each gigabyte and month. `approval_suffices_iff` compares them.
-/

namespace Kyneto

open Evm

/-! ## Both sides -/

/-- The amount that `handleCreateDeal` approves, for a size in whole gigabytes and a price in micro-dollars, which are
safe numbers themselves; `none` where the price of KYN is no safe number, or zero. -/
def approvalFor (roundedSize pricePerGBMonthUSD durationDays kynPrice : Nat) : Option Nat :=
  -- `Math.ceil(durationDays / 30)`
  let totalMonths := (durationDays + 29) / 30
  let providerPaymentUSD := roundedSize * pricePerGBMonthUSD * totalMonths
  let protocolFeeUSD := providerPaymentUSD * 300 / 10000
  let totalCostUSD := providerPaymentUSD + protocolFeeUSD
  if kynPrice ≤ MAX_SAFE_INTEGER ∧ kynPrice ≠ 0 then some (totalCostUSD * 10 ^ 18 / kynPrice) else none

/-- What `createDeal` pulls, as it computes it. -/
def System.dueFor (s : System) (params : DealParams) : Tx Nat := do
  let scaled ← checkedMul params.pricePerGBMonthUSD (10 ^ 18)
  let pricePerGBMonth ← checkedDiv scaled s.market.kynPriceUSD
  let cost ← charge params.fileSizeGB pricePerGBMonth params.durationDays s.market.protocolFeeBasisPoints
  return cost.total

section Deal

variable {this : Address} {s s' : System} {msg : Msg} {params : DealParams} {logs : List Log} {approved due : Nat}

theorem dueFor_eq (h : s.dueFor params = .ok due) :
    s.market.kynPriceUSD ≠ 0 ∧
      due = (Charge.of params.fileSizeGB (params.pricePerGBMonthUSD * 10 ^ 18 / s.market.kynPriceUSD)
        params.durationDays s.market.protocolFeeBasisPoints).total := by
  simp only [System.dueFor, bind_eq_ok, checkedMul_eq_ok, checkedDiv_eq_ok, pure_eq_ok] at h
  obtain ⟨_, ⟨-, rfl⟩, _, ⟨hprice, rfl⟩, cost, hcost, rfl⟩ := h
  rw [charge_ok hcost]
  exact ⟨hprice, rfl⟩

/-- A deal is created only with an allowance for what is due. -/
theorem createDeal_pulls (h : s.createDeal this msg params = .ok (s', logs)) :
    ∃ due, s.dueFor params = .ok due ∧ s.token.toErc20.Allowed msg.sender this due ∧
      due ≤ s.token.balanceOf msg.sender := by
  simp only [System.createDeal, bind_eq_ok, require_eq_ok, Prod.exists, exists_const] at h
  obtain ⟨-, -, -, -, scaled, hscaled, price, hprice, _, -, cost, hcost, token, paid, htransfer, -⟩ := h
  have hdue : s.dueFor params = .ok cost.total := by
    unfold System.dueFor
    simp only [bind_eq_ok]
    exact ⟨scaled, hscaled, price, hprice, cost, hcost, rfl⟩
  obtain ⟨ledger, paid', hledger, -⟩ := StorageToken.onLedger_eq_ok.mp htransfer
  obtain ⟨t, hspend, -⟩ := bind_eq_ok.mp hledger
  exact ⟨cost.total, hdue, Erc20.spendAllowance_eq_ok hspend, (Erc20.transferFrom_ok hledger).2.1⟩

/-! ## The comparison -/

/-- The fee of the contract is covered by the fee that was approved and by what the contract lost on the price. Both
sides are in KYN, times the price of KYN. -/
def FeeApproved (m : StorageMarketplace) (params : DealParams) : Prop :=
  let totalMonths := (params.durationDays + 29) / 30
  let payment :=
    providerPayment params.fileSizeGB (params.pricePerGBMonthUSD * 10 ^ 18 / m.kynPriceUSD) params.durationDays
  protocolFee payment m.protocolFeeBasisPoints * m.kynPriceUSD ≤
    params.fileSizeGB * params.pricePerGBMonthUSD * totalMonths * 300 / 10000 * 10 ^ 18 +
      params.fileSizeGB * totalMonths * (params.pricePerGBMonthUSD * 10 ^ 18 % m.kynPriceUSD)

instance (m : StorageMarketplace) (params : DealParams) : Decidable (FeeApproved m params) := by
  unfold FeeApproved
  infer_instance

/-- In dollars the payment is what the contract pays, and what it loses by rounding the price down. -/
theorem payment_split (size price months scale k : Nat) :
    size * price * months * scale =
      size * (price * scale / k) * months * k + size * months * (price * scale % k) := by
  calc size * price * months * scale
      = size * months * (price * scale) := by ring
    _ = size * months * (k * (price * scale / k) + price * scale % k) := by rw [Nat.div_add_mod]
    _ = size * (price * scale / k) * months * k + size * months * (price * scale % k) := by ring

/-- What is due against what is approved. -/
theorem due_le_approved_iff
    (happroved : approvalFor params.fileSizeGB params.pricePerGBMonthUSD params.durationDays s.market.kynPriceUSD =
      some approved)
    (hdue : s.dueFor params = .ok due) : due ≤ approved ↔ FeeApproved s.market params := by
  obtain ⟨hprice, rfl⟩ := dueFor_eq hdue
  have happroved' : approved = (params.fileSizeGB * params.pricePerGBMonthUSD * ((params.durationDays + 29) / 30) +
      params.fileSizeGB * params.pricePerGBMonthUSD * ((params.durationDays + 29) / 30) * 300 / 10000) * 10 ^ 18 /
        s.market.kynPriceUSD := by
    unfold approvalFor at happroved
    simp only at happroved
    split at happroved
    · exact (Option.some.inj happroved).symm
    · cases happroved
  have hsplit := payment_split params.fileSizeGB params.pricePerGBMonthUSD ((params.durationDays + 29) / 30) (10 ^ 18)
    s.market.kynPriceUSD
  rw [happroved', Nat.le_div_iff_mul_le (Nat.pos_of_ne_zero hprice), Nat.add_mul, hsplit]
  unfold FeeApproved Charge.total Charge.of providerPayment
  simp only
  rw [Nat.add_mul]
  omega

/-- **When the approval suffices**: exactly if the fee of the contract is covered. A deal needs an approval and a
balance of what is due. -/
theorem approval_suffices_iff
    (happroved : approvalFor params.fileSizeGB params.pricePerGBMonthUSD params.durationDays s.market.kynPriceUSD =
      some approved)
    (hdue : s.dueFor params = .ok due) :
    (due ≤ approved ↔ FeeApproved s.market params) ∧
      ∀ this msg s' logs, s.createDeal this msg params = .ok (s', logs) →
        s.token.toErc20.Allowed msg.sender this due ∧ due ≤ s.token.balanceOf msg.sender := by
  refine ⟨?_, fun this msg s' logs hcreate => ?_⟩
  · exact due_le_approved_iff happroved hdue
  · obtain ⟨pulled, hpulled, hallowed⟩ := createDeal_pulls hcreate
    obtain rfl := Except.ok.inj (hdue.symm.trans hpulled)
    exact hallowed

/-- A payment in whole hundreds of micro-dollars, at the rate the marketplace starts with or a lower one. -/
theorem feeApproved_of_dvd {m : StorageMarketplace} (hfee : m.protocolFeeBasisPoints ≤ 300)
    (hdvd : 100 ∣ params.fileSizeGB * params.pricePerGBMonthUSD * ((params.durationDays + 29) / 30)) :
    FeeApproved m params := by
  obtain ⟨hundreds, hhundreds⟩ := hdvd
  have hsplit := payment_split params.fileSizeGB params.pricePerGBMonthUSD ((params.durationDays + 29) / 30) (10 ^ 18)
    m.kynPriceUSD
  unfold FeeApproved providerPayment
  simp only
  rw [hhundreds] at hsplit ⊢
  generalize params.fileSizeGB * (params.pricePerGBMonthUSD * 10 ^ 18 / m.kynPriceUSD) *
    ((params.durationDays + 29) / 30) = payment at hsplit ⊢
  have hrate : protocolFee payment m.protocolFeeBasisPoints * 100 ≤ payment * 3 := by
    have hle : payment * m.protocolFeeBasisPoints ≤ payment * 300 := Nat.mul_le_mul_left payment hfee
    unfold protocolFee
    omega
  have hexact : 100 * hundreds * 300 / 10000 = hundreds * 3 := by omega
  have hscaled : protocolFee payment m.protocolFeeBasisPoints * m.kynPriceUSD * 100 ≤ payment * m.kynPriceUSD * 3 := by
    calc protocolFee payment m.protocolFeeBasisPoints * m.kynPriceUSD * 100
        = protocolFee payment m.protocolFeeBasisPoints * 100 * m.kynPriceUSD := by ring
      _ ≤ payment * 3 * m.kynPriceUSD := Nat.mul_le_mul_right _ hrate
      _ = payment * m.kynPriceUSD * 3 := by ring
  rw [hexact]
  omega

end Deal

/-! ### A price of 10001 micro-dollars -/

namespace SmallMarket

/-- The dashboard approves 0.10301 KYN. -/
def approved : Nat := 103010 * 10 ^ 12

def oddDeal : DealParams := { params with fileSizeGB := 1, pricePerGBMonthUSD := 10001 }

/-- The fee of 300.03 micro-dollars is rounded down, and the transaction fails for want of 0.0000003 KYN. -/
theorem approval_too_small :
    approvalFor oddDeal.fileSizeGB oddDeal.pricePerGBMonthUSD oddDeal.durationDays (after []).market.kynPriceUSD =
        some approved ∧
      (after []).dueFor oddDeal = .ok (approved + 3 * 10 ^ 11) ∧
      revertOf ((after [client.callsToken 0 (.approve this approved) id]).createDeal this ⟨client.addr, 0⟩ oddDeal) =
        some (.error "ERC20InsufficientAllowance") := by
  decide +kernel

/-- At a cent for a gigabyte and month nothing is rounded. -/
theorem approval_suffices :
    ∃ approved due, approvalFor params.fileSizeGB params.pricePerGBMonthUSD params.durationDays
        (after []).market.kynPriceUSD = some approved ∧ (after []).dueFor params = .ok due ∧ due ≤ approved := by
  have happroved : approvalFor params.fileSizeGB params.pricePerGBMonthUSD params.durationDays
      (after []).market.kynPriceUSD = some (1030 * 10 ^ 15) := by decide +kernel
  have hdue : (after []).dueFor params = .ok (1030 * 10 ^ 15) := by decide +kernel
  exact ⟨_, _, happroved, hdue, (approval_suffices_iff happroved hdue).1.mpr (by decide +kernel)⟩

end SmallMarket

end Kyneto
