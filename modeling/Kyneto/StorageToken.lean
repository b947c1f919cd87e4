import Kyneto.Evm.Erc20

/-!
# `StorageToken`

The KYN token: an ERC-20 ledger with authorised minters, authorised burners and a cap on the
supply. `burnFrom` is a privileged burn that asks for no allowance; everything else that lowers a
balance is done by its holder or by someone the holder approved.

Of the events only those of the ledger are kept: nothing that is modelled reads the others. The one
fact other contracts need is `step_frame`: a contract that approves nobody and is not the
target of a privileged burn loses no tokens through calls of others.
-/

namespace Kyneto

open Evm

/-- 500 million tokens. -/
def INITIAL_SUPPLY : Nat := 500000000 * 10 ^ 18

/-- One billion tokens, inflation included. -/
def MAX_SUPPLY : Nat := 1000000000 * 10 ^ 18

/-- Basis points by which the inflation rate falls each year. -/
def INFLATION_DECREASE_PER_YEAR : Nat := 50

def MIN_INFLATION_RATE : Nat := 0

structure StorageToken extends Erc20 where
  owner : Address
  authorizedMinters : Address → Bool := fun _ => false
  authorizedBurners : Address → Bool := fun _ => false
  totalTokensBurned : Nat := 0
  annualInflationRate : Nat := 500
  lastInflationTimestamp : Nat := 0

namespace StorageToken

/-- The constructor: the deployer owns the contract and the initial supply. -/
def deploy (msg : Msg) : StorageToken where
  owner := msg.sender
  balanceOf := Function.update (fun _ => 0) msg.sender INITIAL_SUPPLY
  totalSupply := INITIAL_SUPPLY
  lastInflationTimestamp := msg.timestamp

/-! ## The ERC-20 interface -/

/-- Run an operation of the ledger inside the token. -/
def onLedger (t : StorageToken) (r : Tx (Erc20 × List TokenLog)) :
    Tx (StorageToken × List TokenLog) := do
  let (ledger, logs) ← r
  return ({ t with toErc20 := ledger }, logs)

def transfer (t : StorageToken) (src dst : Address) (value : Nat) :
    Tx (StorageToken × List TokenLog) :=
  t.onLedger (t.toErc20.transfer src dst value)

def transferFrom (t : StorageToken) (spender src dst : Address) (value : Nat) :
    Tx (StorageToken × List TokenLog) :=
  t.onLedger (t.toErc20.transferFrom spender src dst value)

def approve (t : StorageToken) (owner spender : Address) (value : Nat) :
    Tx (StorageToken × List TokenLog) :=
  t.onLedger (t.toErc20.approve owner spender value)

/-! ## Supply -/

def mint (t : StorageToken) (msg : Msg) (dst : Address) (amount : Nat) :
    Tx (StorageToken × List TokenLog) := do
  require (t.authorizedMinters msg.sender = true) "Not authorized to mint"
  let supply ← checkedAdd t.totalSupply amount
  require (supply ≤ MAX_SUPPLY) "Exceeds max supply"
  t.onLedger (t.toErc20.mint dst amount)

/-- Burn tokens of `src` and count them, as `burn` and `burnFrom` both do. -/
def burnCounted (t : StorageToken) (src : Address) (amount : Nat) :
    Tx (StorageToken × List TokenLog) := do
  let (ledger, logs) ← t.toErc20.burn src amount
  let totalTokensBurned ← checkedAdd t.totalTokensBurned amount
  return ({ t with toErc20 := ledger, totalTokensBurned }, logs)

def burn (t : StorageToken) (msg : Msg) (amount : Nat) : Tx (StorageToken × List TokenLog) :=
  t.burnCounted msg.sender amount

/-- The privileged burn: no allowance is asked for. -/
def burnFrom (t : StorageToken) (msg : Msg) (src : Address) (amount : Nat) :
    Tx (StorageToken × List TokenLog) := do
  require (t.authorizedBurners msg.sender = true) "Not authorized to burn"
  t.burnCounted src amount

/-! ## Administration -/

def setMinter (t : StorageToken) (msg : Msg) (minter : Address) (allowed : Bool) :
    Tx (StorageToken × List TokenLog) := do
  onlyOwner t.owner msg
  return ({ t with authorizedMinters := Function.update t.authorizedMinters minter allowed }, [])

def setBurner (t : StorageToken) (msg : Msg) (burner : Address) (allowed : Bool) :
    Tx (StorageToken × List TokenLog) := do
  onlyOwner t.owner msg
  return ({ t with authorizedBurners := Function.update t.authorizedBurners burner allowed }, [])

def authorizeMinter (t : StorageToken) (msg : Msg) (minter : Address) := t.setMinter msg minter true
def revokeMinter (t : StorageToken) (msg : Msg) (minter : Address) := t.setMinter msg minter false
def authorizeBurner (t : StorageToken) (msg : Msg) (burner : Address) := t.setBurner msg burner true
def revokeBurner (t : StorageToken) (msg : Msg) (burner : Address) := t.setBurner msg burner false

def updateInflationRate (t : StorageToken) (msg : Msg) : Tx (StorageToken × List TokenLog) := do
  onlyOwner t.owner msg
  let due ← checkedAdd t.lastInflationTimestamp (365 * 86400)
  require (due ≤ msg.timestamp) "Too early"
  let rate :=
    if MIN_INFLATION_RATE < t.annualInflationRate then
      if INFLATION_DECREASE_PER_YEAR < t.annualInflationRate then
        t.annualInflationRate - INFLATION_DECREASE_PER_YEAR
      else MIN_INFLATION_RATE
    else t.annualInflationRate
  return ({ t with annualInflationRate := rate, lastInflationTimestamp := msg.timestamp }, [])

/-- The loop of `batchTransfer`, over the pairs of recipients and amounts. -/
def transferEach (t : StorageToken) (src : Address) :
    List (Address × Nat) → Tx (StorageToken × List TokenLog)
  | [] => .ok (t, [])
  | (dst, amount) :: rest => do
    let (t, log) ← t.transfer src dst amount
    let (t, logs) ← t.transferEach src rest
    return (t, log ++ logs)

def batchTransfer (t : StorageToken) (msg : Msg) (recipients : List Address)
    (amounts : List Nat) : Tx (StorageToken × List TokenLog) := do
  require (recipients.length = amounts.length) "Arrays length mismatch"
  require (recipients.length ≤ 100) "Too many recipients"
  t.transferEach msg.sender (recipients.zip amounts)

/-! ## The contract as a state machine -/

inductive Call where
  | transfer (dst : Address) (value : Nat)
  | transferFrom (src dst : Address) (value : Nat)
  | approve (spender : Address) (value : Nat)
  | mint (dst : Address) (amount : Nat)
  | burn (amount : Nat)
  | burnFrom (src : Address) (amount : Nat)
  | authorizeMinter (minter : Address)
  | revokeMinter (minter : Address)
  | authorizeBurner (burner : Address)
  | revokeBurner (burner : Address)
  | updateInflationRate
  | batchTransfer (recipients : List Address) (amounts : List Nat)
  | transferOwnership (newOwner : Address)
  | renounceOwnership

def step (t : StorageToken) (msg : Msg) : Call → Tx (StorageToken × List TokenLog)
  | .transfer dst value => t.transfer msg.sender dst value
  | .transferFrom src dst value => t.transferFrom msg.sender src dst value
  | .approve spender value => t.approve msg.sender spender value
  | .mint dst amount => t.mint msg dst amount
  | .burn amount => t.burn msg amount
  | .burnFrom src amount => t.burnFrom msg src amount
  | .authorizeMinter minter => t.authorizeMinter msg minter
  | .revokeMinter minter => t.revokeMinter msg minter
  | .authorizeBurner burner => t.authorizeBurner msg burner
  | .revokeBurner burner => t.revokeBurner msg burner
  | .updateInflationRate => t.updateInflationRate msg
  | .batchTransfer recipients amounts => t.batchTransfer msg recipients amounts
  | .transferOwnership newOwner => do
    let owner ← Evm.transferOwnership t.owner msg newOwner
    return ({ t with owner }, [])
  | .renounceOwnership => do
    let owner ← Evm.renounceOwnership t.owner msg
    return ({ t with owner }, [])

/-- Whether the call is a privileged burn of `a`'s tokens, the one call a standard ERC-20 token
does not have. -/
def Call.burnsFrom (a : Address) : Call → Prop
  | .burnFrom src _ => src = a
  | _ => False

/-! ## What the operations do -/

theorem onLedger_eq_ok {t : StorageToken} {r : Tx (Erc20 × List TokenLog)}
    {out : StorageToken × List TokenLog} :
    t.onLedger r = .ok out ↔
      ∃ ledger logs, r = .ok (ledger, logs) ∧ out = ({ t with toErc20 := ledger }, logs) := by
  simp only [onLedger, bind_eq_ok, pure_eq_ok, Prod.exists]

theorem transfer_eq_ok {t : StorageToken} {src dst : Address} {value : Nat}
    {out : StorageToken × List TokenLog} :
    t.transfer src dst value = .ok out ↔
      src ≠ 0 ∧ dst ≠ 0 ∧ value ≤ t.balanceOf src ∧
        out = ({ t with toErc20 := t.toErc20.move src dst value }, [.Transfer src dst value]) := by
  simp only [transfer, onLedger_eq_ok, Erc20.transfer_eq_ok, Prod.mk.injEq]
  constructor
  · rintro ⟨ledger, logs, ⟨hs, hd, hv, rfl, rfl⟩, rfl⟩
    exact ⟨hs, hd, hv, rfl⟩
  · rintro ⟨hs, hd, hv, rfl⟩
    exact ⟨_, _, ⟨hs, hd, hv, rfl, rfl⟩, rfl⟩

theorem transferFrom_ok {t t' : StorageToken} {spender src dst : Address} {value : Nat}
    {logs : List TokenLog} (h : t.transferFrom spender src dst value = .ok (t', logs)) :
    src ≠ 0 ∧ value ≤ t.balanceOf src ∧
      t'.balanceOf = (t.toErc20.move src dst value).balanceOf ∧
      (∀ a, a ≠ src → t'.allowance a = t.allowance a) ∧ logs = [.Transfer src dst value] := by
  obtain ⟨ledger, logs', h, hout⟩ := onLedger_eq_ok.mp h
  obtain ⟨rfl, rfl⟩ := Prod.mk.inj hout
  exact Erc20.transferFrom_ok h

theorem transferFrom_succeeds_iff {t : StorageToken} {spender src dst : Address} {value : Nat}
    (hs : spender ≠ 0) (hsrc : src ≠ 0) (hdst : dst ≠ 0) :
    (∃ out, t.transferFrom spender src dst value = .ok out) ↔
      value ≤ t.balanceOf src ∧ t.toErc20.Allowed src spender value := by
  rw [← Erc20.transferFrom_succeeds_iff hs hsrc hdst]
  constructor
  · rintro ⟨out, h⟩
    obtain ⟨ledger, logs, h, -⟩ := onLedger_eq_ok.mp h
    exact ⟨_, h⟩
  · rintro ⟨⟨ledger, logs⟩, h⟩
    exact ⟨_, onLedger_eq_ok.mpr ⟨ledger, logs, h, rfl⟩⟩

/-- The token after tokens of `src` were burned and counted. -/
def afterBurn (t : StorageToken) (src : Address) (amount : Nat) : StorageToken :=
  { t with
    totalSupply := t.totalSupply - amount
    balanceOf := Function.update t.balanceOf src (t.balanceOf src - amount)
    totalTokensBurned := t.totalTokensBurned + amount }

theorem burnCounted_eq_ok {t : StorageToken} {src : Address} {amount : Nat}
    {out : StorageToken × List TokenLog} :
    t.burnCounted src amount = .ok out ↔
      src ≠ 0 ∧ amount ≤ t.balanceOf src ∧ t.totalTokensBurned + amount < uint256Size ∧
        out = (t.afterBurn src amount, [.Transfer src 0 amount]) := by
  simp only [burnCounted, Erc20.burn, bind_eq_ok, requireError_eq_ok, checkedAdd_eq_ok, pure_eq_ok, Prod.exists,
    Prod.mk.injEq, exists_const]
  constructor
  · rintro ⟨ledger, logs, ⟨hsrc, hle, rfl, rfl⟩, _, ⟨hlt, rfl⟩, rfl⟩
    exact ⟨hsrc, hle, hlt, rfl⟩
  · rintro ⟨hsrc, hle, hlt, rfl⟩
    exact ⟨_, _, ⟨hsrc, hle, rfl, rfl⟩, _, ⟨hlt, rfl⟩, rfl⟩

/-- What a burn takes from `src`, and what it leaves as it is. -/
theorem burnCounted_ok {t t' : StorageToken} {src : Address} {amount : Nat} {logs : List TokenLog}
    (h : t.burnCounted src amount = .ok (t', logs)) :
    t'.balanceOf src + amount = t.balanceOf src ∧ (∀ a, a ≠ src → t'.balanceOf a = t.balanceOf a) ∧
      t'.totalTokensBurned = t.totalTokensBurned + amount ∧ t'.allowance = t.allowance := by
  obtain ⟨-, hle, -, hout⟩ := burnCounted_eq_ok.mp h
  obtain ⟨rfl, -⟩ := Prod.mk.inj hout
  refine ⟨?_, ?_, rfl, rfl⟩
  · show Function.update t.balanceOf src (t.balanceOf src - amount) src + amount = _
    rw [Function.update_self]
    exact Nat.sub_add_cancel hle
  · intro a ha
    exact Function.update_of_ne ha _ _

/-- The token after tokens were minted for `dst`. -/
def afterMint (t : StorageToken) (dst : Address) (amount : Nat) : StorageToken :=
  { t with
    totalSupply := t.totalSupply + amount
    balanceOf := Function.update t.balanceOf dst (t.balanceOf dst + amount) }

/-- Minting needs a minter, a receiver and room below the cap. -/
theorem mint_eq_ok {t : StorageToken} {msg : Msg} {dst : Address} {amount : Nat}
    {out : StorageToken × List TokenLog} :
    t.mint msg dst amount = .ok out ↔
      t.authorizedMinters msg.sender = true ∧ t.totalSupply + amount ≤ MAX_SUPPLY ∧ dst ≠ 0 ∧
        out = (t.afterMint dst amount, [.Transfer 0 dst amount]) := by
  have hcap : MAX_SUPPLY < uint256Size := by decide
  simp only [mint, onLedger_eq_ok, Erc20.mint, bind_eq_ok, require_eq_ok, requireError_eq_ok, checkedAdd_eq_ok,
    pure_eq_ok, Prod.mk.injEq, exists_const]
  constructor
  · rintro ⟨hminter, _, ⟨-, rfl⟩, hle, ledger, logs, ⟨hdst, _, ⟨-, rfl⟩, rfl, rfl⟩, rfl⟩
    exact ⟨hminter, hle, hdst, rfl⟩
  · rintro ⟨hminter, hle, hdst, rfl⟩
    have hlt : t.totalSupply + amount < uint256Size := by omega
    exact ⟨hminter, _, ⟨hlt, rfl⟩, hle, _, _, ⟨hdst, _, ⟨hlt, rfl⟩, rfl, rfl⟩, rfl⟩

/-! ## A contract that approves nobody -/

/-- `t'` came from `t` without touching what `a` holds: `a` still approves nobody, and holds at
least as much as before. -/
def Spares (a : Address) (t t' : StorageToken) : Prop :=
  (∀ spender, t'.allowance a spender = t.allowance a spender) ∧ t.balanceOf a ≤ t'.balanceOf a

theorem Spares.refl (a : Address) (t : StorageToken) : Spares a t t :=
  ⟨fun _ => rfl, Nat.le_refl _⟩

theorem Spares.trans {a : Address} {t₁ t₂ t₃ : StorageToken} (h₁ : Spares a t₁ t₂)
    (h₂ : Spares a t₂ t₃) : Spares a t₁ t₃ :=
  ⟨fun sp => (h₂.1 sp).trans (h₁.1 sp), h₁.2.trans h₂.2⟩

theorem transfer_spares {t t' : StorageToken} {a src dst : Address} {value : Nat}
    {logs : List TokenLog} (hne : src ≠ a) (h : t.transfer src dst value = .ok (t', logs)) :
    Spares a t t' := by
  obtain ⟨-, -, -, hout⟩ := transfer_eq_ok.mp h
  obtain ⟨rfl, -⟩ := Prod.mk.inj hout
  exact ⟨fun _ => rfl, Erc20.balanceOf_move_le _ _ _ hne⟩

/-- Many payments from one address leave the others' money alone. -/
theorem transferEach_spares {a src : Address} (hne : src ≠ a) (pairs : List (Address × Nat))
    {t t' : StorageToken} {logs : List TokenLog}
    (h : t.transferEach src pairs = .ok (t', logs)) : Spares a t t' := by
  induction pairs generalizing t logs with
  | nil =>
    obtain ⟨rfl, -⟩ := Prod.mk.inj (Except.ok.inj h)
    exact Spares.refl a t
  | cons p rest ih =>
    simp only [transferEach, bind_eq_ok, Prod.exists, pure_eq_ok, Prod.mk.injEq] at h
    obtain ⟨t₁, l₁, h₁, t₂, l₂, h₂, rfl, -⟩ := h
    exact (transfer_spares hne h₁).trans (ih h₂)

/-- An account without approvals can only be moved from by value zero. -/
theorem transferFrom_spares {t t' : StorageToken} {a spender src dst : Address} {value : Nat}
    {logs : List TokenLog} (hno : ∀ sp, t.allowance a sp = 0)
    (h : t.transferFrom spender src dst value = .ok (t', logs)) :
    t.balanceOf a ≤ t'.balanceOf a ∧ ∀ sp, t'.allowance a sp = 0 := by
  obtain ⟨ledger, logs', hl, hout⟩ := onLedger_eq_ok.mp h
  obtain ⟨rfl, -⟩ := Prod.mk.inj hout
  by_cases hsrc : src = a
  · subst hsrc
    simp only [Erc20.transferFrom, bind_eq_ok, Erc20.transfer_eq_ok, Prod.mk.injEq] at hl
    obtain ⟨t₁, hs, -, -, -, rfl, -⟩ := hl
    have hpos : uint256Size - 1 ≠ 0 := by decide
    have hv : value = 0 := by
      rcases Erc20.spendAllowance_eq_ok hs with h | h
      · exact absurd (h.symm.trans (hno spender)) hpos
      · simpa [hno] using h
    subst hv
    obtain ⟨hb, -, -⟩ := Erc20.spendAllowance_frame hs
    refine ⟨by simp [hb], ?_⟩
    unfold Erc20.spendAllowance at hs
    rw [if_neg (by rw [hno]; exact hpos.symm)] at hs
    simp only [bind_eq_ok, pure_eq_ok] at hs
    obtain ⟨-, -, -, -, -, -, rfl⟩ := hs
    intro sp
    by_cases hsp : sp = spender
    · simp [Erc20.setAllowance, hsp, hno]
    · simp [Erc20.setAllowance, Function.update_of_ne hsp, hno]
  · obtain ⟨-, -, hb, ha, -⟩ := Erc20.transferFrom_ok hl
    have hallow : ledger.allowance a = t.allowance a := ha a (Ne.symm hsrc)
    refine ⟨?_, fun sp => (congrFun hallow sp).trans (hno sp)⟩
    show t.balanceOf a ≤ ledger.balanceOf a
    rw [hb]
    exact Erc20.balanceOf_move_le _ _ _ hsrc

theorem burnCounted_spares {t t' : StorageToken} {a src : Address} {amount : Nat}
    {logs : List TokenLog} (hne : src ≠ a) (h : t.burnCounted src amount = .ok (t', logs)) :
    Spares a t t' := by
  obtain ⟨-, hothers, -, hallowance⟩ := burnCounted_ok h
  exact ⟨fun _ => by rw [hallowance], (hothers a hne.symm).ge⟩

/-- **Calls of others take nothing from an account that approves nobody**, unless they are a
privileged burn of its tokens. -/
theorem step_frame {t t' : StorageToken} {a : Address} {msg : Msg} {c : Call}
    {logs : List TokenLog} (hne : msg.sender ≠ a) (hburn : ¬ c.burnsFrom a)
    (hno : ∀ sp, t.allowance a sp = 0) (h : t.step msg c = .ok (t', logs)) :
    t.balanceOf a ≤ t'.balanceOf a ∧ ∀ sp, t'.allowance a sp = 0 := by
  have spared : Spares a t t' → t.balanceOf a ≤ t'.balanceOf a ∧ ∀ sp, t'.allowance a sp = 0 :=
    fun hs => ⟨hs.2, fun sp => (hs.1 sp).trans (hno sp)⟩
  cases c with
  | transfer dst value => exact spared (transfer_spares hne h)
  | transferFrom src dst value => exact transferFrom_spares hno h
  | approve spender value =>
    obtain ⟨ledger, l, hl, hout⟩ := onLedger_eq_ok.mp h
    obtain ⟨rfl, -⟩ := Prod.mk.inj hout
    simp only [Erc20.approve, bind_eq_ok, pure_eq_ok, Prod.mk.injEq] at hl
    obtain ⟨-, -, -, -, rfl, -⟩ := hl
    exact spared ⟨fun sp => congrFun (Erc20.setAllowance_of_ne _ _ _ hne.symm) sp, Nat.le_refl _⟩
  | mint dst amount =>
    simp only [step, mint, bind_eq_ok, onLedger_eq_ok, Erc20.mint, pure_eq_ok, Prod.mk.injEq] at h
    obtain ⟨-, -, -, -, -, -, ledger, l, ⟨-, -, supply, -, rfl, -⟩, rfl, -⟩ := h
    refine spared ⟨fun _ => rfl, ?_⟩
    show t.balanceOf a ≤ Function.update t.balanceOf dst (t.balanceOf dst + amount) a
    by_cases hd : a = dst
    · simp [hd]
    · simp [Function.update_of_ne hd]
  | burn amount => exact spared (burnCounted_spares hne h)
  | burnFrom src amount =>
    simp only [step, burnFrom, bind_eq_ok] at h
    obtain ⟨-, -, h⟩ := h
    exact spared (burnCounted_spares hburn h)
  | batchTransfer recipients amounts =>
    simp only [step, batchTransfer, bind_eq_ok] at h
    obtain ⟨-, -, -, -, h⟩ := h
    exact spared (transferEach_spares hne _ h)
  | updateInflationRate =>
    simp only [step, updateInflationRate, bind_eq_ok, pure_eq_ok, Prod.mk.injEq] at h
    obtain ⟨-, -, -, -, -, -, rfl, -⟩ := h
    exact spared (Spares.refl a t)
  | transferOwnership newOwner | renounceOwnership =>
    simp only [step, bind_eq_ok, pure_eq_ok, Prod.mk.injEq] at h
    obtain ⟨owner, -, rfl, -⟩ := h
    exact spared (Spares.refl a t)
  | authorizeMinter minter | revokeMinter minter =>
    simp only [step, authorizeMinter, revokeMinter, setMinter, bind_eq_ok, pure_eq_ok,
      Prod.mk.injEq] at h
    obtain ⟨-, -, rfl, -⟩ := h
    exact spared (Spares.refl a t)
  | authorizeBurner burner | revokeBurner burner =>
    simp only [step, authorizeBurner, revokeBurner, setBurner, bind_eq_ok, pure_eq_ok,
      Prod.mk.injEq] at h
    obtain ⟨-, -, rfl, -⟩ := h
    exact spared (Spares.refl a t)

end StorageToken

end Kyneto
