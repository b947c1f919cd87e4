import Kyneto.Evm.Run
import Kyneto.StorageToken

/-!
# The supply of the token

Tokens are minted and burned again, without end: burning makes room below the cap. What is conserved is the supply
together with all that was ever burned, against all that was ever minted (`supply_run`).

`Moved` says what an operation does to the three numbers. Transfers do nothing to them, to the sender itself or to one
recipient several times as well.
-/

namespace Kyneto

open Evm

/-- What all accounts hold together. -/
def Evm.Erc20.held (t : Erc20) : Nat := ∑ a, t.balanceOf a

namespace StorageToken

/-- A call of the token, by whomever. -/
structure Action where
  msg : Msg
  call : Call

def act (t : StorageToken) (a : Action) : Tx (StorageToken × List TokenLog) := t.step a.msg a.call

def Call.minted : Call → Nat
  | .mint _ amount => amount
  | _ => 0

def Call.burned : Call → Nat
  | .burn amount | .burnFrom _ amount => amount
  | _ => 0

/-- All that was ever minted by `mint`. -/
def totalMinted (hist : List (Entry StorageToken Action TokenLog)) : Nat := (hist.map fun e => e.act.call.minted).sum

/-- `minted` tokens were added, and `burned` tokens taken and counted. -/
structure Moved (t t' : StorageToken) (minted burned : Nat) : Prop where
  totalSupply : t'.totalSupply + burned = t.totalSupply + minted
  held : t'.held + burned = t.held + minted
  counted : t'.totalTokensBurned = t.totalTokensBurned + burned

/-- The supply is within the cap, it is what the accounts hold, and it accounts for what was minted and burned. -/
structure Supply (t : StorageToken) (hist : List (Entry StorageToken Action TokenLog)) : Prop where
  capped : t.totalSupply ≤ MAX_SUPPLY
  held : t.totalSupply = t.held
  counted : t.totalSupply + t.totalTokensBurned = INITIAL_SUPPLY + totalMinted hist

section Moves

variable {t t' t'' : StorageToken} {msg : Msg} {src dst : Address} {value : Nat} {logs : List TokenLog}

theorem held_update (b : Address → Nat) (a : Address) (n : Nat) :
    ∑ x, Function.update b a n x + b a = ∑ x, b x + n := sum_univ_update id b a n

theorem Moved.of_held (hsupply : t'.totalSupply = t.totalSupply) (hheld : t'.held = t.held)
    (hburned : t'.totalTokensBurned = t.totalTokensBurned) : Moved t t' 0 0 where
  totalSupply := by rw [hsupply]
  held := by rw [hheld]
  counted := hburned

theorem Moved.refl (t : StorageToken) : Moved t t 0 0 := ⟨rfl, rfl, rfl⟩

theorem Moved.trans (h : Moved t t' 0 0) (h' : Moved t' t'' 0 0) : Moved t t'' 0 0 :=
  ⟨h'.totalSupply.trans h.totalSupply, h'.held.trans h.held, h'.counted.trans h.counted⟩

theorem held_of_update (t t' : Erc20) (a : Address) (n : Nat) (h : t'.balanceOf = Function.update t.balanceOf a n) :
    t'.held + t.balanceOf a = t.held + n := by
  unfold Erc20.held
  rw [h]
  exact held_update t.balanceOf a n

/-- A transfer takes first and gives then, so it may be to the sender itself. -/
theorem held_move (t : Erc20) (dst : Address) (h : value ≤ t.balanceOf src) : (t.move src dst value).held = t.held := by
  let taken : Erc20 := { t with balanceOf := Function.update t.balanceOf src (t.balanceOf src - value) }
  have hdebit := held_of_update t taken src (t.balanceOf src - value) rfl
  have hcredit := held_of_update taken (t.move src dst value) dst (taken.balanceOf dst + value) rfl
  omega

theorem transfer_moved (h : t.transfer src dst value = .ok (t', logs)) : Moved t t' 0 0 := by
  obtain ⟨-, -, hle, hout⟩ := transfer_eq_ok.mp h
  obtain ⟨rfl, -⟩ := Prod.mk.inj hout
  exact Moved.of_held rfl (held_move t.toErc20 dst hle) rfl

/-- Many payments only move tokens. -/
theorem transferEach_moved (pairs : List (Address × Nat)) (h : t.transferEach src pairs = .ok (t', logs)) :
    Moved t t' 0 0 := by
  induction pairs generalizing t logs with
  | nil =>
    obtain ⟨rfl, -⟩ := Prod.mk.inj (Except.ok.inj h)
    exact Moved.refl t
  | cons p rest ih =>
    simp only [transferEach, bind_eq_ok, Prod.exists, pure_eq_ok, Prod.mk.injEq] at h
    obtain ⟨t₁, l₁, h₁, t₂, l₂, h₂, rfl, -⟩ := h
    exact (transfer_moved h₁).trans (ih h₂)

/-- So does a payment by allowance. -/
theorem transferFrom_moved {spender : Address} (h : t.transferFrom spender src dst value = .ok (t', logs)) :
    Moved t t' 0 0 := by
  obtain ⟨ledger, l, hl, hout⟩ := onLedger_eq_ok.mp h
  obtain ⟨rfl, -⟩ := Prod.mk.inj hout
  simp only [Erc20.transferFrom, bind_eq_ok, Erc20.transfer_eq_ok, Prod.mk.injEq] at hl
  obtain ⟨spent, hspend, -, -, hle, rfl, -⟩ := hl
  obtain ⟨hbalance, hsupply, -⟩ := Erc20.spendAllowance_frame hspend
  have hheld : spent.held = t.held := by
    unfold Erc20.held
    rw [hbalance]
  exact Moved.of_held hsupply ((held_move spent dst hle).trans hheld) rfl

theorem approve_moved {owner spender : Address} (h : t.approve owner spender value = .ok (t', logs)) :
    Moved t t' 0 0 := by
  obtain ⟨ledger, l, hl, hout⟩ := onLedger_eq_ok.mp h
  obtain ⟨rfl, -⟩ := Prod.mk.inj hout
  simp only [Erc20.approve, bind_eq_ok, pure_eq_ok, Prod.mk.injEq] at hl
  obtain ⟨-, -, -, -, rfl, -⟩ := hl
  exact ⟨rfl, rfl, rfl⟩

theorem mint_moved (h : t.mint msg dst value = .ok (t', logs)) : Moved t t' value 0 := by
  obtain ⟨-, -, -, hout⟩ := mint_eq_ok.mp h
  obtain ⟨rfl, -⟩ := Prod.mk.inj hout
  refine ⟨rfl, ?_, rfl⟩
  have hcredit := held_of_update t.toErc20 (t.afterMint dst value).toErc20 dst (t.balanceOf dst + value) rfl
  show (t.afterMint dst value).held + 0 = t.held + value
  omega

theorem le_held (t : Erc20) (a : Address) : t.balanceOf a ≤ t.held :=
  Finset.single_le_sum (fun _ _ => Nat.zero_le _) (Finset.mem_univ a)

/-- Burning takes the tokens out of the supply, and counts them. -/
theorem burnCounted_moved (hheld : t.totalSupply = t.held) (h : t.burnCounted src value = .ok (t', logs)) :
    Moved t t' 0 value := by
  obtain ⟨-, hle, -, hout⟩ := burnCounted_eq_ok.mp h
  obtain ⟨rfl, -⟩ := Prod.mk.inj hout
  have hsrc := le_held t.toErc20 src
  have hdebit := held_of_update t.toErc20 (t.afterBurn src value).toErc20 src (t.balanceOf src - value) rfl
  refine ⟨?_, ?_, rfl⟩
  · show t.totalSupply - value + value = t.totalSupply + 0
    omega
  · omega

/-- **What a call does to the supply.** -/
theorem step_moved {c : Call} (hheld : t.totalSupply = t.held) (h : t.step msg c = .ok (t', logs)) :
    Moved t t' c.minted c.burned := by
  cases c with
  | transfer dst value => exact transfer_moved h
  | transferFrom src dst value => exact transferFrom_moved h
  | approve spender value => exact approve_moved h
  | mint dst amount => exact mint_moved h
  | burn amount => exact burnCounted_moved hheld h
  | burnFrom src amount =>
    simp only [step, burnFrom, bind_eq_ok] at h
    obtain ⟨-, -, h⟩ := h
    exact burnCounted_moved hheld h
  | batchTransfer recipients amounts =>
    simp only [step, batchTransfer, bind_eq_ok] at h
    obtain ⟨-, -, -, -, h⟩ := h
    exact transferEach_moved _ h
  | updateInflationRate =>
    simp only [step, updateInflationRate, bind_eq_ok, pure_eq_ok, Prod.mk.injEq] at h
    obtain ⟨-, -, -, -, -, -, rfl, -⟩ := h
    exact ⟨rfl, rfl, rfl⟩
  | transferOwnership newOwner | renounceOwnership =>
    simp only [step, bind_eq_ok, pure_eq_ok, Prod.mk.injEq] at h
    obtain ⟨owner, -, rfl, -⟩ := h
    exact ⟨rfl, rfl, rfl⟩
  | authorizeMinter minter | revokeMinter minter =>
    simp only [step, authorizeMinter, revokeMinter, setMinter, bind_eq_ok, pure_eq_ok, Prod.mk.injEq] at h
    obtain ⟨-, -, rfl, -⟩ := h
    exact ⟨rfl, rfl, rfl⟩
  | authorizeBurner burner | revokeBurner burner =>
    simp only [step, authorizeBurner, revokeBurner, setBurner, bind_eq_ok, pure_eq_ok, Prod.mk.injEq] at h
    obtain ⟨-, -, rfl, -⟩ := h
    exact ⟨rfl, rfl, rfl⟩

/-- Only `mint` raises the supply, and it checks the cap. -/
theorem step_capped {c : Call} (hcapped : t.totalSupply ≤ MAX_SUPPLY) (hheld : t.totalSupply = t.held)
    (h : t.step msg c = .ok (t', logs)) : t'.totalSupply ≤ MAX_SUPPLY := by
  have hmoved := (step_moved hheld h).totalSupply
  by_cases hmint : c.minted = 0
  · omega
  · cases c with
    | mint dst amount =>
      obtain ⟨-, hcap, -, hout⟩ := mint_eq_ok.mp h
      obtain ⟨rfl, -⟩ := Prod.mk.inj hout
      exact hcap
    | _ => exact absurd rfl hmint

end Moves

/-! ## Runs -/

section Runs

/-- The supply at the beginning. -/
theorem supply_deploy (msg : Msg) : Supply (deploy msg) [] where
  capped := by
    show INITIAL_SUPPLY ≤ MAX_SUPPLY
    decide
  held := by
    have hempty : ({} : Erc20).held = 0 := Finset.sum_const_zero
    have hcredit := held_of_update {} (deploy msg).toErc20 msg.sender INITIAL_SUPPLY rfl
    rw [hempty, Nat.add_zero, Nat.zero_add] at hcredit
    exact hcredit.symm
  counted := rfl

/-- What a call burns is in the supply before. -/
theorem burned_le {t t' : StorageToken} {minted burned : Nat} (h : Moved t t' minted burned)
    (hone : minted = 0 ∨ burned = 0) : burned ≤ t.totalSupply := by
  have hsupply := h.totalSupply
  omega

theorem minted_or_burned (c : Call) : c.minted = 0 ∨ c.burned = 0 := by
  cases c with
  | mint _ _ => exact Or.inr rfl
  | _ => exact Or.inl rfl

/-- The invariant, with a bound on what was burned: no call burns more than the cap. -/
theorem supply_history (msg : Msg) (as : List Action) :
    Supply (run act (deploy msg) as) (history act (deploy msg) as) ∧
      (run act (deploy msg) as).totalTokensBurned ≤ (history act (deploy msg) as).length * MAX_SUPPLY := by
  refine run_induction (P := fun t hist => Supply t hist ∧ t.totalTokensBurned ≤ hist.length * MAX_SUPPLY)
    ⟨supply_deploy msg, Nat.zero_le _⟩ ?_ as (meets_true _ as)
  rintro t hist a t' logs ⟨hsupply, hburned⟩ - hstep
  have hmoved := step_moved hsupply.held hstep
  refine ⟨⟨step_capped hsupply.capped hsupply.held hstep, ?_, ?_⟩, ?_⟩
  · have hheld := hsupply.held
    have htotal := hmoved.totalSupply
    have hsum := hmoved.held
    omega
  · have hcounted := hsupply.counted
    have htotal := hmoved.totalSupply
    have hcount := hmoved.counted
    have hminted : totalMinted (hist ++ [⟨t, a, logs, t'⟩]) = totalMinted hist + a.call.minted := by
      unfold totalMinted
      rw [List.map_append, List.sum_append]
      rfl
    omega
  · have hle := burned_le hmoved (minted_or_burned a.call)
    have hcapped := hsupply.capped
    have hcount := hmoved.counted
    rw [List.length_append, List.length_singleton, Nat.add_mul, Nat.one_mul]
    omega

/-- **Token supply accounting**, in every state that calls by anybody can reach. Along fewer than 2^160 calls the
addition to `totalTokensBurned` never overflows after a burn of the ledger that goes through. -/
theorem supply_run (msg : Msg) (as : List Action) :
    (run act (deploy msg) as).totalSupply ≤ MAX_SUPPLY ∧
      (run act (deploy msg) as).totalSupply = ∑ a, (run act (deploy msg) as).balanceOf a ∧
      (run act (deploy msg) as).totalSupply + (run act (deploy msg) as).totalTokensBurned =
        INITIAL_SUPPLY + totalMinted (history act (deploy msg) as) ∧
      (as.length < 2 ^ 160 → ∀ src amount burnt, (run act (deploy msg) as).toErc20.burn src amount = .ok burnt →
        ∃ total, checkedAdd (run act (deploy msg) as).totalTokensBurned amount = .ok total) := by
  obtain ⟨hsupply, hburned⟩ := supply_history msg as
  refine ⟨hsupply.capped, hsupply.held, hsupply.counted, ?_⟩
  intro hlength src amount burnt hburn
  simp only [Erc20.burn, bind_eq_ok, requireError_eq_ok] at hburn
  obtain ⟨-, -, -, hle, -⟩ := hburn
  have hamount : amount ≤ MAX_SUPPLY := by
    have hsrc := le_held (run act (deploy msg) as).toErc20 src
    have hheld := hsupply.held
    have hcapped := hsupply.capped
    omega
  have hhistory : (history act (deploy msg) as).length ≤ as.length := length_history_le (deploy msg) as
  have hbound : (history act (deploy msg) as).length * MAX_SUPPLY ≤ 2 ^ 160 * MAX_SUPPLY :=
    Nat.mul_le_mul_right _ (by omega)
  have hroom : 2 ^ 160 * MAX_SUPPLY + MAX_SUPPLY < uint256Size := by decide
  exact ⟨_, checkedAdd_eq_ok.mpr ⟨by omega, rfl⟩⟩

/-- The owner mints, burns, and sends to itself and twice to one recipient. -/
def mintedAndBurned : List Action :=
  [⟨⟨1, 0⟩, .authorizeMinter 1⟩, ⟨⟨1, 0⟩, .mint 1 500⟩, ⟨⟨1, 0⟩, .burn 700⟩,
    ⟨⟨1, 0⟩, .batchTransfer [1, 2, 2] [10, 20, 30]⟩]

theorem supply_mintedAndBurned :
    (run act (deploy ⟨1, 0⟩) mintedAndBurned).balanceOf 2 = 50 ∧
      (run act (deploy ⟨1, 0⟩) mintedAndBurned).totalSupply + 700 = INITIAL_SUPPLY + 500 ∧
      ∃ total, checkedAdd (run act (deploy ⟨1, 0⟩) mintedAndBurned).totalTokensBurned 50 = .ok total := by
  refine ⟨by decide, by decide, ?_⟩
  have hburn : revertOf ((run act (deploy ⟨1, 0⟩) mintedAndBurned).toErc20.burn 2 50) = none := by decide
  exact (supply_run ⟨1, 0⟩ mintedAndBurned).2.2.2 (by decide) 2 50 _ (eq_resultOf hburn)

end Runs

end StorageToken

end Kyneto
