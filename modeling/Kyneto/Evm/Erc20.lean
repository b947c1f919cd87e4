import Kyneto.Evm.Basic

/-!
# The ERC-20 ledger

OpenZeppelin's `ERC20`: balances, allowances and the total supply, with the checks and custom
errors of its version 5. `transfer` and `transferFrom` either revert or return `true`, so the
`require` that callers put around them is not repeated in their models.

Balances are added without an overflow check, as in the original: they never exceed the total
supply, whose own addition in `mint` is checked.
-/

namespace Kyneto.Evm

/-- The events of an ERC-20 token. -/
inductive TokenLog where
  | Transfer (src dst : Address) (value : Nat)
  | Approval (owner spender : Address) (value : Nat)
  deriving DecidableEq, Repr

structure Erc20 where
  balanceOf : Address → Nat := fun _ => 0
  allowance : Address → Address → Nat := fun _ _ => 0
  totalSupply : Nat := 0

namespace Erc20

/-! ## Operations -/

/-- Take `value` from `src`, then give it to `dst`; the two may be the same account. -/
def move (t : Erc20) (src dst : Address) (value : Nat) : Erc20 :=
  let debited := Function.update t.balanceOf src (t.balanceOf src - value)
  { t with balanceOf := Function.update debited dst (debited dst + value) }

/-- `transfer`, called by `src`. -/
def transfer (t : Erc20) (src dst : Address) (value : Nat) : Tx (Erc20 × List TokenLog) := do
  requireError (src ≠ 0) "ERC20InvalidSender"
  requireError (dst ≠ 0) "ERC20InvalidReceiver"
  requireError (value ≤ t.balanceOf src) "ERC20InsufficientBalance"
  return (t.move src dst value, [.Transfer src dst value])

def setAllowance (t : Erc20) (owner spender : Address) (value : Nat) : Erc20 :=
  let granted := Function.update (t.allowance owner) spender value
  { t with allowance := Function.update t.allowance owner granted }

/-- An allowance of `2^256 - 1` is never used up. -/
def spendAllowance (t : Erc20) (owner spender : Address) (value : Nat) : Tx Erc20 :=
  if t.allowance owner spender = uint256Size - 1 then .ok t
  else do
    requireError (value ≤ t.allowance owner spender) "ERC20InsufficientAllowance"
    requireError (owner ≠ 0) "ERC20InvalidApprover"
    requireError (spender ≠ 0) "ERC20InvalidSpender"
    return t.setAllowance owner spender (t.allowance owner spender - value)

/-- `transferFrom`, called by `spender`. -/
def transferFrom (t : Erc20) (spender src dst : Address) (value : Nat) :
    Tx (Erc20 × List TokenLog) := do
  let t ← t.spendAllowance src spender value
  t.transfer src dst value

/-- `approve`, called by `owner`. -/
def approve (t : Erc20) (owner spender : Address) (value : Nat) : Tx (Erc20 × List TokenLog) := do
  requireError (owner ≠ 0) "ERC20InvalidApprover"
  requireError (spender ≠ 0) "ERC20InvalidSpender"
  return (t.setAllowance owner spender value, [.Approval owner spender value])

def mint (t : Erc20) (dst : Address) (value : Nat) : Tx (Erc20 × List TokenLog) := do
  requireError (dst ≠ 0) "ERC20InvalidReceiver"
  let totalSupply ← checkedAdd t.totalSupply value
  return ({ t with totalSupply
                   balanceOf := Function.update t.balanceOf dst (t.balanceOf dst + value) },
    [.Transfer 0 dst value])

def burn (t : Erc20) (src : Address) (value : Nat) : Tx (Erc20 × List TokenLog) := do
  requireError (src ≠ 0) "ERC20InvalidSender"
  requireError (value ≤ t.balanceOf src) "ERC20InsufficientBalance"
  return ({ t with totalSupply := t.totalSupply - value
                   balanceOf := Function.update t.balanceOf src (t.balanceOf src - value) },
    [.Transfer src 0 value])

/-! ## Moving a balance -/

@[simp] theorem move_allowance (t : Erc20) (src dst : Address) (value : Nat) :
    (t.move src dst value).allowance = t.allowance := rfl

theorem balanceOf_move_dst (t : Erc20) {src dst : Address} (value : Nat) (h : src ≠ dst) :
    (t.move src dst value).balanceOf dst = t.balanceOf dst + value := by
  simp [move, Function.update_of_ne h.symm]

theorem balanceOf_move_src (t : Erc20) {src : Address} (dst : Address) {value : Nat}
    (h : value ≤ t.balanceOf src) :
    (t.move src dst value).balanceOf src =
      if dst = src then t.balanceOf src else t.balanceOf src - value := by
  by_cases hd : dst = src
  · subst hd
    simp [move, Nat.sub_add_cancel h]
  · simp [move, hd, Function.update_of_ne (Ne.symm hd)]

theorem balanceOf_move_le (t : Erc20) {src a : Address} (dst : Address) (value : Nat)
    (h : src ≠ a) : t.balanceOf a ≤ (t.move src dst value).balanceOf a := by
  by_cases hd : dst = a
  · subst hd
    rw [balanceOf_move_dst t value h]
    exact Nat.le_add_right _ _
  · simp [move, Function.update_of_ne (Ne.symm hd), Function.update_of_ne h.symm]

@[simp] theorem balanceOf_move_zero (t : Erc20) (src dst : Address) :
    (t.move src dst 0).balanceOf = t.balanceOf := by
  simp [move]

@[simp] theorem setAllowance_balanceOf (t : Erc20) (owner spender : Address) (value : Nat) :
    (t.setAllowance owner spender value).balanceOf = t.balanceOf := rfl

theorem setAllowance_of_ne (t : Erc20) {owner a : Address} (spender : Address) (value : Nat)
    (h : a ≠ owner) : (t.setAllowance owner spender value).allowance a = t.allowance a := by
  simp [setAllowance, Function.update_of_ne h]

/-! ## When the operations succeed -/

theorem transfer_eq_ok {t : Erc20} {src dst : Address} {value : Nat}
    {r : Erc20 × List TokenLog} :
    t.transfer src dst value = .ok r ↔
      src ≠ 0 ∧ dst ≠ 0 ∧ value ≤ t.balanceOf src ∧
        r = (t.move src dst value, [.Transfer src dst value]) := by
  simp only [transfer, bind_eq_ok, requireError_eq_ok, pure_eq_ok, exists_and_left, exists_const]

/-- `spender` may move `value` tokens of `owner`. -/
def Allowed (t : Erc20) (owner spender : Address) (value : Nat) : Prop :=
  t.allowance owner spender = uint256Size - 1 ∨ value ≤ t.allowance owner spender

theorem spendAllowance_eq_ok {t t' : Erc20} {owner spender : Address} {value : Nat}
    (h : t.spendAllowance owner spender value = .ok t') :
    t.Allowed owner spender value := by
  unfold spendAllowance at h
  split at h
  · next hmax => exact Or.inl hmax
  · simp only [bind_eq_ok, requireError_eq_ok] at h
    obtain ⟨-, hle, -⟩ := h
    exact Or.inr hle

theorem spendAllowance_succeeds {t : Erc20} {owner spender : Address} {value : Nat}
    (ho : owner ≠ 0) (hs : spender ≠ 0) (h : t.Allowed owner spender value) :
    ∃ t', t.spendAllowance owner spender value = .ok t' := by
  unfold spendAllowance
  split
  · exact ⟨t, rfl⟩
  · next hmax =>
    have hle := h.resolve_left hmax
    exact ⟨_, bind_eq_ok.mpr ⟨(), requireError_eq_ok.mpr hle, bind_eq_ok.mpr ⟨(),
      requireError_eq_ok.mpr ho, bind_eq_ok.mpr ⟨(), requireError_eq_ok.mpr hs, rfl⟩⟩⟩⟩

/-- Spending an allowance moves no tokens and concerns the owner's allowances only. -/
theorem spendAllowance_frame {t t' : Erc20} {owner spender : Address} {value : Nat}
    (h : t.spendAllowance owner spender value = .ok t') :
    t'.balanceOf = t.balanceOf ∧ t'.totalSupply = t.totalSupply ∧
      ∀ a, a ≠ owner → t'.allowance a = t.allowance a := by
  unfold spendAllowance at h
  split at h
  · cases h
    exact ⟨rfl, rfl, fun _ _ => rfl⟩
  · simp only [bind_eq_ok, requireError_eq_ok, pure_eq_ok] at h
    obtain ⟨-, -, -, -, -, -, rfl⟩ := h
    exact ⟨rfl, rfl, fun a ha => setAllowance_of_ne t spender _ ha⟩

/-- What a successful `transferFrom` did: the balances moved, and only the source's allowances
changed. -/
theorem transferFrom_ok {t t' : Erc20} {spender src dst : Address} {value : Nat}
    {logs : List TokenLog} (h : t.transferFrom spender src dst value = .ok (t', logs)) :
    src ≠ 0 ∧ value ≤ t.balanceOf src ∧ t'.balanceOf = (t.move src dst value).balanceOf ∧
      (∀ a, a ≠ src → t'.allowance a = t.allowance a) ∧ logs = [.Transfer src dst value] := by
  simp only [transferFrom, bind_eq_ok, transfer_eq_ok, Prod.mk.injEq] at h
  obtain ⟨t₁, hs, hsrc, -, hle, rfl, rfl⟩ := h
  obtain ⟨hb, -, ha⟩ := spendAllowance_frame hs
  rw [hb] at hle
  refine ⟨hsrc, hle, ?_, ha, rfl⟩
  simp [move, hb]

/-- Between accounts that exist, `transferFrom` goes through exactly if the source has the tokens
and has approved the spender. -/
theorem transferFrom_succeeds_iff {t : Erc20} {spender src dst : Address} {value : Nat}
    (hs : spender ≠ 0) (hsrc : src ≠ 0) (hdst : dst ≠ 0) :
    (∃ r, t.transferFrom spender src dst value = .ok r) ↔
      value ≤ t.balanceOf src ∧ t.Allowed src spender value := by
  constructor
  · rintro ⟨r, h⟩
    obtain ⟨t₁, hspend, htransfer⟩ := bind_eq_ok.mp h
    obtain ⟨-, -, hle, -⟩ := transfer_eq_ok.mp htransfer
    rw [(spendAllowance_frame hspend).1] at hle
    exact ⟨hle, spendAllowance_eq_ok hspend⟩
  · rintro ⟨hle, hallowed⟩
    obtain ⟨t₁, hspend⟩ := spendAllowance_succeeds hsrc hs hallowed
    rw [← (spendAllowance_frame hspend).1] at hle
    exact ⟨_, bind_eq_ok.mpr ⟨t₁, hspend, transfer_eq_ok.mpr ⟨hsrc, hdst, hle, rfl⟩⟩⟩

end Erc20

end Kyneto.Evm
