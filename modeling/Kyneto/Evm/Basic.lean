import Mathlib

/-!
# Transactions of the EVM

What every contract of the development is written in: addresses and words, the ways a call can
revert, Solidity's checked `uint256` arithmetic, and the sender and time a call runs under.

A call is a function into `Tx`, so a `require` or an overflow ends it, and a do block reads like
the body of the Solidity function. `uint256` values are natural numbers; every arithmetic operator
of the source is one of the `checked` operations below, which fail exactly where Solidity 0.8 does.

Each operation has one lemma saying when it succeeds (`require_eq_ok`, `checkedAdd_eq_ok`, …).
Rewriting with them and `bind_eq_ok` turns "this call succeeded" into its guards and its result,
with no unfolding.
-/

namespace Kyneto.Evm

/-- A 20-byte account address. -/
abbrev Address := BitVec 160

instance address_lawfulBEq : LawfulBEq Address := inferInstance

/-- A `bytes32` value. -/
abbrev Bytes32 := BitVec 256

/-- The number of `uint256` values. -/
def uint256Size : Nat := 2 ^ 256

/-! ## Reverts -/

/-- How a call can fail. -/
inductive Revert where
  | reason (text : String)  -- `require(_, text)`
  | error (name : String)   -- a custom error of a library contract
  | panic (code : Nat)      -- a failed check the compiler inserts
  deriving DecidableEq, Repr

/-- The outcome of a call: its result, or the revert that undid it. -/
abbrev Tx := Except Revert

/-- The revert a call ended with, if it did. -/
def revertOf {α : Type} : Tx α → Option Revert
  | .ok _ => none
  | .error e => some e

/-- The result of a call that is known not to revert. -/
def resultOf {α : Type} : (x : Tx α) → revertOf x = none → α
  | .ok a, _ => a

theorem eq_resultOf {α : Type} {x : Tx α} (h : revertOf x = none) : x = .ok (resultOf x h) := by
  cases x with
  | error e => cases h
  | ok a => rfl

def require (c : Prop) [Decidable c] (text : String) : Tx Unit :=
  if c then .ok () else .error (.reason text)

/-- A check that reverts with a custom error instead of a text. -/
def requireError (c : Prop) [Decidable c] (name : String) : Tx Unit :=
  if c then .ok () else .error (.error name)

/-! ## Checked arithmetic -/

def checkedAdd (a b : Nat) : Tx Nat :=
  if a + b < uint256Size then .ok (a + b) else .error (.panic 0x11)

def checkedSub (a b : Nat) : Tx Nat :=
  if b ≤ a then .ok (a - b) else .error (.panic 0x11)

def checkedMul (a b : Nat) : Tx Nat :=
  if a * b < uint256Size then .ok (a * b) else .error (.panic 0x11)

def checkedDiv (a b : Nat) : Tx Nat :=
  if b ≠ 0 then .ok (a / b) else .error (.panic 0x12)

def checkedPow (a b : Nat) : Tx Nat :=
  if a ^ b < uint256Size then .ok (a ^ b) else .error (.panic 0x11)

/-! ## When a call succeeds -/

@[simp] theorem require_eq_ok {c : Prop} [Decidable c] {text : String} {u : Unit} :
    require c text = .ok u ↔ c := by
  unfold require
  split <;> simp_all

@[simp] theorem requireError_eq_ok {c : Prop} [Decidable c] {name : String} {u : Unit} :
    requireError c name = .ok u ↔ c := by
  unfold requireError
  split <;> simp_all

@[simp] theorem checkedAdd_eq_ok {a b r : Nat} :
    checkedAdd a b = .ok r ↔ a + b < uint256Size ∧ r = a + b := by
  unfold checkedAdd
  split <;> simp_all [eq_comm]

@[simp] theorem checkedSub_eq_ok {a b r : Nat} :
    checkedSub a b = .ok r ↔ b ≤ a ∧ r = a - b := by
  unfold checkedSub
  split <;> simp_all [eq_comm]

@[simp] theorem checkedMul_eq_ok {a b r : Nat} :
    checkedMul a b = .ok r ↔ a * b < uint256Size ∧ r = a * b := by
  unfold checkedMul
  split <;> simp_all [eq_comm]

@[simp] theorem checkedDiv_eq_ok {a b r : Nat} :
    checkedDiv a b = .ok r ↔ b ≠ 0 ∧ r = a / b := by
  unfold checkedDiv
  split <;> simp_all [eq_comm]

@[simp] theorem checkedPow_eq_ok {a b r : Nat} :
    checkedPow a b = .ok r ↔ a ^ b < uint256Size ∧ r = a ^ b := by
  unfold checkedPow
  split <;> simp_all [eq_comm]

/-- A sequence of two calls succeeds when both do. Stated for `>>=`, the form a do block has, and for
errors of any type. -/
theorem bind_eq_ok {ε α β : Type} {x : Except ε α} {f : α → Except ε β} {r : β} :
    (x >>= f) = .ok r ↔ ∃ a, x = .ok a ∧ f a = .ok r := by
  cases x with
  | error e => simp [bind, Except.bind]
  | ok a => simp [bind, Except.bind]

theorem bind_eq_error {ε α β : Type} {x : Except ε α} {f : α → Except ε β} {e : ε} :
    (x >>= f) = .error e ↔ x = .error e ∨ ∃ a, x = .ok a ∧ f a = .error e := by
  cases x with
  | error e => simp [bind, Except.bind]
  | ok a => simp [bind, Except.bind]

theorem ok_bind {ε α β : Type} (a : α) (f : α → Except ε β) : (.ok a >>= f) = f a := rfl

theorem pure_eq_ok {ε α : Type} {a r : α} : (pure a : Except ε α) = .ok r ↔ r = a := by
  simp [pure, Except.pure, eq_comm]

/-- A call followed by steps that cannot fail. -/
theorem bind_succeeds {ε α β : Type} {x : Except ε α} {f : α → Except ε β} (hf : ∀ a, ∃ b, f a = .ok b) :
    (∃ r, (x >>= f) = .ok r) ↔ ∃ a, x = .ok a := by
  cases x with
  | error e => simp [bind, Except.bind]
  | ok a => simpa [bind, Except.bind] using hf a

/-- What a call returns can be read off its optional result. -/
theorem exists_ok_of_map {α β : Type} {x : Tx α} {f : α → β} {b : β}
    (h : x.toOption.map f = some b) : ∃ r, x = .ok r ∧ f r = b := by
  cases x with
  | error e => cases h
  | ok r => exact ⟨r, rfl, Option.some.inj h⟩

/-! ## Mappings with a counter

A contract that hands out ids keeps its records in a mapping and counts them; a total over the
records is a sum below the counter. -/

theorem sum_range_update {n id : Nat} (f : Nat → Nat) (v : Nat) (h : id < n) :
    (Finset.range n).sum (Function.update f id v) + f id = ∑ i ∈ Finset.range n, f i + v := by
  have hmem : id ∈ Finset.range n := Finset.mem_range.mpr h
  rw [Finset.sum_update_of_mem hmem, ← Finset.sum_sdiff (Finset.singleton_subset_iff.mpr hmem),
    Finset.sum_singleton]
  omega

theorem sum_range_update_of_le {n id : Nat} (f : Nat → Nat) (v : Nat) (h : n ≤ id) :
    (Finset.range n).sum (Function.update f id v) = ∑ i ∈ Finset.range n, f i :=
  Finset.sum_update_of_notMem (by simpa using h) f v

/-- Filling the next slot changes nothing below the counter. -/
theorem sum_range_update_next {β : Type} (g : β → Nat) (f : Nat → β) (n : Nat) (b : β) :
    ∑ i ∈ Finset.range n, g (Function.update f n b i) = ∑ i ∈ Finset.range n, g (f i) := by
  apply Finset.sum_congr rfl
  intro i hi
  rw [Function.update_of_ne (Nat.ne_of_lt (Finset.mem_range.mp hi))]

/-- A total over all keys moves as the one summand that changes. -/
theorem sum_univ_change {ι : Type} [Fintype ι] [DecidableEq ι] {f f' : ι → Nat} (i : ι)
    (h : ∀ j, j ≠ i → f' j = f j) : ∑ j, f' j + f i = ∑ j, f j + f' i := by
  have hrest : ∑ j ∈ Finset.univ.erase i, f' j = ∑ j ∈ Finset.univ.erase i, f j :=
    Finset.sum_congr rfl fun j hj => h j (Finset.ne_of_mem_erase hj)
  rw [← Finset.add_sum_erase _ f (Finset.mem_univ i), ← Finset.add_sum_erase _ f' (Finset.mem_univ i), hrest]
  omega

theorem sum_univ_update {ι β : Type} [Fintype ι] [DecidableEq ι] (g : β → Nat) (f : ι → β) (i : ι)
    (b : β) : ∑ j, g (Function.update f i b j) + g (f i) = ∑ j, g (f j) + g b := by
  have hchange := @sum_univ_change ι _ _ (fun j => g (f j)) (fun j => g (Function.update f i b j)) i
    fun j hj => congrArg g (Function.update_of_ne hj b f)
  simpa using hchange

/-! ## Who calls, and when -/

/-- `msg.sender` and `block.timestamp` of a call. -/
structure Msg where
  sender : Address
  timestamp : Nat
  deriving DecidableEq, Repr

/-! ### Accounts of the examples

Their addresses are those from 1 to 99. -/

instance accounts_neZero : NeZero 99 := ⟨by decide⟩

theorem firstAccount_ne_zero : (1 : Address) ≠ 0 := by decide

theorem account_ne_zero (i : Fin 99) : BitVec.ofNat 160 (i + 1) ≠ 0 := by
  revert i
  decide

/-! ### `Ownable` -/

/-- The `onlyOwner` modifier of OpenZeppelin's `Ownable`. -/
def onlyOwner (owner : Address) (msg : Msg) : Tx Unit :=
  requireError (msg.sender = owner) "OwnableUnauthorizedAccount"

/-- `transferOwnership` and `renounceOwnership` return the new owner; giving up ownership leaves
the zero address, which sends no calls. -/
def transferOwnership (owner : Address) (msg : Msg) (newOwner : Address) : Tx Address := do
  onlyOwner owner msg
  requireError (newOwner ≠ 0) "OwnableInvalidOwner"
  return newOwner

def renounceOwnership (owner : Address) (msg : Msg) : Tx Address := do
  onlyOwner owner msg
  return 0

@[simp] theorem onlyOwner_eq_ok {owner : Address} {msg : Msg} {u : Unit} :
    onlyOwner owner msg = .ok u ↔ msg.sender = owner := by
  simp [onlyOwner]

end Kyneto.Evm
