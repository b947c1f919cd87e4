import Kyneto.StorageMarketplace.Indexes

/-!
# Swap and pop, index by index

`removeProviderDeal` walks a storage array by its index, overwrites the entry it finds with the last one and pops
that. Every access is checked by the compiler, against the length the array has at that moment. The loop of the source
stands here with its checks; none of them ever fails, and what comes out is `removeProviderDeal` on lists, which the
marketplace is modelled with (`removeFrom_eq`).
-/

namespace Kyneto

open Evm

/-! ## Storage arrays -/

/-- `array[i]`. -/
def readEntry (array : List Nat) (i : Nat) : Tx Nat :=
  match array[i]? with
  | some entry => .ok entry
  | none => .error (.panic 0x32)

/-- `array[i] = value`. -/
def writeEntry (array : List Nat) (i value : Nat) : Tx (List Nat) :=
  if i < array.length then .ok (array.set i value) else .error (.panic 0x32)

/-- `array.pop()`. -/
def popEntry (array : List Nat) : Tx (List Nat) :=
  if array.length = 0 then .error (.panic 0x31) else .ok array.dropLast

/-! ## The loop -/

/-- The body of the `if`: overwrite the entry `i` with the last one and pop. -/
def swapAndPop (array : List Nat) (i : Nat) : Tx (List Nat) := do
  let lastIndex ← checkedSub array.length 1
  let last ← readEntry array lastIndex
  let array ← writeEntry array i last
  popEntry array

/-- The loop from the index `i` on. Below the length of an array, `i++` does not overflow. -/
def removeFrom (dealId : Nat) (array : List Nat) (i : Nat) : Tx (List Nat) :=
  if i < array.length then do
    let entry ← readEntry array i
    if entry = dealId then swapAndPop array i else removeFrom dealId array (i + 1)
  else .ok array
termination_by array.length - i

def StorageMarketplace.removeProviderDeal (m : StorageMarketplace) (provider : Address) (dealId : Nat) :
    Tx StorageMarketplace := do
  let providerDealList ← removeFrom dealId (m.providerDeals provider) 0
  return { m with providerDeals := Function.update m.providerDeals provider providerDealList }

section Loop

variable {dealId i : Nat} {array : List Nat}

/-- The last element takes the place of the one that is removed. -/
theorem swapAndPop_eq (h : i < array.length) :
    swapAndPop array i = .ok (array.set i (array.getLastD 0)).dropLast := by
  have hpos : 1 ≤ array.length := by omega
  have hlast : array[array.length - 1]? = some (array.getLastD 0) := by
    rw [← List.getLast?_eq_getElem?, List.getLastD_eq_getLast?]
    cases hempty : array.getLast? with
    | none =>
      rw [List.getLast?_eq_none_iff] at hempty
      subst hempty
      exact absurd h (Nat.not_lt_zero i)
    | some last => rfl
  refine bind_eq_ok.mpr ⟨_, checkedSub_eq_ok.mpr ⟨hpos, rfl⟩, bind_eq_ok.mpr ⟨array.getLastD 0, ?_, ?_⟩⟩
  · rw [readEntry, hlast]
  · refine bind_eq_ok.mpr ⟨array.set i (array.getLastD 0), if_pos h, ?_⟩
    rw [popEntry, if_neg (by rw [List.length_set]; omega)]

/-- From any index on, if the entry is not further in front. The induction is on what is left of the array. -/
theorem removeFrom_eq (h : dealId ∉ array.take i) :
    removeFrom dealId array i = .ok (removeProviderDeal dealId array) := by
  induction hleft : array.length - i generalizing i with
  | zero =>
    have hall : array.take i = array := List.take_of_length_le (by omega)
    rw [hall] at h
    rw [removeFrom, if_neg (by omega), removeProviderDeal, if_neg h]
  | succ n ih =>
    have hi : i < array.length := by omega
    have hsplit : array.take (i + 1) = array.take i ++ [array[i]] := List.take_succ_eq_append_getElem hi
    rw [removeFrom, if_pos hi, readEntry, List.getElem?_eq_getElem hi, ok_bind]
    by_cases hfound : array[i] = dealId
    · have hmem : dealId ∈ array := hfound ▸ List.getElem_mem hi
      have hparts : array.take i ++ dealId :: array.drop (i + 1) = array := by
        rw [← hfound, ← List.drop_eq_getElem_cons hi, List.take_append_drop]
      have hidx : array.idxOf dealId = i := by
        rw [← hparts, List.idxOf_append, if_neg h, List.idxOf_cons_self, List.length_take]
        omega
      rw [if_pos hfound, swapAndPop_eq hi, removeProviderDeal, if_pos hmem, hidx]
    · rw [if_neg hfound]
      apply ih
      · rw [hsplit, List.mem_append, List.mem_singleton]
        exact fun hor => hor.elim h fun heq => hfound heq.symm
      · omega

/-- Of two occurrences the first one goes, and the last entry takes its place. -/
example : removeFrom 5 [5, 7, 5, 9] 0 = .ok [9, 7, 5] := by
  rw [removeFrom_eq (by simp)]
  rfl

end Loop

/-! ## What it does -/

section Removal

variable (m : StorageMarketplace) (provider : Address) (dealId : Nat)

theorem removeProviderDeal_eq :
    m.removeProviderDeal provider dealId = .ok { m with
      providerDeals :=
        Function.update m.providerDeals provider (removeProviderDeal dealId (m.providerDeals provider)) } := by
  rw [StorageMarketplace.removeProviderDeal, removeFrom_eq (by simp), ok_bind]
  rfl

/-- A repair takes the deal from the old provider by this loop, after it has been filed under the new one. -/
theorem repairedProviderDeals_eq (newProvider : Address) :
    ({ m with providerDeals := Function.update m.providerDeals newProvider (m.providerDeals newProvider ++ [dealId]) } :
        StorageMarketplace).removeProviderDeal provider dealId =
      .ok { m with providerDeals := repairedProviderDeals m.providerDeals dealId provider newProvider } :=
  removeProviderDeal_eq _ provider dealId

/-- **Swap and pop never fails and takes out one occurrence**, if there is one; nothing else of the marketplace
changes. -/
theorem removeProviderDeal_removes :
    ∃ m', m.removeProviderDeal provider dealId = .ok m' ∧
      m' = { m with providerDeals := m'.providerDeals } ∧
      (∀ p, p ≠ provider → m'.providerDeals p = m.providerDeals p) ∧
      (dealId ∈ m.providerDeals provider →
        (dealId :: m'.providerDeals provider).Perm (m.providerDeals provider)) ∧
      (dealId ∉ m.providerDeals provider → m' = m) := by
  refine ⟨_, removeProviderDeal_eq m provider dealId, rfl, ?_, ?_, ?_⟩
  · intro p hp
    exact Function.update_of_ne hp _ _
  · intro hmem
    show (dealId :: Function.update m.providerDeals provider _ provider).Perm _
    rw [Function.update_self]
    exact ((removeProviderDeal_perm dealId hmem).cons dealId).trans (List.perm_cons_erase hmem).symm
  · intro hnot
    rw [removeProviderDeal, if_neg hnot, Function.update_eq_self]

end Removal

end Kyneto
