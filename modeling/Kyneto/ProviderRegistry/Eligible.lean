import Kyneto.ProviderRegistry.Standing

/-!
# `getEligibleProviders`

The query for the providers that a client can afford goes through the list of all providers twice: once to count the
eligible ones and to allocate an array for them, and once to fill it. The two loops agree, and what they go through is
in every reachable state a list of the registered addresses, each once, in the order of their registration.
-/

namespace Kyneto

open Evm

namespace ProviderRegistry

/-! ## The query -/

/-- The condition of both loops. -/
def eligible (r : ProviderRegistry) (maxPriceUSD minReputation : Nat) (provider : Address) : Bool :=
  (r.providers provider).active && decide (minReputation ≤ (r.providers provider).reputationScore) &&
    decide ((r.providers provider).minPriceUSD ≤ maxPriceUSD)

/-- The first loop. -/
def countEligible (eligible : Address → Bool) : List Address → Nat → Tx Nat
  | [], eligibleCount => .ok eligibleCount
  | provider :: rest, eligibleCount =>
    if eligible provider then do
      let eligibleCount ← checkedAdd eligibleCount 1
      countEligible eligible rest eligibleCount
    else countEligible eligible rest eligibleCount

/-- A write into an array in memory panics outside of it. -/
def writeAt (array : List Address) (index : Nat) (value : Address) : Tx (List Address) :=
  if index < array.length then .ok (array.set index value) else .error (.panic 0x32)

/-- The second loop. -/
def collectEligible (eligible : Address → Bool) : List Address → List Address → Nat → Tx (List Address)
  | [], eligibleProviders, _ => .ok eligibleProviders
  | provider :: rest, eligibleProviders, index =>
    if eligible provider then do
      let eligibleProviders ← writeAt eligibleProviders index provider
      let index ← checkedAdd index 1
      collectEligible eligible rest eligibleProviders index
    else collectEligible eligible rest eligibleProviders index

def getEligibleProviders (r : ProviderRegistry) (maxPriceUSD minReputation : Nat) : Tx (List Address) := do
  let eligible := r.eligible maxPriceUSD minReputation
  let eligibleCount ← countEligible eligible r.providerList 0
  collectEligible eligible r.providerList (List.replicate eligibleCount 0) 0

section Loops

variable {eligible : Address → Bool} {l : List Address}

/-- The first loop counts the eligible providers. -/
theorem countEligible_eq {n : Nat} (hfits : n + l.length < uint256Size) :
    countEligible eligible l n = .ok (n + (l.filter eligible).length) := by
  induction l generalizing n with
  | nil => rfl
  | cons provider rest ih =>
    rw [List.length_cons] at hfits
    unfold countEligible
    split
    · next h =>
      refine bind_eq_ok.mpr ⟨n + 1, checkedAdd_eq_ok.mpr ⟨by omega, rfl⟩, ?_⟩
      rw [ih (by omega), List.filter_cons_of_pos h, List.length_cons]
      congr 1
      omega
    · next h =>
      rw [ih (by omega), List.filter_cons_of_neg h]

/-- What is written stands in front of the slots that are left. -/
theorem writeAt_eq {done blank : List Address} {provider : Address} :
    writeAt (done ++ 0 :: blank) done.length provider = .ok ((done ++ [provider]) ++ blank) := by
  unfold writeAt
  rw [if_pos (by simp)]
  simp

/-- The second loop fills the slots that the first has counted. -/
theorem collectEligible_eq {done : List Address} (hfits : done.length + l.length < uint256Size) :
    collectEligible eligible l (done ++ List.replicate (l.filter eligible).length 0) done.length =
      .ok (done ++ l.filter eligible) := by
  induction l generalizing done with
  | nil => simp [collectEligible]
  | cons provider rest ih =>
    rw [List.length_cons] at hfits
    unfold collectEligible
    split
    · next h =>
      have hlength : (done ++ [provider]).length = done.length + 1 := by simp
      rw [List.filter_cons_of_pos h, List.length_cons, List.replicate_succ]
      refine bind_eq_ok.mpr ⟨_, writeAt_eq, bind_eq_ok.mpr ⟨done.length + 1, ?_, ?_⟩⟩
      · exact checkedAdd_eq_ok.mpr ⟨by omega, rfl⟩
      · rw [← hlength, ih (by omega), List.append_assoc]
        rfl
    · next h =>
      rw [List.filter_cons_of_neg h]
      exact ih (by omega)

end Loops

/-- There are fewer addresses than numbers, so that no counter overflows on a list without duplicates. -/
theorem length_lt_of_nodup {l : List Address} (h : l.Nodup) : l.length < uint256Size := by
  have hle : l.length ≤ Fintype.card Address := h.length_le_card
  have hcard : Fintype.card Address = 2 ^ 160 := by
    rw [Fintype.card_congr (BitVec.equivFin (m := 160)).toEquiv, Fintype.card_fin]
  exact Nat.lt_of_le_of_lt (hle.trans hcard.le) (by decide)

theorem getEligibleProviders_eq {r : ProviderRegistry} (h : r.providerList.Nodup) (maxPriceUSD minReputation : Nat) :
    r.getEligibleProviders maxPriceUSD minReputation =
      .ok (r.providerList.filter (r.eligible maxPriceUSD minReputation)) := by
  have hfits : 0 + r.providerList.length < uint256Size := by
    rw [Nat.zero_add]
    exact length_lt_of_nodup h
  refine bind_eq_ok.mpr ⟨_, countEligible_eq hfits, ?_⟩
  rw [Nat.zero_add]
  exact @collectEligible_eq _ _ [] hfits

/-! ## The list of providers -/

/-- Nobody has registered. -/
structure SameRoster (r r' : ProviderRegistry) : Prop where
  list : r'.providerList = r.providerList
  registered : ∀ p, (r'.providers p).registered = (r.providers p).registered

theorem SameRoster.trans {r₁ r₂ r₃ : ProviderRegistry} (h₁ : SameRoster r₁ r₂) (h₂ : SameRoster r₂ r₃) :
    SameRoster r₁ r₃ where
  list := h₂.list.trans h₁.list
  registered := fun p => (h₂.registered p).trans (h₁.registered p)

section Operations

variable {r r' : ProviderRegistry} {msg : Msg} {p : Address} {amount : Nat} {reason : String}
  {logs : List RegistryLog}

theorem sameRoster_set {record : Provider} (h : record.registered = (r.providers p).registered) :
    SameRoster r (r.set p record) where
  list := rfl
  registered := by
    intro q
    by_cases hq : q = p
    · subst hq
      simp [set, h]
    · simp [set, hq]

theorem deactivateProvider_roster (h : r.deactivateProvider msg p = .ok (r', logs)) : SameRoster r r' := by
  simp only [deactivateProvider, bind_eq_ok, pure_eq_ok, Prod.mk.injEq] at h
  obtain ⟨_, -, rfl, -⟩ := h
  exact sameRoster_set rfl

theorem increaseReputation_roster (h : r.increaseReputation msg p amount reason = .ok (r', logs)) :
    SameRoster r r' := by
  obtain ⟨-, -, -, hout⟩ := increaseReputation_eq_ok.mp h
  obtain ⟨rfl, -⟩ := Prod.mk.inj hout
  exact sameRoster_set rfl

/-- A lower score changes nobody's place in the list of providers. -/
theorem decreaseReputation_roster (h : r.decreaseReputation msg p amount reason = .ok (r', logs)) :
    SameRoster r r' := by
  obtain ⟨-, -, h⟩ := decreaseReputation_eq_ok.mp h
  split at h
  · obtain ⟨r₁, l, hdeactivate, hout⟩ := h
    obtain ⟨rfl, -⟩ := Prod.mk.inj hout
    refine SameRoster.trans ?_ (deactivateProvider_roster hdeactivate)
    exact sameRoster_set rfl
  · obtain ⟨rfl, -⟩ := Prod.mk.inj h
    exact sameRoster_set rfl

/-- Neither does a slashing. -/
theorem recordSlashing_roster (h : r.recordSlashing msg p = .ok (r', logs)) : SameRoster r r' := by
  simp only [recordSlashing, bind_eq_ok, Prod.exists] at h
  obtain ⟨-, -, -, -, _, -, r₁, l, hdecrease, h⟩ := h
  have hlowered := SameRoster.trans (sameRoster_set (by rfl)) (decreaseReputation_roster hdecrease)
  split at h
  · simp only [bind_eq_ok, pure_eq_ok, Prod.exists, Prod.mk.injEq] at h
    obtain ⟨r₂, more, hdeactivate, rfl, -⟩ := h
    exact hlowered.trans (deactivateProvider_roster hdeactivate)
  · obtain ⟨rfl, -⟩ := Prod.mk.inj (pure_eq_ok.mp h)
    exact hlowered

end Operations

/-- The call registers its sender. -/
def Call.registers : Call → Bool
  | .registerProvider _ _ _ _ => true
  | _ => false

/-- What a successful call does to the list of providers. -/
inductive RosterEffect (r : ProviderRegistry) (a : Action) (r' : ProviderRegistry) : Prop
  | same (call : a.call.registers = false) (roster : SameRoster r r')
  | joined (call : a.call.registers = true) (fresh : (r.providers a.msg.sender).registered = false)
      (list : r'.providerList = r.providerList ++ [a.msg.sender])
      (registered : ∀ p, (r'.providers p).registered = true ↔
        (r.providers p).registered = true ∨ p = a.msg.sender)

/-- What a call does to the list of providers, one case for each call. -/
theorem roster_effect {r r' : ProviderRegistry} {a : Action} {logs : List RegistryLog}
    (h : act r a = .ok (r', logs)) : RosterEffect r a r' := by
  obtain ⟨msg, c⟩ := a
  unfold act at h
  cases c with
  | registerProvider peerId endpoint region minPriceUSD =>
    simp only [step, registerProvider, bind_eq_ok, require_eq_ok, pure_eq_ok, exists_const, Prod.mk.injEq] at h
    obtain ⟨hfresh, -, rfl, -⟩ := h
    refine .joined rfl hfresh rfl ?_
    intro p
    by_cases hp : p = msg.sender
    · subst hp
      simp [set]
    · simp [set, hp]
  | updateProvider endpoint region minPriceUSD =>
    simp only [step, updateProvider, bind_eq_ok, pure_eq_ok, Prod.mk.injEq] at h
    obtain ⟨-, -, rfl, -⟩ := h
    exact .same rfl (sameRoster_set rfl)
  | updateCapacity provider newTotalCapacityGB =>
    simp only [step, updateCapacity, bind_eq_ok, pure_eq_ok, Prod.mk.injEq] at h
    obtain ⟨-, -, -, -, rfl, -⟩ := h
    exact .same rfl (sameRoster_set rfl)
  | increaseReputation provider amount reason => exact .same rfl (increaseReputation_roster h)
  | decreaseReputation provider amount reason => exact .same rfl (decreaseReputation_roster h)
  | recordDealCompleted provider =>
    simp only [step, recordDealCompleted, bind_eq_ok] at h
    obtain ⟨-, -, -, -, completed, -, h⟩ := h
    exact .same rfl (SameRoster.trans (sameRoster_set (by rfl)) (increaseReputation_roster h))
  | recordDealFailed provider =>
    simp only [step, recordDealFailed, bind_eq_ok] at h
    obtain ⟨-, -, -, -, failed, -, h⟩ := h
    exact .same rfl (SameRoster.trans (sameRoster_set (by rfl)) (decreaseReputation_roster h))
  | recordSlashing provider => exact .same rfl (recordSlashing_roster h)
  | reactivateProvider =>
    simp only [step, reactivateProvider, bind_eq_ok, pure_eq_ok, Prod.mk.injEq] at h
    obtain ⟨-, -, -, -, -, -, rfl, -⟩ := h
    exact .same rfl (sameRoster_set rfl)
  | authorizeRecordKeeper keeper | revokeRecordKeeper keeper =>
    simp only [step, authorizeRecordKeeper, revokeRecordKeeper, setRecordKeeper, bind_eq_ok, pure_eq_ok,
      Prod.mk.injEq] at h
    obtain ⟨-, -, rfl, -⟩ := h
    exact .same rfl ⟨rfl, fun _ => rfl⟩
  | transferOwnership newOwner | renounceOwnership =>
    simp only [step, bind_eq_ok, pure_eq_ok, Prod.mk.injEq] at h
    obtain ⟨-, -, rfl, -⟩ := h
    exact .same rfl ⟨rfl, fun _ => rfl⟩

/-- Who has registered, in that order. -/
def registrations (hist : List (Entry ProviderRegistry Action RegistryLog)) : List Address :=
  (hist.filter fun e => e.act.call.registers).map fun e => e.act.msg.sender

/-- The list holds the registered addresses, each once. -/
structure Listed (r : ProviderRegistry) : Prop where
  nodup : r.providerList.Nodup
  mem_iff : ∀ p, p ∈ r.providerList ↔ (r.providers p).registered = true

theorem listed_deploy (msg : Msg) : Listed (deploy msg) := ⟨List.nodup_nil, fun p => by simp [deploy]⟩

/-- Every call keeps the list as it should be: whoever is registered is in it, once. -/
theorem listed_act {r r' : ProviderRegistry} {a : Action} {logs : List RegistryLog} (hr : Listed r)
    (h : act r a = .ok (r', logs)) : Listed r' := by
  cases roster_effect h with
  | same _ roster =>
    refine ⟨roster.list ▸ hr.nodup, fun p => ?_⟩
    rw [roster.list, roster.registered]
    exact hr.mem_iff p
  | joined _ fresh list registered =>
    have hnew : a.msg.sender ∉ r.providerList := by
      rw [hr.mem_iff, fresh]
      decide
    constructor
    · rw [list]
      simpa using hr.nodup.concat hnew
    · intro p
      rw [list, registered, List.mem_append, List.mem_singleton, hr.mem_iff]

/-- The list of a run. -/
theorem listed_run (msg : Msg) (as : List Action) :
    Listed (run act (deploy msg) as) ∧
      (run act (deploy msg) as).providerList = registrations (history act (deploy msg) as) := by
  apply run_induction (P := fun r hist => Listed r ∧ r.providerList = registrations hist) (C := fun _ _ => True) _ _ as
    (meets_true _ as)
  · exact ⟨listed_deploy msg, rfl⟩
  · intro r hist a r' logs ⟨hlisted, hlist⟩ _ hstep
    refine ⟨listed_act hlisted hstep, ?_⟩
    unfold registrations at hlist ⊢
    rw [List.filter_append, List.map_append, ← hlist]
    cases roster_effect hstep with
    | same call roster => simp [call, roster.list]
    | joined call _ list _ => simp [call, list]

/-- **The query is exact**: in every state the registry can reach, it returns the registered and active providers that
have the reputation and ask no more than the price, each once, and in the order in which they have registered. -/
theorem getEligibleProviders_run (msg : Msg) (as : List Action) (maxPriceUSD minReputation : Nat) :
    let r := run act (deploy msg) as
    (r.providerList.Nodup ∧ (∀ p, p ∈ r.providerList ↔ (r.providers p).registered = true) ∧
        r.providerList = registrations (history act (deploy msg) as)) ∧
      ∃ eligibleProviders, r.getEligibleProviders maxPriceUSD minReputation = .ok eligibleProviders ∧
        eligibleProviders.Nodup ∧ eligibleProviders.Sublist r.providerList ∧
        ∀ p, p ∈ eligibleProviders ↔ (r.providers p).registered = true ∧ (r.providers p).active = true ∧
          minReputation ≤ (r.providers p).reputationScore ∧ (r.providers p).minPriceUSD ≤ maxPriceUSD := by
  obtain ⟨hlisted, hlist⟩ := listed_run msg as
  refine ⟨⟨hlisted.nodup, hlisted.mem_iff, hlist⟩, _, getEligibleProviders_eq hlisted.nodup _ _, ?_, ?_, ?_⟩
  · exact hlisted.nodup.filter _
  · exact List.filter_sublist
  · intro p
    rw [List.mem_filter, hlisted.mem_iff]
    simp only [eligible, Bool.and_eq_true, decide_eq_true_eq, and_assoc]

end ProviderRegistry

end Kyneto
