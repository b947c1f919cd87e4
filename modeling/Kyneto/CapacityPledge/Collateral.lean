import Kyneto.Evm.Run
import Kyneto.CapacityPledge

/-!
# The collateral of pledges

The contract of pledges with the token, and everybody else a sender of calls of either. `PledgeEffect` lists what
a successful call can do. From it follow, for every run (`pledges_run`): the two totals are the sums over the
active pledges, the balance covers the collateral, and the collateral of a pledge leaves exactly once, to its
owner or, in part, to nobody.

The penalty is a share of at most a fifth of the collateral, so an exit always has something to return.
-/

namespace Kyneto

open Evm

/-! ## The contract and its token -/

structure PledgeSystem where
  token : StorageToken
  pledges : CapacityPledge

inductive PledgeEvent where
  | token (l : TokenLog)
  | pledge (l : PledgeLog)
  deriving DecidableEq, Repr

inductive PledgeSystemCall where
  | token (c : StorageToken.Call)
  | pledge (c : CapacityPledge.Call)

/-- A transaction from outside the contract of pledges. Other contracts may send it; no authorised burner aims at
the contract's own balance. -/
structure PledgeAction (this : Address) where
  msg : Msg
  call : PledgeSystemCall
  sender_ne_zero : msg.sender ≠ 0
  sender_ne_this : msg.sender ≠ this
  standard : ∀ c, call = .token c → ¬ c.burnsFrom this

namespace PledgeSystem

variable (this : Address)

def step (s : PledgeSystem) (a : PledgeAction this) : Tx (PledgeSystem × List PledgeEvent) :=
  match a.call with
  | .token c => do
    let (token, logs) ← s.token.step a.msg c
    return ({ s with token }, logs.map .token)
  | .pledge c => do
    let (token, pledges, paid, logs) ← s.pledges.step this s.token a.msg c
    return ({ token, pledges }, paid.map .token ++ logs.map .pledge)

/-- The contract has just been deployed at `this` and has approved nobody. The token may have a history. -/
structure Deployed (s : PledgeSystem) : Prop where
  fresh : ∃ msg, s.pledges = .deploy msg
  noApproval : ∀ spender, s.token.allowance this spender = 0

end PledgeSystem

abbrev PledgeEntry (this : Address) := Entry PledgeSystem (PledgeAction this) PledgeEvent

/-- The pledge that the call ends, by its owner and its id. -/
def PledgeAction.ends {this : Address} (a : PledgeAction this) : Option (Address × Nat) :=
  match a.call with
  | .pledge (.completePledge pledgeId) | .pledge (.exitPledgeEarly pledgeId) => some (a.msg.sender, pledgeId)
  | _ => none

/-- The pledge that the call creates. -/
def PledgeAction.creates {this : Address} (a : PledgeAction this) (s : PledgeSystem) :
    Option (Address × Nat) :=
  match a.call with
  | .pledge (.createPledge _ _ _) => some (a.msg.sender, s.pledges.pledgeCount a.msg.sender)
  | _ => none

/-! ## Sums over the active pledges -/

/-- What a pledge counts for while it is active. -/
def Pledge.counted (f : Pledge → Nat) (p : Pledge) : Nat := if p.active then f p else 0

namespace CapacityPledge

/-- A sum over the active pledges of all providers. -/
def activeSum (f : Pledge → Nat) (c : CapacityPledge) : Nat :=
  ∑ provider, ∑ id ∈ Finset.range (c.pledgeCount provider), (c.pledges provider id).counted f

section Sums

variable {f : Pledge → Nat} {c c' : CapacityPledge} {provider : Address} {id : Nat} {p : Pledge}

/-- Writing a created pledge. -/
theorem activeSum_write (hid : id < c.pledgeCount provider)
    (hpledges : c'.pledges =
      Function.update c.pledges provider (Function.update (c.pledges provider) id p))
    (hcount : c'.pledgeCount = c.pledgeCount) :
    c'.activeSum f + (c.pledges provider id).counted f = c.activeSum f + p.counted f := by
  have hrow := sum_range_update (fun i => (c.pledges provider i).counted f) (p.counted f) hid
  have hother := @sum_univ_change Address _ _
    (fun q => ∑ i ∈ Finset.range (c.pledgeCount q), (c.pledges q i).counted f)
    (fun q => ∑ i ∈ Finset.range (c'.pledgeCount q), (c'.pledges q i).counted f) provider ?_
  · have hnew : ∑ i ∈ Finset.range (c'.pledgeCount provider), (c'.pledges provider i).counted f =
        (Finset.range (c.pledgeCount provider)).sum
          (Function.update (fun i => (c.pledges provider i).counted f) id (p.counted f)) := by
      rw [hcount, hpledges, Function.update_self]
      apply Finset.sum_congr rfl
      intro i _
      rcases eq_or_ne i id with rfl | hne
      · rw [Function.update_self, Function.update_self]
      · rw [Function.update_of_ne hne, Function.update_of_ne hne]
    rw [hnew] at hother
    unfold activeSum
    omega
  · intro q hq
    rw [hcount, hpledges, Function.update_of_ne hq]

/-- Creating a pledge in the next slot. -/
theorem activeSum_create
    (hpledges : c'.pledges = Function.update c.pledges provider
      (Function.update (c.pledges provider) (c.pledgeCount provider) p))
    (hcount : c'.pledgeCount =
      Function.update c.pledgeCount provider (c.pledgeCount provider + 1)) :
    c'.activeSum f = c.activeSum f + p.counted f := by
  have hother := @sum_univ_change Address _ _
    (fun q => ∑ i ∈ Finset.range (c.pledgeCount q), (c.pledges q i).counted f)
    (fun q => ∑ i ∈ Finset.range (c'.pledgeCount q), (c'.pledges q i).counted f) provider ?_
  · have hnew : ∑ i ∈ Finset.range (c'.pledgeCount provider), (c'.pledges provider i).counted f =
        ∑ i ∈ Finset.range (c.pledgeCount provider), (c.pledges provider i).counted f + p.counted f := by
      rw [hcount, hpledges, Function.update_self, Function.update_self, Finset.sum_range_succ,
        Function.update_self, sum_range_update_next]
    rw [hnew] at hother
    unfold activeSum
    omega
  · intro q hq
    rw [hcount, hpledges, Function.update_of_ne hq, Function.update_of_ne hq]

/-- A pledge is a part of the sum. -/
theorem counted_le_activeSum (hid : id < c.pledgeCount provider) :
    (c.pledges provider id).counted f ≤ c.activeSum f := by
  have hrow := Finset.single_le_sum (f := fun i => (c.pledges provider i).counted f)
    (fun _ _ => Nat.zero_le _) (Finset.mem_range.mpr hid)
  have hall := Finset.single_le_sum
    (f := fun q => ∑ i ∈ Finset.range (c.pledgeCount q), (c.pledges q i).counted f)
    (fun _ _ => Nat.zero_le _) (Finset.mem_univ provider)
  exact hrow.trans hall

end Sums

end CapacityPledge

/-! ## What a call can do -/

/-- Collateral left the contract: `penalty` of it was burned and the rest went to the owner. Nobody else was
involved. -/
structure Leaves (this owner : Address) (collateral penalty returned : Nat) (t t' : StorageToken) : Prop where
  sum : penalty + returned = collateral
  left : t'.balanceOf this + collateral = t.balanceOf this
  paid : t'.balanceOf owner = t.balanceOf owner + returned
  others : ∀ q, q ≠ this → q ≠ owner → t'.balanceOf q = t.balanceOf q
  burned : t'.totalTokensBurned = t.totalTokensBurned + penalty

/-- The books of the pledges, without the contract's owner. -/
structure SamePledges (c c' : CapacityPledge) : Prop where
  pledges : c'.pledges = c.pledges
  pledgeCount : c'.pledgeCount = c.pledgeCount
  totalPledgedCapacityGB : c'.totalPledgedCapacityGB = c.totalPledgedCapacityGB
  totalActiveCollateral : c'.totalActiveCollateral = c.totalActiveCollateral

theorem SamePledges.refl (c : CapacityPledge) : SamePledges c c := ⟨rfl, rfl, rfl, rfl⟩

inductive PledgeEffect (this : Address) (s : PledgeSystem) (a : PledgeAction this) (s' : PledgeSystem) : Prop
  | idle (ends : a.ends = none) (creates : a.creates s = none) (books : SamePledges s.pledges s'.pledges)
      (balance : s.token.balanceOf this ≤ s'.token.balanceOf this)
  | created {p : Pledge} (ends : a.ends = none)
      (creates : a.creates s = some (a.msg.sender, s.pledges.pledgeCount a.msg.sender))
      (active : p.active = true) (unused : p.utilizationGB = 0) (started : p.startTime = a.msg.timestamp)
      (long : 0 < p.duration)
      (pledges : s'.pledges.pledges = Function.update s.pledges.pledges a.msg.sender
        (Function.update (s.pledges.pledges a.msg.sender) (s.pledges.pledgeCount a.msg.sender) p))
      (pledgeCount : s'.pledges.pledgeCount = Function.update s.pledges.pledgeCount a.msg.sender
        (s.pledges.pledgeCount a.msg.sender + 1))
      (capacity : s'.pledges.totalPledgedCapacityGB = s.pledges.totalPledgedCapacityGB + p.capacityGB)
      (collateral : s'.pledges.totalActiveCollateral = s.pledges.totalActiveCollateral + p.collateral)
      (balance : s'.token.balanceOf this = s.token.balanceOf this + p.collateral)
  | ended {id penalty returned : Nat} {p : Pledge} (pledge_eq : p = s.pledges.pledges a.msg.sender id)
      (ends : a.ends = some (a.msg.sender, id)) (creates : a.creates s = none) (active : p.active = true)
      (pledges : s'.pledges.pledges = Function.update s.pledges.pledges a.msg.sender
        (Function.update (s.pledges.pledges a.msg.sender) id { p with active := false }))
      (pledgeCount : s'.pledges.pledgeCount = s.pledges.pledgeCount)
      (capacity : s'.pledges.totalPledgedCapacityGB + p.capacityGB = s.pledges.totalPledgedCapacityGB)
      (collateral : s'.pledges.totalActiveCollateral + p.collateral = s.pledges.totalActiveCollateral)
      (leaves : Leaves this a.msg.sender p.collateral penalty returned s.token s'.token)
      (whole : a.call = .pledge (.completePledge id) → penalty = 0)
  | utilized {provider : Address} {id newUtilizationGB : Nat} {p : Pledge}
      (pledge_eq : p = s.pledges.pledges provider id) (ends : a.ends = none) (creates : a.creates s = none)
      (active : p.active = true) (fits : newUtilizationGB ≤ p.capacityGB)
      (pledges : s'.pledges.pledges = Function.update s.pledges.pledges provider
        (Function.update (s.pledges.pledges provider) id { p with utilizationGB := newUtilizationGB }))
      (pledgeCount : s'.pledges.pledgeCount = s.pledges.pledgeCount)
      (capacity : s'.pledges.totalPledgedCapacityGB = s.pledges.totalPledgedCapacityGB)
      (collateral : s'.pledges.totalActiveCollateral = s.pledges.totalActiveCollateral)
      (token : s'.token = s.token)

section Effects

variable {this : Address} {s s' : PledgeSystem} {t t' : StorageToken} {msg : Msg} {paid : List TokenLog}

theorem retire_ok {c c' : CapacityPledge} {provider : Address} {id : Nat}
    (h : c.retire provider id = .ok c') :
    (c.pledges provider id).capacityGB ≤ c.totalPledgedCapacityGB ∧
      (c.pledges provider id).collateral ≤ c.totalActiveCollateral ∧
      c' = { c.setPledge provider id { c.pledges provider id with active := false } with
        totalPledgedCapacityGB := c.totalPledgedCapacityGB - (c.pledges provider id).capacityGB
        totalActiveCollateral := c.totalActiveCollateral - (c.pledges provider id).collateral } := by
  simp only [CapacityPledge.retire, bind_eq_ok, checkedSub_eq_ok, pure_eq_ok] at h
  obtain ⟨_, ⟨hcapacity, rfl⟩, _, ⟨hcollateral, rfl⟩, rfl⟩ := h
  exact ⟨hcapacity, hcollateral, rfl⟩

/-- A transfer of the contract to somebody else. -/
theorem Leaves.of_transfer {owner : Address} {amount : Nat} (hne : owner ≠ this)
    (h : t.transfer this owner amount = .ok (t', paid)) : Leaves this owner amount 0 amount t t' := by
  obtain ⟨-, -, hle, hout⟩ := StorageToken.transfer_eq_ok.mp h
  obtain ⟨rfl, -⟩ := Prod.mk.inj hout
  refine ⟨Nat.zero_add _, ?_, ?_, ?_, rfl⟩
  · show (t.toErc20.move this owner amount).balanceOf this + amount = t.balanceOf this
    rw [Erc20.balanceOf_move_src _ _ hle, if_neg hne]
    exact Nat.sub_add_cancel hle
  · exact Erc20.balanceOf_move_dst _ _ hne.symm
  · intro q hthis howner
    show (t.toErc20.move this owner amount).balanceOf q = t.balanceOf q
    simp [Erc20.move, hthis, howner]

/-- An exit: a burn and a transfer, of which each may be left out if it is for nothing. -/
theorem Leaves.of_exit {owner : Address} {collateral penalty timestamp : Nat} {t₁ : StorageToken}
    {burned returned : List TokenLog} (hne : owner ≠ this) (hle : penalty ≤ collateral)
    (hburn : CapacityPledge.movedIf penalty t (t.burn ⟨this, timestamp⟩ penalty) = .ok (t₁, burned))
    (hpay : CapacityPledge.movedIf (collateral - penalty) t₁
      (t₁.transfer this owner (collateral - penalty)) = .ok (t', returned)) :
    Leaves this owner collateral penalty (collateral - penalty) t t' ∧ t'.allowance = t.allowance := by
  have hburned : t₁.balanceOf this + penalty = t.balanceOf this ∧
      (∀ q, q ≠ this → t₁.balanceOf q = t.balanceOf q) ∧
      t₁.totalTokensBurned = t.totalTokensBurned + penalty ∧ t₁.allowance = t.allowance := by
    rcases CapacityPledge.movedIf_ok hburn with hdone | ⟨rfl, rfl⟩
    · exact StorageToken.burnCounted_ok hdone
    · exact ⟨rfl, fun _ _ => rfl, rfl, rfl⟩
  have hreturned : Leaves this owner (collateral - penalty) 0 (collateral - penalty) t₁ t' ∧
      t'.allowance = t₁.allowance := by
    rcases CapacityPledge.movedIf_ok hpay with hdone | ⟨hzero, rfl⟩
    · obtain ⟨-, -, -, hout⟩ := StorageToken.transfer_eq_ok.mp hdone
      exact ⟨Leaves.of_transfer hne hdone, by rw [(Prod.mk.inj hout).1]; rfl⟩
    · rw [hzero]
      exact ⟨⟨rfl, rfl, rfl, fun _ _ _ => rfl, rfl⟩, rfl⟩
  obtain ⟨hthis, hothers, hcounted, hallowance⟩ := hburned
  obtain ⟨hleaves, hallowance'⟩ := hreturned
  refine ⟨⟨Nat.add_sub_cancel' hle, ?_, ?_, ?_, ?_⟩, hallowance'.trans hallowance⟩
  · have hleft := hleaves.left
    omega
  · rw [hleaves.paid, hothers owner hne]
  · intro q hthis howner
    rw [hleaves.others q hthis howner, hothers q hthis]
  · rw [hleaves.burned, hcounted]
    rfl

theorem multiplierOf_ok {duration multiplier : Nat} (h : CapacityPledge.multiplierOf duration = .ok multiplier) :
    0 < duration := by
  by_contra hzero
  obtain rfl := Nat.eq_zero_of_not_pos hzero
  cases h

/-- What a call of the contract does. It approves nobody. -/
theorem pledgeStep_effect {a : PledgeAction this} {c : CapacityPledge.Call} {p : CapacityPledge}
    {logs : List PledgeLog} (hcall : a.call = .pledge c)
    (h : s.pledges.step this s.token a.msg c = .ok (t', p, paid, logs)) :
    PledgeEffect this s a ⟨t', p⟩ ∧ ((∀ spender, s.token.allowance this spender = 0) →
      ∀ spender, t'.allowance this spender = 0) := by
  cases c with
  | createPledge capacityGB duration collateralAmount =>
    simp only [CapacityPledge.step, CapacityPledge.createPledge, bind_eq_ok, checkedAdd_eq_ok, pure_eq_ok,
      Prod.exists, Prod.mk.injEq] at h
    obtain ⟨_, -, multiplier, hmultiplier, _, -, _, -, token, _, hpull, _, ⟨-, rfl⟩, _, ⟨-, rfl⟩, _, ⟨-, rfl⟩, rfl,
      rfl, -⟩ := h
    obtain ⟨-, -, hbalance, -⟩ := StorageToken.transferFrom_ok hpull
    let pledge : Pledge := ⟨capacityGB, collateralAmount, a.msg.timestamp, duration, multiplier, 0, true⟩
    refine ⟨.created (p := pledge) (by simp [PledgeAction.ends, hcall])
      (by simp [PledgeAction.creates, hcall]) rfl rfl rfl (multiplierOf_ok hmultiplier) rfl rfl rfl rfl ?_,
      fun hno => (StorageToken.transferFrom_spares hno hpull).2⟩
    show t'.balanceOf this = _
    rw [hbalance]
    exact Erc20.balanceOf_move_dst _ _ a.sender_ne_this
  | completePledge pledgeId =>
    simp only [CapacityPledge.step, CapacityPledge.completePledge, bind_eq_ok, require_eq_ok, pure_eq_ok,
      Prod.exists, Prod.mk.injEq, exists_const] at h
    obtain ⟨hactive, _, -, -, c', hretire, token, _, hpay, rfl, rfl, -⟩ := h
    obtain ⟨hcapacity, hcollateral, rfl⟩ := retire_ok hretire
    obtain ⟨-, -, -, hout⟩ := StorageToken.transfer_eq_ok.mp hpay
    refine ⟨.ended rfl (by simp [PledgeAction.ends, hcall]) (by simp [PledgeAction.creates, hcall]) hactive
      rfl rfl (Nat.sub_add_cancel hcapacity) (Nat.sub_add_cancel hcollateral)
      (Leaves.of_transfer a.sender_ne_this hpay) fun _ => rfl, ?_⟩
    rw [(Prod.mk.inj hout).1]
    exact id
  | exitPledgeEarly pledgeId =>
    obtain ⟨penalty, t₁, burned, returned, hactive, -, -, hle, hretire, hburn, hpay, -⟩ :=
      CapacityPledge.exitPledgeEarly_ok h
    obtain ⟨hcapacity, hcollateral, rfl⟩ := retire_ok hretire
    obtain ⟨hleaves, hallowance⟩ := Leaves.of_exit a.sender_ne_this hle hburn hpay
    refine ⟨.ended rfl (by simp [PledgeAction.ends, hcall]) (by simp [PledgeAction.creates, hcall]) hactive
      rfl rfl (Nat.sub_add_cancel hcapacity) (Nat.sub_add_cancel hcollateral) hleaves ?_, ?_⟩
    · rw [hcall]
      intro hcompleted
      cases hcompleted
    · rw [hallowance]
      exact id
  | updateUtilization provider pledgeId newUtilizationGB =>
    simp only [CapacityPledge.step, CapacityPledge.updateUtilization, bind_eq_ok, require_eq_ok, pure_eq_ok,
      Prod.exists, Prod.mk.injEq, exists_const] at h
    obtain ⟨_, _, ⟨_, -, hactive, hfits, rfl, -⟩, rfl, rfl, -⟩ := h
    exact ⟨.utilized rfl (by simp [PledgeAction.ends, hcall]) (by simp [PledgeAction.creates, hcall]) hactive
      hfits rfl rfl rfl rfl rfl, id⟩
  | transferOwnership _ | renounceOwnership =>
    simp only [CapacityPledge.step, bind_eq_ok, pure_eq_ok, Prod.mk.injEq] at h
    obtain ⟨_, -, rfl, rfl, -⟩ := h
    exact ⟨.idle (by simp [PledgeAction.ends, hcall]) (by simp [PledgeAction.creates, hcall])
      ⟨rfl, rfl, rfl, rfl⟩ (Nat.le_refl _), id⟩

/-- **Every successful call has one of the effects**, and the contract still approves nobody. -/
theorem PledgeSystem.step_effect {a : PledgeAction this} {logs : List PledgeEvent}
    (hno : ∀ spender, s.token.allowance this spender = 0) (h : s.step this a = .ok (s', logs)) :
    PledgeEffect this s a s' ∧ ∀ spender, s'.token.allowance this spender = 0 := by
  cases hcall : a.call with
  | token c =>
    simp only [PledgeSystem.step, hcall, bind_eq_ok, pure_eq_ok, Prod.exists, Prod.mk.injEq] at h
    obtain ⟨token, l, hstep, rfl, -⟩ := h
    obtain ⟨hbalance, hno'⟩ := StorageToken.step_frame a.sender_ne_this (a.standard c hcall) hno hstep
    exact ⟨.idle (by simp [PledgeAction.ends, hcall]) (by simp [PledgeAction.creates, hcall])
      (SamePledges.refl _) hbalance, hno'⟩
  | pledge c =>
    simp only [PledgeSystem.step, hcall, bind_eq_ok, pure_eq_ok, Prod.exists, Prod.mk.injEq] at h
    obtain ⟨token, pledges, paid, l, hstep, rfl, -⟩ := h
    obtain ⟨he, happroved⟩ := pledgeStep_effect hcall hstep
    exact ⟨he, happroved hno⟩

end Effects

/-! ## What every run keeps -/

/-- Reading a mapping of mappings after one write. -/
theorem update_update_apply (f : Address → Nat → Pledge) (owner provider : Address) (id i : Nat) (p : Pledge) :
    Function.update f owner (Function.update (f owner) id p) provider i =
      if provider = owner ∧ i = id then p else f provider i := by
  rcases eq_or_ne provider owner with rfl | hne
  · simp [Function.update_apply]
  · simp [hne]

/-- What is true of each pledge by itself: it has started, it has a duration, and it is not used beyond its
capacity. Slots without a pledge are empty. -/
structure PledgeTerms (c : CapacityPledge) (now : Nat) : Prop where
  beyond : ∀ provider id, c.pledgeCount provider ≤ id → c.pledges provider id = {}
  started : ∀ provider id, (c.pledges provider id).startTime ≤ now
  long : ∀ provider id, id < c.pledgeCount provider → 0 < (c.pledges provider id).duration
  utilization : ∀ provider id, (c.pledges provider id).utilizationGB ≤ (c.pledges provider id).capacityGB

/-- The totals are sums over the active pledges, and the balance covers the collateral. -/
structure PledgeBooks (this : Address) (s : PledgeSystem) (now : Nat) : Prop where
  noApproval : ∀ spender, s.token.allowance this spender = 0
  terms : PledgeTerms s.pledges now
  capacity : s.pledges.totalPledgedCapacityGB = s.pledges.activeSum Pledge.capacityGB
  collateral : s.pledges.totalActiveCollateral = s.pledges.activeSum Pledge.collateral
  covered : s.pledges.totalActiveCollateral ≤ s.token.balanceOf this

section Books

variable {this : Address} {s s' : PledgeSystem} {a : PledgeAction this} {now : Nat}

theorem PledgeTerms.lt_of_active {c : CapacityPledge} (h : PledgeTerms c now) {provider : Address} {id : Nat}
    (hactive : (c.pledges provider id).active = true) : id < c.pledgeCount provider := by
  by_contra hge
  rw [h.beyond provider id (Nat.le_of_not_lt hge)] at hactive
  cases hactive

theorem pledgeTerms_deploy (msg : Msg) : PledgeTerms (CapacityPledge.deploy msg) 0 :=
  ⟨fun _ _ _ => rfl, fun _ _ => Nat.le_refl _, fun _ id hid => absurd hid (Nat.not_lt_zero id),
    fun _ _ => Nat.le_refl _⟩

theorem PledgeTerms.wait {c : CapacityPledge} {later : Nat} (h : PledgeTerms c now) (hle : now ≤ later) :
    PledgeTerms c later :=
  { h with started := fun provider id => (h.started provider id).trans hle }

/-- A pledge may be written over by one with the same terms. -/
theorem PledgeTerms.of_write {c c' : CapacityPledge} {owner : Address} {id : Nat} {p : Pledge}
    (h : PledgeTerms c now) (hid : id < c.pledgeCount owner)
    (pledges : c'.pledges = Function.update c.pledges owner (Function.update (c.pledges owner) id p))
    (pledgeCount : c'.pledgeCount = c.pledgeCount) (utilization : p.utilizationGB ≤ p.capacityGB)
    (started : p.startTime = (c.pledges owner id).startTime)
    (long : p.duration = (c.pledges owner id).duration) : PledgeTerms c' now := by
  refine ⟨?_, ?_, ?_, ?_⟩
  · intro provider i hi
    rw [pledgeCount] at hi
    rw [pledges, update_update_apply, if_neg]
    · exact h.beyond provider i hi
    · rintro ⟨rfl, rfl⟩
      omega
  · intro provider i
    rw [pledges, update_update_apply]
    split
    · rw [started]
      exact h.started owner id
    · exact h.started provider i
  · intro provider i hi
    rw [pledgeCount] at hi
    rw [pledges, update_update_apply]
    split
    · rw [long]
      exact h.long owner id hid
    · exact h.long provider i hi
  · intro provider i
    rw [pledges, update_update_apply]
    split
    · exact utilization
    · exact h.utilization provider i

/-- A new pledge has a slot of its own, beyond those that were in use. -/
theorem PledgeTerms.of_create {c c' : CapacityPledge} {owner : Address} {p : Pledge} (h : PledgeTerms c now)
    (pledges : c'.pledges = Function.update c.pledges owner
      (Function.update (c.pledges owner) (c.pledgeCount owner) p))
    (pledgeCount : c'.pledgeCount = Function.update c.pledgeCount owner (c.pledgeCount owner + 1))
    (unused : p.utilizationGB = 0) (started : p.startTime = now) (long : 0 < p.duration) :
    PledgeTerms c' now := by
  have hcount : ∀ provider i, i < c'.pledgeCount provider →
      (provider = owner ∧ i = c.pledgeCount owner) ∨ i < c.pledgeCount provider := by
    intro provider i hi
    rw [pledgeCount] at hi
    rcases eq_or_ne provider owner with rfl | hne
    · rw [Function.update_self] at hi
      rcases Nat.lt_succ_iff_lt_or_eq.mp hi with hlt | heq
      · exact Or.inr hlt
      · exact Or.inl ⟨rfl, heq⟩
    · rw [Function.update_of_ne hne] at hi
      exact Or.inr hi
  have hle : ∀ provider, c.pledgeCount provider ≤ c'.pledgeCount provider := by
    intro provider
    rw [pledgeCount]
    rcases eq_or_ne provider owner with rfl | hne
    · rw [Function.update_self]
      exact Nat.le_succ _
    · rw [Function.update_of_ne hne]
  refine ⟨?_, ?_, ?_, ?_⟩
  · intro provider i hi
    rw [pledges, update_update_apply, if_neg]
    · exact h.beyond provider i ((hle provider).trans hi)
    · rintro ⟨rfl, rfl⟩
      rw [pledgeCount, Function.update_self] at hi
      omega
  · intro provider i
    rw [pledges, update_update_apply]
    split
    · exact started.le
    · exact h.started provider i
  · intro provider i hi
    rw [pledges, update_update_apply]
    split
    · exact long
    · next hold => exact h.long provider i ((hcount provider i hi).resolve_left hold)
  · intro provider i
    rw [pledges, update_update_apply]
    split
    · rw [unused]
      exact Nat.zero_le _
    · exact h.utilization provider i

/-- Every effect keeps the terms. -/
theorem pledgeTerms_effect (h : PledgeTerms s.pledges a.msg.timestamp) (he : PledgeEffect this s a s') :
    PledgeTerms s'.pledges a.msg.timestamp := by
  cases he with
  | idle _ _ books =>
    refine ⟨?_, ?_, ?_, ?_⟩
    · rw [books.pledgeCount, books.pledges]
      exact h.beyond
    · rw [books.pledges]
      exact h.started
    · rw [books.pledgeCount, books.pledges]
      exact h.long
    · rw [books.pledges]
      exact h.utilization
  | created _ _ _ unused started long pledges pledgeCount =>
    exact h.of_create pledges pledgeCount unused started long
  | ended pledge_eq _ _ active pledges pledgeCount =>
    subst pledge_eq
    exact h.of_write (h.lt_of_active active) pledges pledgeCount (h.utilization _ _) rfl rfl
  | utilized pledge_eq _ _ active fits pledges pledgeCount =>
    subst pledge_eq
    exact h.of_write (h.lt_of_active active) pledges pledgeCount fits rfl rfl

theorem counted_active {p : Pledge} {f : Pledge → Nat} (h : p.active = true) : p.counted f = f p := by
  simp [Pledge.counted, h]

theorem counted_ended (p : Pledge) (f : Pledge → Nat) : Pledge.counted f { p with active := false } = 0 := by
  simp [Pledge.counted]

/-- Every effect keeps the totals equal to the sums over the active pledges, and the balance above them. -/
theorem pledgeBooks_effect (h : PledgeBooks this s a.msg.timestamp) (he : PledgeEffect this s a s')
    (hno : ∀ spender, s'.token.allowance this spender = 0) : PledgeBooks this s' a.msg.timestamp := by
  have hterms := pledgeTerms_effect h.terms he
  have hwas := h.capacity
  have hheld := h.collateral
  have hcovered := h.covered
  cases he with
  | idle _ _ books balance =>
    refine ⟨hno, hterms, ?_, ?_, ?_⟩
    · rw [books.totalPledgedCapacityGB, h.capacity, CapacityPledge.activeSum, CapacityPledge.activeSum,
        books.pledgeCount, books.pledges]
    · rw [books.totalActiveCollateral, h.collateral, CapacityPledge.activeSum, CapacityPledge.activeSum,
        books.pledgeCount, books.pledges]
    · rw [books.totalActiveCollateral]
      exact h.covered.trans balance
  | created _ _ active _ _ _ pledges pledgeCount capacity collateral balance =>
    refine ⟨hno, hterms, ?_, ?_, ?_⟩
    · rw [capacity, h.capacity, CapacityPledge.activeSum_create pledges pledgeCount, counted_active active]
    · rw [collateral, h.collateral, CapacityPledge.activeSum_create pledges pledgeCount, counted_active active]
    · rw [collateral, balance]
      exact Nat.add_le_add_right h.covered _
  | ended pledge_eq _ _ active pledges pledgeCount capacity collateral leaves =>
    subst pledge_eq
    have hid := h.terms.lt_of_active active
    have hcapacity := CapacityPledge.activeSum_write (f := Pledge.capacityGB) hid pledges pledgeCount
    have hcollateral := CapacityPledge.activeSum_write (f := Pledge.collateral) hid pledges pledgeCount
    rw [counted_active active, counted_ended, Nat.add_zero] at hcapacity hcollateral
    have hleft := leaves.left
    exact ⟨hno, hterms, by omega, by omega, by omega⟩
  | utilized pledge_eq _ _ active _ pledges pledgeCount capacity collateral token =>
    subst pledge_eq
    have hid := h.terms.lt_of_active active
    have hcapacity := CapacityPledge.activeSum_write (f := Pledge.capacityGB) hid pledges pledgeCount
    have hcollateral := CapacityPledge.activeSum_write (f := Pledge.collateral) hid pledges pledgeCount
    -- neither the capacity nor the collateral is what the call changes
    simp only [Pledge.counted] at hcapacity hcollateral
    refine ⟨hno, hterms, by omega, by omega, ?_⟩
    rw [collateral, token]
    exact h.covered

end Books

/-! ## Subtractions -/

/-- No subtraction of the contract underflows: the ones that take a pledge out of the totals, the ones of an early
exit, and the one that computes the capacity left. `now` is the time of the last call. -/
structure NoUnderflow (c : CapacityPledge) (now : Nat) : Prop where
  totals : ∀ provider id, (c.pledges provider id).active = true → ∃ c', c.retire provider id = .ok c'
  elapsed : ∀ provider id timestamp, now ≤ timestamp →
    ∃ elapsed, checkedSub timestamp (c.pledges provider id).startTime = .ok elapsed
  returned : ∀ provider id timestamp penalty,
    CapacityPledge.penaltyOf (c.pledges provider id)
      (CapacityPledge.remainingOf (c.pledges provider id) timestamp) = .ok penalty →
    ∃ returned, checkedSub (c.pledges provider id).collateral penalty = .ok returned
  available : ∀ provider id, ∃ capacity, c.getAvailableCapacity provider id = .ok capacity

section Underflow

variable {this : Address} {s : PledgeSystem} {now : Nat}

/-- The penalty is a fifth of the collateral at most, or its hundredth part. -/
theorem penaltyOf_le {p : Pledge} {remaining penalty : Nat} (hle : remaining ≤ p.duration)
    (h : CapacityPledge.penaltyOf p remaining = .ok penalty) : penalty ≤ p.collateral := by
  simp only [CapacityPledge.penaltyOf, bind_eq_ok, checkedMul_eq_ok, checkedDiv_eq_ok, pure_eq_ok] at h
  obtain ⟨_, ⟨-, rfl⟩, _, ⟨-, rfl⟩, _, ⟨-, rfl⟩, share, ⟨-, rfl⟩, rfl⟩ := h
  split
  · exact Nat.div_le_self _ _
  · apply Nat.div_le_of_le_mul
    calc p.collateral * remaining * EARLY_EXIT_PENALTY_PERCENT
        ≤ p.collateral * p.duration * 100 :=
          Nat.mul_le_mul (Nat.mul_le_mul_left _ hle) (by decide)
      _ = p.duration * 100 * p.collateral := by ring

/-- With the books in order, no subtraction goes below zero. -/
theorem PledgeBooks.noUnderflow (h : PledgeBooks this s now) : NoUnderflow s.pledges now where
  totals := by
    intro provider id hactive
    have hid := h.terms.lt_of_active hactive
    have hcapacity := CapacityPledge.counted_le_activeSum (f := Pledge.capacityGB) hid
    have hcollateral := CapacityPledge.counted_le_activeSum (f := Pledge.collateral) hid
    rw [counted_active hactive, ← h.capacity] at hcapacity
    rw [counted_active hactive, ← h.collateral] at hcollateral
    simp only [CapacityPledge.retire, bind_eq_ok, checkedSub_eq_ok, pure_eq_ok]
    exact ⟨_, _, ⟨hcapacity, rfl⟩, _, ⟨hcollateral, rfl⟩, rfl⟩
  elapsed := by
    intro provider id timestamp hlater
    exact ⟨_, checkedSub_eq_ok.mpr ⟨(h.terms.started provider id).trans hlater, rfl⟩⟩
  returned := by
    intro provider id timestamp penalty hpenalty
    exact ⟨_, checkedSub_eq_ok.mpr ⟨penaltyOf_le (Nat.sub_le _ _) hpenalty, rfl⟩⟩
  available := by
    intro provider id
    unfold CapacityPledge.getAvailableCapacity
    dsimp only
    split
    · exact ⟨0, rfl⟩
    · exact ⟨_, checkedSub_eq_ok.mpr ⟨h.terms.utilization provider id, rfl⟩⟩

end Underflow

/-! ## Collateral comes in once and leaves once -/

/-- What the history says about the collateral of each pledge: it came in when the pledge was created, it leaves in
the one call that ends the pledge, and in no other call does the contract lose tokens. -/
structure LeavesOnce {this : Address} (s : PledgeSystem) (hist : List (PledgeEntry this)) : Prop where
  deposit : ∀ e ∈ hist, ∀ provider id, e.act.creates e.pre = some (provider, id) →
    e.post.token.balanceOf this =
      e.pre.token.balanceOf this + (s.pledges.pledges provider id).collateral
  release : ∀ e ∈ hist, ∀ provider id, e.act.ends = some (provider, id) →
    ∃ penalty returned,
      Leaves this provider (s.pledges.pledges provider id).collateral penalty returned e.pre.token e.post.token ∧
        (e.act.call = .pledge (.completePledge id) → penalty = 0)
  keep : ∀ e ∈ hist, e.act.ends = none → e.pre.token.balanceOf this ≤ e.post.token.balanceOf this
  once : ∀ provider id, hist.countP (fun e => e.act.ends = some (provider, id)) =
    if id < s.pledges.pledgeCount provider ∧ (s.pledges.pledges provider id).active = false then 1 else 0

/-- What does not change about a pledge. -/
structure SameTerms (p p' : Pledge) : Prop where
  capacityGB : p'.capacityGB = p.capacityGB
  collateral : p'.collateral = p.collateral
  startTime : p'.startTime = p.startTime
  duration : p'.duration = p.duration
  multiplier : p'.multiplier = p.multiplier

theorem SameTerms.refl (p : Pledge) : SameTerms p p := ⟨rfl, rfl, rfl, rfl, rfl⟩

/-- The pledges that a history is about have been created. -/
def OfCreated {this : Address} (s : PledgeSystem) (hist : List (PledgeEntry this)) : Prop :=
  ∀ e ∈ hist, ∀ provider id, e.act.creates e.pre = some (provider, id) ∨ e.act.ends = some (provider, id) →
    id < s.pledges.pledgeCount provider

section History

variable {this : Address} {s s' : PledgeSystem} {a : PledgeAction this} {now : Nat}
  {hist : List (PledgeEntry this)} {logs : List PledgeEvent}

/-- A created pledge keeps its terms, and stays created. -/
theorem terms_kept (he : PledgeEffect this s a s') {provider : Address} {id : Nat}
    (hid : id < s.pledges.pledgeCount provider) :
    SameTerms (s.pledges.pledges provider id) (s'.pledges.pledges provider id) ∧
      id < s'.pledges.pledgeCount provider := by
  cases he with
  | idle _ _ books _ =>
    rw [books.pledges, books.pledgeCount]
    exact ⟨SameTerms.refl _, hid⟩
  | created _ _ _ _ _ _ pledges pledgeCount =>
    rw [pledges, pledgeCount, update_update_apply]
    constructor
    · rw [if_neg]
      · exact SameTerms.refl _
      · rintro ⟨rfl, rfl⟩
        omega
    · rcases eq_or_ne provider a.msg.sender with rfl | hne
      · rw [Function.update_self]
        omega
      · rw [Function.update_of_ne hne]
        exact hid
  | ended pledge_eq _ _ _ pledges pledgeCount | utilized pledge_eq _ _ _ _ pledges pledgeCount =>
    subst pledge_eq
    rw [pledges, pledgeCount, update_update_apply]
    refine ⟨?_, hid⟩
    split
    · next hsame =>
      rw [hsame.1, hsame.2]
      exact ⟨rfl, rfl, rfl, rfl, rfl⟩
    · exact SameTerms.refl _

/-- A creation takes the new pledge's collateral in. -/
theorem effect_deposit (he : PledgeEffect this s a s') {provider : Address} {id : Nat}
    (hcreates : a.creates s = some (provider, id)) :
    s'.token.balanceOf this = s.token.balanceOf this + (s'.pledges.pledges provider id).collateral ∧
      id < s'.pledges.pledgeCount provider := by
  cases he with
  | created _ creates _ _ _ _ pledges pledgeCount _ _ balance =>
    obtain ⟨rfl, rfl⟩ := Prod.mk.inj (Option.some.inj (creates.symm.trans hcreates))
    rw [pledges, pledgeCount, update_update_apply, if_pos ⟨rfl, rfl⟩, Function.update_self]
    exact ⟨balance, Nat.lt_succ_self _⟩
  | idle _ creates | ended _ _ creates | utilized _ _ creates =>
    rw [creates] at hcreates
    cases hcreates

/-- A call that ends a pledge lets its collateral out. -/
theorem effect_release (hb : PledgeBooks this s now) (he : PledgeEffect this s a s') {provider : Address} {id : Nat}
    (hends : a.ends = some (provider, id)) :
    (∃ penalty returned,
      Leaves this provider (s'.pledges.pledges provider id).collateral penalty returned s.token s'.token ∧
        (a.call = .pledge (.completePledge id) → penalty = 0)) ∧
      id < s'.pledges.pledgeCount provider := by
  cases he with
  | ended pledge_eq ends _ active pledges pledgeCount _ _ leaves whole =>
    subst pledge_eq
    obtain ⟨rfl, rfl⟩ := Prod.mk.inj (Option.some.inj (ends.symm.trans hends))
    rw [pledges, pledgeCount, update_update_apply, if_pos ⟨rfl, rfl⟩]
    exact ⟨⟨_, _, leaves, whole⟩, hb.terms.lt_of_active active⟩
  | idle ends | created ends | utilized _ ends =>
    rw [ends] at hends
    cases hends

/-- Only a call that ends a pledge takes tokens from the contract. -/
theorem effect_keep (he : PledgeEffect this s a s') (hends : a.ends = none) :
    s.token.balanceOf this ≤ s'.token.balanceOf this := by
  cases he with
  | idle _ _ _ balance => exact balance
  | created _ _ _ _ _ _ _ _ _ _ balance =>
    rw [balance]
    exact Nat.le_add_right _ _
  | ended _ ends =>
    rw [ends] at hends
    cases hends
  | utilized _ _ _ _ _ _ _ _ _ token => rw [token]

/-- A pledge has ended exactly if a call has ended it. -/
theorem effect_once (hb : PledgeBooks this s now) (he : PledgeEffect this s a s') (provider : Address) (id : Nat) :
    (id < s'.pledges.pledgeCount provider ∧ (s'.pledges.pledges provider id).active = false) ↔
      (id < s.pledges.pledgeCount provider ∧ (s.pledges.pledges provider id).active = false) ∨
        a.ends = some (provider, id) := by
  cases he with
  | idle ends _ books _ => simp [books.pledges, books.pledgeCount, ends]
  | created ends _ active _ _ _ pledges pledgeCount =>
    rw [pledges, pledgeCount, update_update_apply, ends]
    rcases eq_or_ne provider a.msg.sender with rfl | hne
    · rw [Function.update_self]
      rcases eq_or_ne id (s.pledges.pledgeCount a.msg.sender) with rfl | hid
      · simp [active]
      · have hlt : id < s.pledges.pledgeCount a.msg.sender + 1 ↔ id < s.pledges.pledgeCount a.msg.sender := by
          omega
        simp [hid, hlt]
    · simp [hne]
  | @ended i _ _ p pledge_eq ends _ active pledges pledgeCount =>
    subst pledge_eq
    have hi := hb.terms.lt_of_active active
    rw [pledges, pledgeCount, update_update_apply, ends]
    by_cases hsame : provider = a.msg.sender ∧ id = i
    · obtain ⟨rfl, rfl⟩ := hsame
      simp [hi]
    · have hne : (a.msg.sender, i) ≠ (provider, id) := by
        intro heq
        obtain ⟨rfl, rfl⟩ := Prod.mk.inj heq
        exact hsame ⟨rfl, rfl⟩
      simp [hsame, hne]
  | @utilized owner i _ p pledge_eq ends _ active _ pledges pledgeCount =>
    subst pledge_eq
    rw [pledges, pledgeCount, update_update_apply, ends]
    by_cases hsame : provider = owner ∧ id = i
    · obtain ⟨rfl, rfl⟩ := hsame
      simp [active]
    · simp [hsame]

/-- A call ends a pledge that was active, so the two ways in which it can have ended exclude each other. -/
theorem effect_ends_active (he : PledgeEffect this s a s') {provider : Address} {id : Nat}
    (hends : a.ends = some (provider, id)) :
    (s.pledges.pledges provider id).active = true := by
  cases he with
  | ended pledge_eq ends _ active =>
    subst pledge_eq
    obtain ⟨rfl, rfl⟩ := Prod.mk.inj (Option.some.inj (ends.symm.trans hends))
    exact active
  | idle ends | created ends | utilized _ ends =>
    rw [ends] at hends
    cases hends

theorem ofCreated_effect (hb : PledgeBooks this s now) (hc : OfCreated s hist)
    (he : PledgeEffect this s a s') : OfCreated s' (hist ++ [⟨s, a, logs, s'⟩]) := by
  intro e hmem provider id habout
  rcases List.mem_append.mp hmem with hold | hnew
  · exact (terms_kept he (hc e hold provider id habout)).2
  · obtain rfl := List.mem_singleton.mp hnew
    rcases habout with hcreates | hends
    · exact (effect_deposit he hcreates).2
    · exact (effect_release hb he hends).2

/-- What the history says about collateral stays true with one more call. -/
theorem leavesOnce_effect (hb : PledgeBooks this s now) (hc : OfCreated s hist) (h : LeavesOnce s hist)
    (he : PledgeEffect this s a s') : LeavesOnce s' (hist ++ [⟨s, a, logs, s'⟩]) := by
  refine ⟨?_, ?_, ?_, ?_⟩
  · intro e hmem provider id hcreates
    rcases List.mem_append.mp hmem with hold | hnew
    · rw [(terms_kept he (hc e hold provider id (Or.inl hcreates))).1.collateral]
      exact h.deposit e hold provider id hcreates
    · obtain rfl := List.mem_singleton.mp hnew
      exact (effect_deposit he hcreates).1
  · intro e hmem provider id hends
    rcases List.mem_append.mp hmem with hold | hnew
    · rw [(terms_kept he (hc e hold provider id (Or.inr hends))).1.collateral]
      exact h.release e hold provider id hends
    · obtain rfl := List.mem_singleton.mp hnew
      exact (effect_release hb he hends).1
  · intro e hmem hends
    rcases List.mem_append.mp hmem with hold | hnew
    · exact h.keep e hold hends
    · obtain rfl := List.mem_singleton.mp hnew
      exact effect_keep he hends
  · intro provider id
    rw [List.countP_append, h.once provider id, List.countP_singleton, if_congr (effect_once hb he provider id)
      rfl rfl]
    by_cases hends : a.ends = some (provider, id)
    · simp [hends, effect_ends_active he hends]
    · simp [hends]

end History

/-! ## Runs -/

/-- Everything that is promised about the contract of pledges. -/
structure PledgesSound (this : Address) (s : PledgeSystem) (hist : List (PledgeEntry this)) (now : Nat) : Prop where
  inactive : ∀ provider id, s.pledges.pledgeCount provider ≤ id →
    (s.pledges.pledges provider id).active = false
  capacity : s.pledges.totalPledgedCapacityGB = s.pledges.activeSum Pledge.capacityGB
  collateral : s.pledges.totalActiveCollateral = s.pledges.activeSum Pledge.collateral
  covered : s.pledges.totalActiveCollateral ≤ s.token.balanceOf this
  utilization : ∀ provider id, (s.pledges.pledges provider id).utilizationGB ≤
    (s.pledges.pledges provider id).capacityGB
  noUnderflow : NoUnderflow s.pledges now
  leavesOnce : LeavesOnce s hist

section Runs

variable {this : Address} {s₀ : PledgeSystem}

theorem pledgeBooks_deployed (h : s₀.Deployed this) :
    PledgeBooks this s₀ 0 ∧ @OfCreated this s₀ [] ∧ @LeavesOnce this s₀ [] := by
  obtain ⟨msg, hfresh⟩ := h.fresh
  have hterms : PledgeTerms s₀.pledges 0 := by
    rw [hfresh]
    exact pledgeTerms_deploy msg
  refine ⟨⟨h.noApproval, hterms, ?_, ?_, ?_⟩, by simp [OfCreated], by simp, by simp, by simp, ?_⟩
  all_goals simp [hfresh, CapacityPledge.deploy, CapacityPledge.activeSum]

/-- **The contract of pledges is sound in every run.** The calls come in the order of time. -/
theorem pledges_run (h : s₀.Deployed this) (as : List (PledgeAction this))
    (hmono : as.Pairwise fun a b => a.msg.timestamp ≤ b.msg.timestamp) :
    PledgesSound this (run (PledgeSystem.step this) s₀ as) (history (PledgeSystem.step this) s₀ as)
      (lastTime (fun a => a.msg.timestamp) as) := by
  have hrun : PledgeBooks this (run (PledgeSystem.step this) s₀ as)
      (lastTime (fun a => a.msg.timestamp) as) ∧
      OfCreated (run (PledgeSystem.step this) s₀ as) (history (PledgeSystem.step this) s₀ as) ∧
      LeavesOnce (run (PledgeSystem.step this) s₀ as) (history (PledgeSystem.step this) s₀ as) := by
    refine timed_induction
      (P := fun s hist now => PledgeBooks this s now ∧ OfCreated s hist ∧ LeavesOnce s hist)
      (C := fun _ _ => True) (pledgeBooks_deployed h) ?_ ?_ as hmono (meets_true s₀ as)
    · rintro s hist now later hlater ⟨hb, hrest⟩
      exact ⟨{ hb with terms := hb.terms.wait hlater }, hrest⟩
    · rintro s hist a s' logs ⟨hb, hc, hleaves⟩ - hstep
      obtain ⟨he, hno⟩ := PledgeSystem.step_effect hb.noApproval hstep
      exact ⟨pledgeBooks_effect hb he hno, ofCreated_effect hb hc he, leavesOnce_effect hb hc hleaves he⟩
  obtain ⟨hb, -, hleaves⟩ := hrun
  refine ⟨?_, hb.capacity, hb.collateral, hb.covered, hb.terms.utilization, hb.noUnderflow, hleaves⟩
  intro provider id hid
  rw [hb.terms.beyond provider id hid]

end Runs

/-! ### Two pledges -/

namespace SmallPledges

def this : Address := 101

theorem account_ne_this (i : Fin 99) : BitVec.ofNat 160 (i + 1) ≠ this := by
  revert i
  decide

/-- A call of the contract of pledges by the account with address `i + 1`. -/
def pledgeCall (i : Fin 99) (timestamp : Nat) (c : CapacityPledge.Call) : PledgeAction this where
  msg := ⟨BitVec.ofNat 160 (i + 1), timestamp⟩
  call := .pledge c
  sender_ne_zero := account_ne_zero i
  sender_ne_this := account_ne_this i
  standard := by intro c h; cases h

def tokenCall (i : Fin 99) (timestamp : Nat) (c : StorageToken.Call) (h : ¬ c.burnsFrom this) :
    PledgeAction this where
  msg := ⟨BitVec.ofNat 160 (i + 1), timestamp⟩
  call := .token c
  sender_ne_zero := account_ne_zero i
  sender_ne_this := account_ne_this i
  standard := by intro c h; cases h; assumption

/-- The token and the contract, deployed by account 1. -/
def deployed : PledgeSystem := { token := .deploy ⟨1, 0⟩, pledges := .deploy ⟨1, 0⟩ }

theorem deployed_fresh : deployed.Deployed this := ⟨⟨_, rfl⟩, fun _ => rfl⟩

/-- A provider makes two pledges for 30 days, exits the first after ten days and completes the second. -/
def twoPledges : List (PledgeAction this) :=
  [tokenCall 0 0 (.transfer 2 (100 * 10 ^ 18)) id, tokenCall 1 0 (.approve this (100 * 10 ^ 18)) id,
    pledgeCall 1 0 (.createPledge 10 (30 * 86400) (10 * 10 ^ 18)),
    pledgeCall 1 0 (.createPledge 20 (30 * 86400) (15 * 10 ^ 18)),
    pledgeCall 0 86400 (.updateUtilization 2 1 20), pledgeCall 1 (10 * 86400) (.exitPledgeEarly 0),
    pledgeCall 1 (30 * 86400) (.completePledge 1)]

theorem twoPledges_sound :
    PledgesSound this (run (PledgeSystem.step this) deployed twoPledges)
        (history (PledgeSystem.step this) deployed twoPledges) (30 * 86400) ∧
      (history (PledgeSystem.step this) deployed twoPledges).length = 7 :=
  ⟨pledges_run deployed_fresh twoPledges (by decide), by decide +kernel⟩

end SmallPledges

end Kyneto
