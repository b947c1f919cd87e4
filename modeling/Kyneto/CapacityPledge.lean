import Kyneto.StorageToken

/-!
# `CapacityPledge`

Providers lock tokens as collateral and pledge capacity for one of four durations, which fixes the
multiplier of their capacity rewards. A pledge ends when its time is over, with all of its collateral,
or early, with a penalty that is burned.

An operation acts on the token and the pledges together; `this` is the contract's own address.
-/

namespace Kyneto

open Evm

def EARLY_EXIT_PENALTY_PERCENT : Nat := 20

structure Pledge where
  capacityGB : Nat := 0
  collateral : Nat := 0
  startTime : Nat := 0
  duration : Nat := 0
  multiplier : Nat := 0
  utilizationGB : Nat := 0
  active : Bool := false
  deriving DecidableEq, Repr

structure CapacityPledge where
  owner : Address
  pledges : Address → Nat → Pledge := fun _ _ => {}
  pledgeCount : Address → Nat := fun _ => 0
  totalPledgedCapacityGB : Nat := 0
  totalActiveCollateral : Nat := 0

inductive PledgeLog where
  | PledgeCreated (provider : Address) (pledgeId capacityGB duration collateral : Nat)
  | PledgeCompleted (provider : Address) (pledgeId returnedCollateral : Nat)
  | PledgeExitedEarly (provider : Address) (pledgeId penalty returned : Nat)
  | UtilizationUpdated (provider : Address) (pledgeId newUtilization : Nat)
  deriving DecidableEq, Repr

namespace CapacityPledge

def deploy (msg : Msg) : CapacityPledge where
  owner := msg.sender

/-- Write one pledge. -/
def setPledge (c : CapacityPledge) (provider : Address) (pledgeId : Nat) (p : Pledge) :
    CapacityPledge :=
  { c with
    pledges := Function.update c.pledges provider
      (Function.update (c.pledges provider) pledgeId p) }

/-- The multiplier of a duration, in percent: 30, 90, 180 and 365 days are offered. -/
def multiplierOf (duration : Nat) : Tx Nat :=
  if duration = 30 * 86400 then .ok 100
  else if duration = 90 * 86400 then .ok 110
  else if duration = 180 * 86400 then .ok 120
  else if duration = 365 * 86400 then .ok 130
  else .error (.reason "Invalid duration")

/-- 0.75 tokens per GB, whatever the duration. -/
def calculateMinimumCollateral (capacityGB : Nat) : Tx Nat := do
  let scaled ← checkedMul capacityGB 75
  checkedMul scaled (10 ^ 16)

section Operations

variable (this : Address)

def createPledge (c : CapacityPledge) (token : StorageToken) (msg : Msg)
    (capacityGB duration collateralAmount : Nat) :
    Tx (StorageToken × CapacityPledge × List TokenLog × List PledgeLog) := do
  require (0 < capacityGB) "Capacity must be > 0"
  let multiplier ← multiplierOf duration
  let minCollateral ← calculateMinimumCollateral capacityGB
  require (minCollateral ≤ collateralAmount) "Insufficient collateral"
  let (token, paid) ← token.transferFrom this msg.sender this collateralAmount
  let pledgeId := c.pledgeCount msg.sender
  let count ← checkedAdd pledgeId 1
  let pledge : Pledge :=
    { capacityGB, collateral := collateralAmount, startTime := msg.timestamp, duration, multiplier,
      utilizationGB := 0, active := true }
  let totalPledgedCapacityGB ← checkedAdd c.totalPledgedCapacityGB capacityGB
  let totalActiveCollateral ← checkedAdd c.totalActiveCollateral collateralAmount
  return (token,
    { c.setPledge msg.sender pledgeId pledge with
      pledgeCount := Function.update c.pledgeCount msg.sender count
      totalPledgedCapacityGB
      totalActiveCollateral },
    paid, [.PledgeCreated msg.sender pledgeId capacityGB duration collateralAmount])

/-- Take a pledge out of the books, as `completePledge` and `exitPledgeEarly` both do. -/
def retire (c : CapacityPledge) (provider : Address) (pledgeId : Nat) : Tx CapacityPledge := do
  let pledge := c.pledges provider pledgeId
  let totalPledgedCapacityGB ← checkedSub c.totalPledgedCapacityGB pledge.capacityGB
  let totalActiveCollateral ← checkedSub c.totalActiveCollateral pledge.collateral
  return { c.setPledge provider pledgeId { pledge with active := false } with
    totalPledgedCapacityGB
    totalActiveCollateral }

def completePledge (c : CapacityPledge) (token : StorageToken) (msg : Msg) (pledgeId : Nat) :
    Tx (StorageToken × CapacityPledge × List TokenLog × List PledgeLog) := do
  let pledge := c.pledges msg.sender pledgeId
  require (pledge.active = true) "Pledge not active"
  let due ← checkedAdd pledge.startTime pledge.duration
  require (due ≤ msg.timestamp) "Pledge period not complete"
  let c ← c.retire msg.sender pledgeId
  let (token, paid) ← token.transfer this msg.sender pledge.collateral
  return (token, c, paid, [.PledgeCompleted msg.sender pledgeId pledge.collateral])

/-- Up to 20 % of the collateral, by the time that is left, but at least 1 % before the end. -/
def penaltyOf (pledge : Pledge) (remaining : Nat) : Tx Nat := do
  let scaled ← checkedMul pledge.collateral remaining
  let share ← checkedMul scaled EARLY_EXIT_PENALTY_PERCENT
  let total ← checkedMul pledge.duration 100
  let penalty ← checkedDiv share total
  let minPenalty := pledge.collateral / 100
  return if penalty < minPenalty ∧ 0 < remaining then minPenalty else penalty

/-- The penalty at the time of an exit, and what is returned. -/
def penaltyAt (pledge : Pledge) (timestamp : Nat) : Tx (Nat × Nat) := do
  let elapsed ← checkedSub timestamp pledge.startTime
  let remaining := if elapsed < pledge.duration then pledge.duration - elapsed else 0
  let penalty ← penaltyOf pledge remaining
  let returnAmount ← checkedSub pledge.collateral penalty
  return (penalty, returnAmount)

def exitPledgeEarly (c : CapacityPledge) (token : StorageToken) (msg : Msg) (pledgeId : Nat) :
    Tx (StorageToken × CapacityPledge × List TokenLog × List PledgeLog) := do
  let pledge := c.pledges msg.sender pledgeId
  require (pledge.active = true) "Pledge not active"
  let (penalty, returnAmount) ← penaltyAt pledge msg.timestamp
  let c ← c.retire msg.sender pledgeId
  let (token, burned) ←
    if 0 < penalty then token.burn ⟨this, msg.timestamp⟩ penalty else .ok (token, [])
  let (token, paid) ←
    if 0 < returnAmount then token.transfer this msg.sender returnAmount else .ok (token, [])
  return (token, c, burned ++ paid, [.PledgeExitedEarly msg.sender pledgeId penalty returnAmount])

def updateUtilization (c : CapacityPledge) (msg : Msg) (provider : Address)
    (pledgeId newUtilizationGB : Nat) : Tx (CapacityPledge × List PledgeLog) := do
  onlyOwner c.owner msg
  let pledge := c.pledges provider pledgeId
  require (pledge.active = true) "Pledge not active"
  require (newUtilizationGB ≤ pledge.capacityGB) "Utilization exceeds capacity"
  return (c.setPledge provider pledgeId { pledge with utilizationGB := newUtilizationGB },
    [.UtilizationUpdated provider pledgeId newUtilizationGB])

end Operations

def getAvailableCapacity (c : CapacityPledge) (provider : Address) (pledgeId : Nat) : Tx Nat :=
  let pledge := c.pledges provider pledgeId
  if pledge.active = false then .ok 0 else checkedSub pledge.capacityGB pledge.utilizationGB

/-! ## The contract as a state machine -/

inductive Call where
  | createPledge (capacityGB duration collateralAmount : Nat)
  | completePledge (pledgeId : Nat)
  | exitPledgeEarly (pledgeId : Nat)
  | updateUtilization (provider : Address) (pledgeId newUtilizationGB : Nat)
  | transferOwnership (newOwner : Address)
  | renounceOwnership

def step (this : Address) (c : CapacityPledge) (token : StorageToken) (msg : Msg) :
    Call → Tx (StorageToken × CapacityPledge × List TokenLog × List PledgeLog)
  | .createPledge capacityGB duration collateralAmount =>
    c.createPledge this token msg capacityGB duration collateralAmount
  | .completePledge pledgeId => c.completePledge this token msg pledgeId
  | .exitPledgeEarly pledgeId => c.exitPledgeEarly this token msg pledgeId
  | .updateUtilization provider pledgeId newUtilizationGB => do
    let (c, logs) ← c.updateUtilization msg provider pledgeId newUtilizationGB
    return (token, c, [], logs)
  | .transferOwnership newOwner => do
    let owner ← Evm.transferOwnership c.owner msg newOwner
    return (token, { c with owner }, [], [])
  | .renounceOwnership => do
    let owner ← Evm.renounceOwnership c.owner msg
    return (token, { c with owner }, [], [])

/-! ## What an early exit does -/

/-- The time a pledge has left. -/
def remainingOf (pledge : Pledge) (timestamp : Nat) : Nat := pledge.duration - (timestamp - pledge.startTime)

/-- A transfer or burn that is skipped when there is nothing to move. -/
def movedIf (amount : Nat) (token : StorageToken) (moved : Tx (StorageToken × List TokenLog)) :
    Tx (StorageToken × List TokenLog) :=
  if 0 < amount then moved else .ok (token, [])

theorem ite_bind_eq {β : Type} {amount : Nat} {token : StorageToken}
    {moved : Tx (StorageToken × List TokenLog)} {f : StorageToken × List TokenLog → Tx β} :
    (if 0 < amount then moved >>= f else (Except.ok (token, []) >>= f)) =
      (movedIf amount token moved >>= f) := by
  unfold movedIf
  split <;> rfl

theorem movedIf_ok {amount : Nat} {token token' : StorageToken} {moved : Tx (StorageToken × List TokenLog)}
    {paid : List TokenLog} (h : movedIf amount token moved = .ok (token', paid)) :
    moved = .ok (token', paid) ∨ amount = 0 ∧ token' = token := by
  unfold movedIf at h
  split at h
  · exact Or.inl h
  · next hzero =>
    obtain ⟨rfl, -⟩ := Prod.mk.inj (Except.ok.inj h)
    exact Or.inr ⟨Nat.eq_zero_of_not_pos hzero, rfl⟩

/-- An exit that goes through: the penalty is burned and the rest returned, one after the other. -/
theorem exitPledgeEarly_ok {this : Address} {c c' : CapacityPledge} {token token' : StorageToken} {msg : Msg}
    {pledgeId : Nat} {paid : List TokenLog} {logs : List PledgeLog}
    (h : c.exitPledgeEarly this token msg pledgeId = .ok (token', c', paid, logs)) :
    ∃ penalty token₁ burned returned,
      (c.pledges msg.sender pledgeId).active = true ∧
        (c.pledges msg.sender pledgeId).startTime ≤ msg.timestamp ∧
        penaltyOf (c.pledges msg.sender pledgeId)
          (remainingOf (c.pledges msg.sender pledgeId) msg.timestamp) = .ok penalty ∧
        penalty ≤ (c.pledges msg.sender pledgeId).collateral ∧
        c.retire msg.sender pledgeId = .ok c' ∧
        movedIf penalty token (token.burn ⟨this, msg.timestamp⟩ penalty) = .ok (token₁, burned) ∧
        movedIf ((c.pledges msg.sender pledgeId).collateral - penalty) token₁
          (token₁.transfer this msg.sender ((c.pledges msg.sender pledgeId).collateral - penalty)) =
            .ok (token', returned) ∧
        paid = burned ++ returned ∧
        logs = [.PledgeExitedEarly msg.sender pledgeId penalty
          ((c.pledges msg.sender pledgeId).collateral - penalty)] := by
  have hremaining : (if msg.timestamp - (c.pledges msg.sender pledgeId).startTime <
      (c.pledges msg.sender pledgeId).duration then (c.pledges msg.sender pledgeId).duration -
        (msg.timestamp - (c.pledges msg.sender pledgeId).startTime) else 0) =
      remainingOf (c.pledges msg.sender pledgeId) msg.timestamp := by
    unfold remainingOf
    split <;> omega
  simp only [exitPledgeEarly, penaltyAt, ite_bind_eq, bind_eq_ok, require_eq_ok, checkedSub_eq_ok, pure_eq_ok,
    Prod.exists, Prod.mk.injEq, exists_const] at h
  obtain ⟨hactive, penalty, _, ⟨_, ⟨hstarted, rfl⟩, _, hpenalty, _, ⟨hle, rfl⟩, rfl, rfl⟩, c₁, hretire, token₁, burned,
    hburn, token₂, returned, hpay, rfl, rfl, rfl, rfl⟩ := h
  rw [hremaining] at hpenalty
  exact ⟨penalty, token₁, burned, returned, hactive, hstarted, hpenalty, hle, hretire, hburn, hpay, rfl, rfl⟩

end CapacityPledge

end Kyneto
