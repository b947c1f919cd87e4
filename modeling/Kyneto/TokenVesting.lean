import Kyneto.Evm.Run
import Kyneto.StorageToken

/-!
# `TokenVesting`

A contract that holds tokens and releases them to beneficiaries, in proportion to the time since the start and not
before a cliff. The owner creates schedules and can revoke them.

An operation acts on the token and the schedules together; `this` is the contract's own address. `transfer` of the token
calls nobody back, so the guard against reentrancy has nothing to do.
-/

namespace Kyneto

open Evm

structure VestingSchedule where
  beneficiary : Address := 0
  start : Nat := 0
  cliff : Nat := 0
  duration : Nat := 0
  totalAmount : Nat := 0
  releasedAmount : Nat := 0
  revoked : Bool := false
  deriving DecidableEq, Repr

structure TokenVesting where
  owner : Address
  vestingSchedules : Address → VestingSchedule := fun _ => {}
  beneficiaries : List Address := []

inductive VestingLog where
  | VestingScheduleCreated (beneficiary : Address) (amount start cliff duration : Nat)
  | TokensReleased (beneficiary : Address) (amount : Nat)
  | VestingScheduleRevoked (beneficiary : Address)
  deriving DecidableEq, Repr

namespace TokenVesting

def deploy (msg : Msg) : TokenVesting where
  owner := msg.sender

/-- Write one schedule. -/
def setSchedule (v : TokenVesting) (beneficiary : Address) (schedule : VestingSchedule) : TokenVesting :=
  { v with vestingSchedules := Function.update v.vestingSchedules beneficiary schedule }

/-- The cliff is given as a duration and kept as a time. -/
def createVestingSchedule (v : TokenVesting) (msg : Msg) (beneficiary : Address) (start cliff duration amount : Nat) :
    Tx (TokenVesting × List VestingLog) := do
  onlyOwner v.owner msg
  require (beneficiary ≠ 0) "TokenVesting: beneficiary is the zero address"
  require (0 < amount) "TokenVesting: amount must be greater than 0"
  require ((v.vestingSchedules beneficiary).totalAmount = 0) "TokenVesting: schedule already exists"
  let cliffTimestamp ← checkedAdd start cliff
  let schedule : VestingSchedule :=
    { beneficiary, start, cliff := cliffTimestamp, duration, totalAmount := amount, releasedAmount := 0,
      revoked := false }
  return ({ v.setSchedule beneficiary schedule with beneficiaries := v.beneficiaries ++ [beneficiary] },
    [.VestingScheduleCreated beneficiary amount start cliffTimestamp duration])

/-- Nothing before the cliff, everything from the end on, and a share by time in between. -/
def calculateVestedAmount (schedule : VestingSchedule) (timestamp : Nat) : Tx Nat :=
  if timestamp < schedule.cliff then .ok 0
  else do
    let finish ← checkedAdd schedule.start schedule.duration
    if finish ≤ timestamp then return schedule.totalAmount
    else
      let elapsed ← checkedSub timestamp schedule.start
      let scaled ← checkedMul schedule.totalAmount elapsed
      checkedDiv scaled schedule.duration

def getReleasableAmount (v : TokenVesting) (timestamp : Nat) (beneficiary : Address) : Tx Nat :=
  let schedule := v.vestingSchedules beneficiary
  if schedule.totalAmount = 0 ∨ schedule.revoked = true then .ok 0
  else do
    let vestedAmount ← calculateVestedAmount schedule timestamp
    checkedSub vestedAmount schedule.releasedAmount

section Operations

variable (this : Address)

def release (v : TokenVesting) (token : StorageToken) (msg : Msg) :
    Tx (StorageToken × TokenVesting × List TokenLog × List VestingLog) := do
  let schedule := v.vestingSchedules msg.sender
  require (0 < schedule.totalAmount) "TokenVesting: no vesting schedule found"
  require (schedule.revoked = false) "TokenVesting: vesting schedule revoked"
  let vestedAmount ← calculateVestedAmount schedule msg.timestamp
  let releasableAmount ← checkedSub vestedAmount schedule.releasedAmount
  require (0 < releasableAmount) "TokenVesting: no tokens releasable"
  let releasedAmount ← checkedAdd schedule.releasedAmount releasableAmount
  let (token, paid) ← token.transfer this schedule.beneficiary releasableAmount
  return (token, v.setSchedule msg.sender { schedule with releasedAmount }, paid,
    [.TokensReleased schedule.beneficiary releasableAmount])

def revoke (v : TokenVesting) (token : StorageToken) (msg : Msg) (beneficiary : Address) :
    Tx (StorageToken × TokenVesting × List TokenLog × List VestingLog) := do
  onlyOwner v.owner msg
  let schedule := v.vestingSchedules beneficiary
  require (0 < schedule.totalAmount) "TokenVesting: no vesting schedule found"
  require (schedule.revoked = false) "TokenVesting: vesting schedule already revoked"
  let v := v.setSchedule beneficiary { schedule with revoked := true }
  let unvestedAmount ← checkedSub schedule.totalAmount schedule.releasedAmount
  let (token, paid) ←
    (if 0 < unvestedAmount then token.transfer this v.owner unvestedAmount else .ok (token, []) :
      Tx (StorageToken × List TokenLog))
  return (token, v, paid, [.VestingScheduleRevoked beneficiary])

end Operations

/-! ## The contract as a state machine -/

inductive Call where
  | createVestingSchedule (beneficiary : Address) (start cliff duration amount : Nat)
  | release
  | revoke (beneficiary : Address)
  | transferOwnership (newOwner : Address)
  | renounceOwnership

def step (this : Address) (v : TokenVesting) (token : StorageToken) (msg : Msg) :
    Call → Tx (StorageToken × TokenVesting × List TokenLog × List VestingLog)
  | .createVestingSchedule beneficiary start cliff duration amount => do
    let (v, logs) ← v.createVestingSchedule msg beneficiary start cliff duration amount
    return (token, v, [], logs)
  | .release => v.release this token msg
  | .revoke beneficiary => v.revoke this token msg beneficiary
  | .transferOwnership newOwner => do
    let owner ← Evm.transferOwnership v.owner msg newOwner
    return (token, { v with owner }, [], [])
  | .renounceOwnership => do
    let owner ← Evm.renounceOwnership v.owner msg
    return (token, { v with owner }, [], [])

end TokenVesting

/-! ## The contract and its token -/

structure VestingSystem where
  token : StorageToken
  vesting : TokenVesting

inductive VestingEvent where
  | token (l : TokenLog)
  | vesting (l : VestingLog)
  deriving DecidableEq, Repr

inductive VestingSystemCall where
  | token (c : StorageToken.Call)
  | vesting (c : TokenVesting.Call)

/-- A transaction from outside the contract. -/
structure VestingAction (this : Address) where
  msg : Msg
  call : VestingSystemCall
  sender_ne_zero : msg.sender ≠ 0
  sender_ne_this : msg.sender ≠ this

def VestingAction.time {this : Address} (a : VestingAction this) : Nat := a.msg.timestamp

abbrev VestingEntry (this : Address) := Entry VestingSystem (VestingAction this) VestingEvent

def VestingSystem.step (this : Address) (s : VestingSystem) (a : VestingAction this) :
    Tx (VestingSystem × List VestingEvent) :=
  match a.call with
  | .token c => do
    let (token, logs) ← s.token.step a.msg c
    return ({ s with token }, logs.map .token)
  | .vesting c => do
    let (token, vesting, paid, logs) ← s.vesting.step this s.token a.msg c
    return ({ token, vesting }, paid.map .token ++ logs.map .vesting)

end Kyneto
