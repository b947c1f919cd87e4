import Kyneto.PaymentDistributor.Basic

/-!
# `SlashingManager`: state and operations

The contract that punishes providers. A slashing burns tokens from the provider's account, is put on record with a
deadline for an appeal, and is reported to the registry, except for an early exit. An appeal that the owner grants
mints the tokens again.

The manager calls the token and the registry, so its operations act on the whole deployment (`Protocol`), which is
the network together with the manager. `Protocol.deployV2` is the state in which the deployment script leaves it.
-/

namespace Kyneto

open Evm

/-- 1 % of the collateral for a missed proof, in basis points. -/
def MISSED_POST_PENALTY_RATE : Nat := 100

def MAX_CONSECUTIVE_MISSES : Nat := 5
def REPEAT_WINDOW : Nat := 30 * DAY

/-- 48 hours: how long a slashing can be appealed, and how far apart consecutive misses may be. -/
def APPEAL_WINDOW : Nat := 48 * 3600
def MISS_WINDOW : Nat := 48 * 3600

structure SlashingRecord where
  timestamp : Nat := 0
  amount : Nat := 0
  reason : String := ""
  appealed : Bool := false
  resolved : Bool := false
  deriving DecidableEq, Repr

structure ProviderPenaltyState where
  consecutiveMissedPosts : Nat := 0
  lastMissedPostTime : Nat := 0
  totalSlashed : Nat := 0
  lastSlashTime : Nat := 0
  slashCountInWindow : Nat := 0
  deriving DecidableEq, Repr

structure SlashingManager where
  owner : Address
  penaltyStates : Address → ProviderPenaltyState := fun _ => {}
  slashingHistory : Address → List SlashingRecord := fun _ => []
  appealDeadlines : Address → Nat → Nat := fun _ _ => 0

inductive SlashingLog where
  | ProviderSlashed (provider : Address) (amount : Nat) (reason : String)
  | AppealSubmitted (provider : Address) (slashingIndex : Nat) (evidence : String)
  | AppealResolved (provider : Address) (slashingIndex : Nat) (upheld : Bool)
  | ProviderDeregistered (provider : Address) (reason : String)
  deriving DecidableEq, Repr

namespace SlashingManager

def deploy (msg : Msg) : SlashingManager where
  owner := msg.sender

def setState (m : SlashingManager) (provider : Address) (state : ProviderPenaltyState) : SlashingManager :=
  { m with penaltyStates := Function.update m.penaltyStates provider state }

def setHistory (m : SlashingManager) (provider : Address) (records : List SlashingRecord) : SlashingManager :=
  { m with slashingHistory := Function.update m.slashingHistory provider records }

/-- A record of the history; past its end the zero value, which is never read. -/
def recordAt (m : SlashingManager) (provider : Address) (i : Nat) : SlashingRecord :=
  (m.slashingHistory provider).getD i {}

/-- `count++` if the last event is at most `window` ago, else the count starts again at 1. -/
def countWithin (window elapsed count : Nat) : Tx Nat :=
  if elapsed ≤ window then checkedAdd count 1 else .ok 1

/-- Misses at most 48 hours apart are consecutive. -/
def countMiss (m : SlashingManager) (now : Nat) (provider : Address) : Tx SlashingManager := do
  let state := m.penaltyStates provider
  let sinceMiss ← checkedSub now state.lastMissedPostTime
  let misses ← countWithin MISS_WINDOW sinceMiss state.consecutiveMissedPosts
  return m.setState provider { state with consecutiveMissedPosts := misses, lastMissedPostTime := now }

/-- Twice, four and eight times the penalty for repeats within 30 days. The power is taken before it is capped. -/
def calculateRepeatMultiplier (m : SlashingManager) (now : Nat) (provider : Address) : Tx Nat := do
  let state := m.penaltyStates provider
  let sinceSlash ← checkedSub now state.lastSlashTime
  if REPEAT_WINDOW < sinceSlash then
    return 1
  else
    let multiplier ← checkedPow 2 state.slashCountInWindow
    return if 8 < multiplier then 8 else multiplier

/-- The books of `_applySlashing`: totals, the repeat window, the record and its deadline. -/
def enter (m : SlashingManager) (now : Nat) (provider : Address) (amount : Nat) (reason : String) :
    Tx SlashingManager := do
  let state := m.penaltyStates provider
  let totalSlashed ← checkedAdd state.totalSlashed amount
  let sinceSlash ← checkedSub now state.lastSlashTime
  let slashCountInWindow ← countWithin REPEAT_WINDOW sinceSlash state.slashCountInWindow
  let recordIndex := (m.slashingHistory provider).length
  let record : SlashingRecord := { timestamp := now, amount, reason, appealed := false, resolved := false }
  let deadline ← checkedAdd now APPEAL_WINDOW
  let m := m.setState provider { state with totalSlashed, slashCountInWindow, lastSlashTime := now }
  let m := m.setHistory provider (m.slashingHistory provider ++ [record])
  return { m with
    appealDeadlines := Function.update m.appealDeadlines provider
      (Function.update (m.appealDeadlines provider) recordIndex deadline) }

def submitAppeal (m : SlashingManager) (msg : Msg) (slashingIndex : Nat) (evidence : String) :
    Tx (SlashingManager × List SlashingLog) := do
  require (slashingIndex < (m.slashingHistory msg.sender).length) "Invalid index"
  let record := m.recordAt msg.sender slashingIndex
  require (record.appealed = false) "Already appealed"
  require (record.resolved = false) "Already resolved"
  require (msg.timestamp ≤ m.appealDeadlines msg.sender slashingIndex) "Appeal window closed"
  let records := (m.slashingHistory msg.sender).set slashingIndex { record with appealed := true }
  return (m.setHistory msg.sender records, [.AppealSubmitted msg.sender slashingIndex evidence])

end SlashingManager

/-! ## The deployment -/

/-- The network and the manager. -/
structure Protocol extends Network where
  slashing : SlashingManager

inductive ProtocolLog where
  | network (l : NetworkLog)
  | slashing (l : SlashingLog)
  deriving DecidableEq, Repr

/-- Where the contracts are deployed, the manager included. -/
structure ProtocolSites extends Sites where
  slashing : Address
  slashing_ne_zero : slashing ≠ 0
  slashing_ne_marketplace : slashing ≠ marketplace
  slashing_ne_pledges : slashing ≠ pledges
  slashing_ne_distributor : slashing ≠ distributor

namespace ProtocolLog

def ofToken (l : TokenLog) : ProtocolLog := .network (.base (.token l))
def ofRegistry (l : RegistryLog) : ProtocolLog := .network (.base (.registry l))

end ProtocolLog

namespace Protocol

variable (sites : ProtocolSites)

/-- How the manager appears to the contracts it calls. -/
def manager (timestamp : Nat) : Msg := ⟨sites.slashing, timestamp⟩

def applySlashing (n : Protocol) (msg : Msg) (provider : Address) (amount : Nat) (reason : String) :
    Tx (Protocol × List ProtocolLog) := do
  let (token, burned) ← n.token.burnFrom (manager sites msg.timestamp) provider amount
  let slashing ← n.slashing.enter msg.timestamp provider amount reason
  return ({ n with token, slashing },
    burned.map .ofToken ++ [.slashing (.ProviderSlashed provider amount reason)])

/-- `_deregisterProvider` emits the event and leaves the rest to the registry. -/
def deregistered (slashing : SlashingManager) (provider : Address) : List ProtocolLog :=
  if MAX_CONSECUTIVE_MISSES ≤ (slashing.penaltyStates provider).consecutiveMissedPosts then
    [.slashing (.ProviderDeregistered provider "Exceeded maximum consecutive missed proofs")]
  else []

def slashMissedPost (n : Protocol) (msg : Msg) (provider : Address) (collateral : Nat) :
    Tx (Protocol × List ProtocolLog) := do
  onlyOwner n.slashing.owner msg
  let slashing ← n.slashing.countMiss msg.timestamp provider
  let scaled ← checkedMul collateral MISSED_POST_PENALTY_RATE
  let multiplier ← slashing.calculateRepeatMultiplier msg.timestamp provider
  let penalty ← checkedMul (scaled / 10000) multiplier
  let (n, logs) ← { n with slashing }.applySlashing sites msg provider penalty "Missed PoSt proof"
  let (registry, more) ← n.registry.recordSlashing (manager sites msg.timestamp) provider
  return ({ n with registry }, logs ++ deregistered n.slashing provider ++ more.map .ofRegistry)

def slashDataLoss (n : Protocol) (msg : Msg) (provider : Address) (dealCollateral : Nat) :
    Tx (Protocol × List ProtocolLog) := do
  onlyOwner n.slashing.owner msg
  let (n, logs) ← n.applySlashing sites msg provider dealCollateral "Data loss"
  let (registry, lowered) ←
    n.registry.decreaseReputation (manager sites msg.timestamp) provider 50 "Data loss"
  let (registry, recorded) ← registry.recordSlashing (manager sites msg.timestamp) provider
  return ({ n with registry }, logs ++ lowered.map .ofRegistry ++ recorded.map .ofRegistry)

/-- The one slashing that the registry does not hear of. -/
def slashEarlyExit (n : Protocol) (msg : Msg) (provider : Address) (penaltyAmount : Nat) :
    Tx (Protocol × List ProtocolLog) := do
  onlyOwner n.slashing.owner msg
  n.applySlashing sites msg provider penaltyAmount "Early pledge exit"

def resolveAppeal (n : Protocol) (msg : Msg) (provider : Address) (slashingIndex : Nat) (upheld : Bool) :
    Tx (Protocol × List ProtocolLog) := do
  onlyOwner n.slashing.owner msg
  require (slashingIndex < (n.slashing.slashingHistory provider).length) "Invalid index"
  let record := n.slashing.recordAt provider slashingIndex
  require (record.appealed = true) "Not appealed"
  require (record.resolved = false) "Already resolved"
  let records := (n.slashing.slashingHistory provider).set slashingIndex { record with resolved := true }
  let n := { n with slashing := n.slashing.setHistory provider records }
  let resolved := [ProtocolLog.slashing (.AppealResolved provider slashingIndex upheld)]
  if upheld = false then
    -- the appeal is granted: the tokens are minted again
    let (token, minted) ← n.token.mint (manager sites msg.timestamp) provider record.amount
    let (registry, raised) ←
      n.registry.increaseReputation (manager sites msg.timestamp) provider 10 "Appeal upheld"
    return ({ n with token, registry }, minted.map .ofToken ++ raised.map .ofRegistry ++ resolved)
  else
    return (n, resolved)

end Protocol

/-! ## The deployment as a state machine -/

inductive SlashingManager.Call where
  | slashMissedPost (provider : Address) (collateral : Nat)
  | slashDataLoss (provider : Address) (dealCollateral : Nat)
  | slashEarlyExit (provider : Address) (penaltyAmount : Nat)
  | submitAppeal (slashingIndex : Nat) (evidence : String)
  | resolveAppeal (provider : Address) (slashingIndex : Nat) (upheld : Bool)
  | transferOwnership (newOwner : Address)
  | renounceOwnership

inductive ProtocolCall where
  | network (c : NetworkCall)
  | slashing (c : SlashingManager.Call)

/-- A transaction from outside: none of the contracts sends any. -/
structure ProtocolAction (sites : ProtocolSites) where
  msg : Msg
  call : ProtocolCall
  sender_ne_zero : msg.sender ≠ 0
  sender_ne_marketplace : msg.sender ≠ sites.marketplace
  sender_ne_pledges : msg.sender ≠ sites.pledges
  sender_ne_distributor : msg.sender ≠ sites.distributor
  sender_ne_slashing : msg.sender ≠ sites.slashing

def ProtocolAction.time {sites : ProtocolSites} (a : ProtocolAction sites) : Nat := a.msg.timestamp

/-- The transaction as one of the network. -/
def ProtocolAction.toNetwork {sites : ProtocolSites} (a : ProtocolAction sites) (c : NetworkCall) :
    NetworkAction sites.toSites where
  msg := a.msg
  call := c
  sender_ne_zero := a.sender_ne_zero
  sender_ne_marketplace := a.sender_ne_marketplace
  sender_ne_pledges := a.sender_ne_pledges
  sender_ne_distributor := a.sender_ne_distributor

namespace Protocol

variable (sites : ProtocolSites)

def slashingStep (n : Protocol) (msg : Msg) : SlashingManager.Call → Tx (Protocol × List ProtocolLog)
  | .slashMissedPost provider collateral => n.slashMissedPost sites msg provider collateral
  | .slashDataLoss provider dealCollateral => n.slashDataLoss sites msg provider dealCollateral
  | .slashEarlyExit provider penaltyAmount => n.slashEarlyExit sites msg provider penaltyAmount
  | .submitAppeal slashingIndex evidence => do
    let (slashing, logs) ← n.slashing.submitAppeal msg slashingIndex evidence
    return ({ n with slashing }, logs.map .slashing)
  | .resolveAppeal provider slashingIndex upheld => n.resolveAppeal sites msg provider slashingIndex upheld
  | .transferOwnership newOwner => do
    let owner ← Evm.transferOwnership n.slashing.owner msg newOwner
    return ({ n with slashing := { n.slashing with owner } }, [])
  | .renounceOwnership => do
    let owner ← Evm.renounceOwnership n.slashing.owner msg
    return ({ n with slashing := { n.slashing with owner } }, [])

def step (n : Protocol) (a : ProtocolAction sites) : Tx (Protocol × List ProtocolLog) :=
  match a.call with
  | .network c => do
    let (network, logs) ← n.toNetwork.step sites.toSites (a.toNetwork c)
    return ({ n with toNetwork := network }, logs.map .network)
  | .slashing c => n.slashingStep sites a.msg c

/-- The deployment script, with the manager it deploys. -/
def deployV2 (msg : Msg) : Tx Protocol := do
  let network ← Network.deployV2 sites.toSites msg sites.slashing
  return { network with slashing := .deploy msg }

end Protocol

/-! ## A small deployment -/

namespace SmallProtocol

def sites : ProtocolSites where
  toSites := SmallNetwork.sites
  slashing := 103
  slashing_ne_zero := by decide
  slashing_ne_marketplace := by decide
  slashing_ne_pledges := by decide
  slashing_ne_distributor := by decide

theorem account_ne_slashing (i : Fin 99) : BitVec.ofNat 160 (i + 1) ≠ sites.slashing := by
  revert i
  decide

/-- A call by the account with address `i + 1`. -/
def account (i : Fin 99) (timestamp : Nat) (call : ProtocolCall) : ProtocolAction sites where
  msg := ⟨BitVec.ofNat 160 (i + 1), timestamp⟩
  call := call
  sender_ne_zero := account_ne_zero i
  sender_ne_marketplace := SmallNetwork.account_ne_marketplace i
  sender_ne_pledges := SmallNetwork.account_ne_pledges i
  sender_ne_distributor := SmallNetwork.account_ne_distributor i
  sender_ne_slashing := account_ne_slashing i

/-- The deployment by account 1, at time 0. -/
def deployed : Protocol := resultOf (Protocol.deployV2 sites ⟨1, 0⟩) (by decide)

theorem deployV2_eq : Protocol.deployV2 sites ⟨1, 0⟩ = .ok deployed := eq_resultOf (by decide)

/-- Account 2 registers as a provider, and account 1 sends it tokens. -/
def joined (amount : Nat) : List (ProtocolAction sites) :=
  [account 1 0 (.network (.base (.registry (.registerProvider "peer" "ep" "na" 5000)))),
    account 0 0 (.network (.base (.token (.transfer 2 amount))))]

end SmallProtocol

end Kyneto
