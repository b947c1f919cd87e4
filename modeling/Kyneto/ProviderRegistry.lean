import Kyneto.Evm.Basic

/-!
# `ProviderRegistry`

Registration, reputation and cool-down of storage providers. The marketplace reads
`isProviderActive` and reports finished and failed deals; the slashing manager reports slashings.
Both are record keepers the owner authorised, and every reputation change goes through
`increaseReputation` or `decreaseReputation`, which check the caller again.
-/

namespace Kyneto

open Evm

def INITIAL_REPUTATION : Nat := 50
def MAX_REPUTATION : Nat := 100
def MIN_REPUTATION : Nat := 0

/-- Seven days. -/
def COOLDOWN_PERIOD : Nat := 7 * 86400

structure Provider where
  registered : Bool := false
  registrationTime : Nat := 0
  totalCapacityGB : Nat := 0
  reputationScore : Nat := 0
  peerId : String := ""
  endpoint : String := ""
  region : String := ""
  totalDealsCompleted : Nat := 0
  totalDealsFailed : Nat := 0
  totalSlashingEvents : Nat := 0
  active : Bool := false
  deactivatedUntil : Nat := 0
  minPriceUSD : Nat := 0
  deriving DecidableEq, Repr

structure ProviderRegistry where
  owner : Address
  providers : Address → Provider := fun _ => {}
  providerList : List Address := []
  authorizedRecordKeepers : Address → Bool := fun _ => false

inductive RegistryLog where
  | ProviderRegistered (provider : Address) (peerId region : String)
  | ProviderUpdated (provider : Address)
  | ReputationUpdated (provider : Address) (newScore : Nat) (reason : String)
  | ProviderDeactivated (provider : Address) (reactivateTime : Nat)
  | ProviderReactivated (provider : Address)
  deriving DecidableEq, Repr

namespace ProviderRegistry

def deploy (msg : Msg) : ProviderRegistry where
  owner := msg.sender

/-- Write one provider's record. -/
def set (r : ProviderRegistry) (provider : Address) (p : Provider) : ProviderRegistry :=
  { r with providers := Function.update r.providers provider p }

def isProviderActive (r : ProviderRegistry) (provider : Address) : Bool :=
  (r.providers provider).registered && (r.providers provider).active

/-! ## Providers -/

def registerProvider (r : ProviderRegistry) (msg : Msg) (peerId endpoint region : String)
    (minPriceUSD : Nat) : Tx (ProviderRegistry × List RegistryLog) := do
  require ((r.providers msg.sender).registered = false) "Already registered"
  require (peerId ≠ "") "Invalid peer ID"
  let p : Provider :=
    { registered := true, registrationTime := msg.timestamp, totalCapacityGB := 0
      reputationScore := INITIAL_REPUTATION, peerId, endpoint, region
      totalDealsCompleted := 0, totalDealsFailed := 0, totalSlashingEvents := 0
      active := true, deactivatedUntil := 0, minPriceUSD }
  return ({ r.set msg.sender p with providerList := r.providerList ++ [msg.sender] },
    [.ProviderRegistered msg.sender peerId region])

def updateProvider (r : ProviderRegistry) (msg : Msg) (endpoint region : String)
    (minPriceUSD : Nat) : Tx (ProviderRegistry × List RegistryLog) := do
  require ((r.providers msg.sender).registered = true) "Not registered"
  let p := r.providers msg.sender
  return (r.set msg.sender { p with endpoint, region, minPriceUSD }, [.ProviderUpdated msg.sender])

def reactivateProvider (r : ProviderRegistry) (msg : Msg) :
    Tx (ProviderRegistry × List RegistryLog) := do
  let p := r.providers msg.sender
  require (p.registered = true) "Not registered"
  require (p.active = false) "Already active"
  require (p.deactivatedUntil ≤ msg.timestamp) "Cooldown not complete"
  let p := { p with active := true, reputationScore := INITIAL_REPUTATION, totalSlashingEvents := 0 }
  return (r.set msg.sender p, [.ProviderReactivated msg.sender])

/-! ## Record keepers -/

def onlyAuthorizedKeeper (r : ProviderRegistry) (msg : Msg) : Tx Unit :=
  require (msg.sender = r.owner ∨ r.authorizedRecordKeepers msg.sender = true) "Not authorized"

def updateCapacity (r : ProviderRegistry) (msg : Msg) (provider : Address)
    (newTotalCapacityGB : Nat) : Tx (ProviderRegistry × List RegistryLog) := do
  onlyOwner r.owner msg
  require ((r.providers provider).registered = true) "Provider not registered"
  return (r.set provider { r.providers provider with totalCapacityGB := newTotalCapacityGB }, [])

/-- Put a provider into the cool-down period. -/
def deactivateProvider (r : ProviderRegistry) (msg : Msg) (provider : Address) :
    Tx (ProviderRegistry × List RegistryLog) := do
  let until_ ← checkedAdd msg.timestamp COOLDOWN_PERIOD
  let p := { r.providers provider with active := false, deactivatedUntil := until_ }
  return (r.set provider p, [.ProviderDeactivated provider until_])

def increaseReputation (r : ProviderRegistry) (msg : Msg) (provider : Address) (amount : Nat)
    (reason : String) : Tx (ProviderRegistry × List RegistryLog) := do
  r.onlyAuthorizedKeeper msg
  require ((r.providers provider).registered = true) "Provider not registered"
  let newScore ← checkedAdd (r.providers provider).reputationScore amount
  let newScore := if MAX_REPUTATION < newScore then MAX_REPUTATION else newScore
  return (r.set provider { r.providers provider with reputationScore := newScore },
    [.ReputationUpdated provider newScore reason])

def decreaseReputation (r : ProviderRegistry) (msg : Msg) (provider : Address) (amount : Nat)
    (reason : String) : Tx (ProviderRegistry × List RegistryLog) := do
  r.onlyAuthorizedKeeper msg
  require ((r.providers provider).registered = true) "Provider not registered"
  let currentScore := (r.providers provider).reputationScore
  let newScore := if amount < currentScore then currentScore - amount else MIN_REPUTATION
  let r := r.set provider { r.providers provider with reputationScore := newScore }
  let updated := [RegistryLog.ReputationUpdated provider newScore reason]
  -- below 20 the provider is deactivated at once
  if newScore < 20 then
    let (r, logs) ← r.deactivateProvider msg provider
    return (r, updated ++ logs)
  else
    return (r, updated)

def recordDealCompleted (r : ProviderRegistry) (msg : Msg) (provider : Address) :
    Tx (ProviderRegistry × List RegistryLog) := do
  r.onlyAuthorizedKeeper msg
  require ((r.providers provider).registered = true) "Provider not registered"
  let completed ← checkedAdd (r.providers provider).totalDealsCompleted 1
  let r := r.set provider { r.providers provider with totalDealsCompleted := completed }
  r.increaseReputation msg provider 1 "Successful deal completion"

def recordDealFailed (r : ProviderRegistry) (msg : Msg) (provider : Address) :
    Tx (ProviderRegistry × List RegistryLog) := do
  r.onlyAuthorizedKeeper msg
  require ((r.providers provider).registered = true) "Provider not registered"
  let failed ← checkedAdd (r.providers provider).totalDealsFailed 1
  let r := r.set provider { r.providers provider with totalDealsFailed := failed }
  r.decreaseReputation msg provider 5 "Failed deal"

def recordSlashing (r : ProviderRegistry) (msg : Msg) (provider : Address) :
    Tx (ProviderRegistry × List RegistryLog) := do
  r.onlyAuthorizedKeeper msg
  require ((r.providers provider).registered = true) "Provider not registered"
  let slashings ← checkedAdd (r.providers provider).totalSlashingEvents 1
  let r := r.set provider { r.providers provider with totalSlashingEvents := slashings }
  let (r, logs) ← r.decreaseReputation msg provider 20 "Slashing event"
  if 5 ≤ (r.providers provider).totalSlashingEvents then
    let (r, more) ← r.deactivateProvider msg provider
    return (r, logs ++ more)
  else
    return (r, logs)

def setRecordKeeper (r : ProviderRegistry) (msg : Msg) (keeper : Address) (allowed : Bool) :
    Tx (ProviderRegistry × List RegistryLog) := do
  onlyOwner r.owner msg
  let keepers := Function.update r.authorizedRecordKeepers keeper allowed
  return ({ r with authorizedRecordKeepers := keepers }, [])

def authorizeRecordKeeper (r : ProviderRegistry) (msg : Msg) (keeper : Address) :=
  r.setRecordKeeper msg keeper true

def revokeRecordKeeper (r : ProviderRegistry) (msg : Msg) (keeper : Address) :=
  r.setRecordKeeper msg keeper false

/-! ## The contract as a state machine -/

inductive Call where
  | registerProvider (peerId endpoint region : String) (minPriceUSD : Nat)
  | updateProvider (endpoint region : String) (minPriceUSD : Nat)
  | updateCapacity (provider : Address) (newTotalCapacityGB : Nat)
  | increaseReputation (provider : Address) (amount : Nat) (reason : String)
  | decreaseReputation (provider : Address) (amount : Nat) (reason : String)
  | authorizeRecordKeeper (keeper : Address)
  | revokeRecordKeeper (keeper : Address)
  | recordDealCompleted (provider : Address)
  | recordDealFailed (provider : Address)
  | recordSlashing (provider : Address)
  | reactivateProvider
  | transferOwnership (newOwner : Address)
  | renounceOwnership

def step (r : ProviderRegistry) (msg : Msg) : Call → Tx (ProviderRegistry × List RegistryLog)
  | .registerProvider peerId endpoint region price =>
    r.registerProvider msg peerId endpoint region price
  | .updateProvider endpoint region price => r.updateProvider msg endpoint region price
  | .updateCapacity provider capacity => r.updateCapacity msg provider capacity
  | .increaseReputation provider amount reason => r.increaseReputation msg provider amount reason
  | .decreaseReputation provider amount reason => r.decreaseReputation msg provider amount reason
  | .authorizeRecordKeeper keeper => r.authorizeRecordKeeper msg keeper
  | .revokeRecordKeeper keeper => r.revokeRecordKeeper msg keeper
  | .recordDealCompleted provider => r.recordDealCompleted msg provider
  | .recordDealFailed provider => r.recordDealFailed msg provider
  | .recordSlashing provider => r.recordSlashing msg provider
  | .reactivateProvider => r.reactivateProvider msg
  | .transferOwnership newOwner => do
    let owner ← Evm.transferOwnership r.owner msg newOwner
    return ({ r with owner }, [])
  | .renounceOwnership => do
    let owner ← Evm.renounceOwnership r.owner msg
    return ({ r with owner }, [])

end ProviderRegistry

end Kyneto
