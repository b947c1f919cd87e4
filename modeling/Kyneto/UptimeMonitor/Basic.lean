import Kyneto.HealthMonitor.Basic
import Kyneto.SlashingManager.Basic

/-!
# The uptime monitor

Every five minutes a pass of `runCheck` selects the active providers whose last heartbeat is more than 24 hours old,
and goes through them: it sends a transaction that slashes the provider, waits until it is mined, and sets the provider
inactive. A pass that takes longer runs beside the next one.

A pass is cut at its statements and at its waits. A transaction is mined, or is never mined, at any time after it was
sent. Each statement can fail, a wait as well, and the sending of a transaction can end in an error although the
transaction is on its way.

The amounts of the pledges are whole numbers, as `BigInt` takes them.
-/

namespace Kyneto

open Evm Sql

/-- 24 hours. -/
def OFFLINE_THRESHOLD_MINUTES : Nat := 24 * 60

/-- A row of `capacity_pledges`. -/
structure CollateralRow where
  providerAddress : String
  collateral : Nat
  active : Bool := true
  deriving DecidableEq, Repr

/-- A row of the query of a pass. -/
structure OfflineProvider where
  address : String
  totalCollateral : Nat
  deriving DecidableEq, Repr

inductive TxStatus where
  | pending | executed | failed
  deriving DecidableEq, Repr

/-- A transaction that calls `slashMissedPost`. -/
structure SlashTx where
  provider : Address
  collateral : Nat
  status : TxStatus := .pending
  deriving DecidableEq, Repr

inductive SlashPhase where
  | waiting (txId : Nat)
  | updating
  deriving DecidableEq, Repr

inductive CheckPass where
  | selecting
  | slashing (todo : List OfflineProvider) (current : Option (String × SlashPhase))
  | finished
  deriving DecidableEq, Repr

/-- How ethers reads an address, where the contracts are, and the account of the monitor. -/
structure UptimeEnv where
  parseAddress : String → Option Address
  sites : ProtocolSites
  worker : Address

structure UptimeMonitor where
  db : Database
  pledges : List CollateralRow
  chain : Protocol
  txs : List SlashTx := []
  passes : List CheckPass := []

inductive UptimeLog where
  | heartbeat (address : String)
  | slashed (provider : Address)
  deriving DecidableEq, Repr

inductive UptimeEvent where
  | posts (providerAddress : String)      -- `POST /api/heartbeat`, after the signature is checked
  | starts                                -- a pass
  | runs (i : Nat)                        -- its next statement, or the end of its wait
  | fails (i : Nat)                       -- the same, with an error
  | sendsUnseen (i : Nat)                 -- it sends the transaction, and gets an error
  | mines (txId : Nat)
  | drops (txId : Nat)                    -- the transaction is never mined
  | othersAct (db : Database) (pledges : List CollateralRow) (chain : Protocol)

/-- An event, with its time in milliseconds. -/
structure UptimeAction where
  now : Nat
  event : UptimeEvent

/-- The collateral of the active pledges of a provider. -/
def totalCollateral (pledges : List CollateralRow) (address : String) : Nat :=
  ((pledges.filter fun c => c.providerAddress = address ∧ c.active = true).map CollateralRow.collateral).sum

/-- The query of a pass. -/
def offlineProviders (now : Nat) (db : Database) (pledges : List CollateralRow) : List OfflineProvider :=
  let rows := db.providers.filter fun p =>
    p.active = true ∧ p.lastHeartbeat.any (· + OFFLINE_THRESHOLD_MINUTES * 60 * 1000 < now) = true
  (rows.map ProviderRow.address).dedup.map fun address =>
    { address, totalCollateral := totalCollateral pledges address }

/-- `UPDATE providers SET active = false WHERE address = $1` -/
def deactivateProvider (address : String) (db : Database) : Database :=
  { db with providers := update (fun p => p.address = address) (fun p => { p with active := false }) db.providers }

/-- What others do to the rows of `providers`: rows are added, none is deleted, and none is set active or inactive. -/
def KeepsActive (db db' : Database) : Prop :=
  (∀ p ∈ db.providers, ∃ p' ∈ db'.providers, p'.address = p.address) ∧
    ∀ p' ∈ db'.providers, ∀ p ∈ db.providers, p'.address = p.address → p'.active = p.active

instance (db db' : Database) : Decidable (KeepsActive db db') := inferInstanceAs (Decidable (_ ∧ _))

namespace UptimeMonitor

variable (env : UptimeEnv) (s : UptimeMonitor)

def setPass (i : Nat) (w : CheckPass) : UptimeMonitor := { s with passes := s.passes.set i w }

def setTx (txId : Nat) (tx : SlashTx) : UptimeMonitor := { s with txs := s.txs.set txId tx }

/-- The next transaction of a pass is sent, if the address of the provider is one. -/
def sendTx (i : Nat) (seen : Bool) (row : OfflineProvider) (todo : List OfflineProvider) : UptimeMonitor :=
  match env.parseAddress row.address with
  | none => s.setPass i (.slashing todo none)
  | some provider =>
    { s with
      txs := s.txs ++ [{ provider, collateral := row.totalCollateral }]
      passes := s.passes.set i
        (.slashing todo (if seen then some (row.address, .waiting s.txs.length) else none)) }

/-- A pass goes on. A wait ends when its transaction is mined, or never will be. -/
def runPass (now i : Nat) : CheckPass → Tx UptimeMonitor
  | .selecting =>
    match offlineProviders now s.db s.pledges with
    | [] => .ok (s.setPass i .finished)
    | rows => .ok (s.setPass i (.slashing rows none))
  | .slashing [] none => .ok (s.setPass i .finished)
  | .slashing (row :: todo) none => .ok (s.sendTx env i true row todo)
  | .slashing todo (some (address, .waiting txId)) =>
    match s.txs[txId]?.map SlashTx.status with
    | some .executed => .ok (s.setPass i (.slashing todo (some (address, .updating))))
    | some .failed => .ok (s.setPass i (.slashing todo none))
    | some .pending | none => .error (.reason "event not enabled")
  | .slashing todo (some (address, .updating)) =>
    .ok { s.setPass i (.slashing todo none) with db := deactivateProvider address s.db }
  | .finished => .error (.reason "event not enabled")

/-- An error ends what a pass does for a provider, or the pass if it is still at its query. -/
def failPass : CheckPass → CheckPass
  | .selecting | .slashing [] none | .finished => .finished
  | .slashing (_ :: todo) none | .slashing todo (some _) => .slashing todo none

/-- A transaction of the monitor is mined. -/
def mineTx (now txId : Nat) (tx : SlashTx) : UptimeMonitor × List UptimeLog :=
  match s.chain.slashMissedPost env.sites ⟨env.worker, now / 1000⟩ tx.provider tx.collateral with
  | .ok (chain, _) => ({ s.setTx txId { tx with status := .executed } with chain }, [.slashed tx.provider])
  | .error _ => (s.setTx txId { tx with status := .failed }, [])

def step (a : UptimeAction) : Tx (UptimeMonitor × List UptimeLog) :=
  match a.event with
  | .posts address =>
    .ok ({ s with db := HealthMonitor.postHeartbeat s.db a.now address }, [.heartbeat address.toLower])
  | .starts => .ok ({ s with passes := s.passes ++ [.selecting] }, [])
  | .runs i =>
    match s.passes[i]? with
    | some w => do return (← s.runPass env a.now i w, [])
    | none => .error (.reason "event not enabled")
  | .fails i =>
    match s.passes[i]? with
    | some w => .ok (s.setPass i (failPass w), [])
    | none => .error (.reason "event not enabled")
  | .sendsUnseen i =>
    match s.passes[i]? with
    | some (.slashing (row :: todo) none) => .ok (s.sendTx env i false row todo, [])
    | _ => .error (.reason "event not enabled")
  | .mines txId =>
    match s.txs[txId]? with
    | some tx =>
      if tx.status = .pending then .ok (s.mineTx env a.now txId tx) else .error (.reason "event not enabled")
    | none => .error (.reason "event not enabled")
  | .drops txId =>
    match s.txs[txId]? with
    | some tx =>
      if tx.status = .pending then .ok (s.setTx txId { tx with status := .failed }, [])
      else .error (.reason "event not enabled")
    | none => .error (.reason "event not enabled")
  | .othersAct db pledges chain => do
    require (KeepsActive s.db db) "not a statement of another service"
    return ({ s with db, pledges, chain }, [])

end UptimeMonitor

end Kyneto
