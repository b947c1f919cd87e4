import Kyneto.Evm.Run
import Kyneto.Database

/-!
# `HealthMonitor`

The service that watches the heartbeats of providers. Every 30 seconds a pass of `checkAllProviders` selects the active
shards with the last heartbeats of their providers, and goes through those whose heartbeat is more than a minute old.
A shard that has not been reported is reported; one whose report is more than five minutes old is put into the repair
queue and marked as lost.

Passes overlap: a new one starts whether the last one is done or not. A pass is cut at its statements, each of which is
atomic, and where it goes on after one of them with the time of its own. Every statement can fail. Heartbeats come in
between, by the API or by `recordHeartbeat`, and other services write to the tables as well.
-/

namespace Kyneto

open Evm Sql

/-- 60 seconds: two missed heartbeats. -/
def OFFLINE_THRESHOLD : Nat := 60000

/-- 5 minutes, after which a reported shard is confirmed lost. -/
def LOSS_COOLDOWN : Nat := 300000

/-! ## Passes -/

/-- A row that a pass selects: an active shard of an active provider, with the last heartbeat. -/
structure Candidate where
  providerAddress : String
  dealId : String
  shardIndex : Nat
  shardCid : String
  lastHeartbeat : Option Nat
  deriving DecidableEq, Repr

/-- The query of `checkAllProviders`. -/
def candidates (db : Database) : List Candidate :=
  (db.shards.flatMap fun s =>
    (db.providers.filter fun p => s.providerAddress = p.address ∧ s.active = true ∧ p.active = true).map fun p =>
      { providerAddress := s.providerAddress, dealId := s.dealId, shardIndex := s.shardIndex,
        shardCid := s.shardCid, lastHeartbeat := p.lastHeartbeat }).dedup

/-- `currentTime - new Date(row.last_heartbeat).getTime() > OFFLINE_THRESHOLD`; no heartbeat counts as time 0. -/
def Candidate.offline (currentTime : Nat) (c : Candidate) : Bool :=
  c.lastHeartbeat.getD 0 + OFFLINE_THRESHOLD < currentTime

/-- How far `reportPotentialShardLoss` is. -/
inductive LossPhase where
  | looked (existing : Option LossReport)   -- the report has been looked up
  | reporting                               -- there is none: the insertion is next
  | queueing (existing : LossReport)        -- confirmed lost: the insertion into the queue is next
  | marking (existing : LossReport)         -- the update of the shards is next
  | clearing                                -- the deletion of the report is next
  deriving DecidableEq, Repr

/-- A pass of `checkAllProviders`. -/
inductive MonitorPass where
  | selected (rows : List Candidate)                                      -- the query is done
  | checking (todo : List Candidate) (current : Option (Candidate × LossPhase))
  deriving DecidableEq, Repr

/-- The database and what the services have under way. -/
structure HealthMonitor where
  db : Database
  passes : List MonitorPass := []
  recording : List String := []   -- calls of `recordHeartbeat` between their statements
  deriving DecidableEq, Repr

/-- What a statement did, as far as heartbeats and losses go. -/
inductive MonitorLog where
  | heartbeat (address : String)
  | queued (c : Candidate)
  | marked (c : Candidate)
  deriving DecidableEq, Repr

inductive MonitorEvent where
  | posts (providerAddress : String)          -- `POST /api/heartbeat`, after the signature is checked
  | records (providerAddress : String)        -- the update of `recordHeartbeat`
  | clears (i : Nat)                          -- its deletion of the reports
  | clearsNot (i : Nat)
  | passStarts
  | passResumes (i : Nat)
  | looksUp (i : Nat)
  | decides (i : Nat)
  | reports (i : Nat)
  | queues (i : Nat)
  | queuesNot (i : Nat)                       -- the insertion fails; `triggerRepair` catches the error
  | marks (i : Nat)
  | clearsReport (i : Nat)
  | fails (i : Nat)                           -- any other statement fails: the next row
  | othersWrite (db : Database)

structure MonitorAction where
  now : Nat
  event : MonitorEvent

/-- The report of a shard, by its three columns. -/
def findReport (db : Database) (c : Candidate) : Option LossReport :=
  db.shardLossReports.find? fun r =>
    r.dealId = c.dealId ∧ r.providerAddress = c.providerAddress ∧ r.shardIndex = c.shardIndex

namespace HealthMonitor

def setPass (s : HealthMonitor) (i : Nat) (p : MonitorPass) : HealthMonitor :=
  { s with passes := s.passes.set i p }

/-- `INSERT INTO providers (…) VALUES (LOWER($1), …) ON CONFLICT (address) DO UPDATE SET last_heartbeat = NOW(), …` -/
def postHeartbeat (db : Database) (now : Nat) (providerAddress : String) : Database :=
  { db with
    providers := upsert ProviderRow.address
      { address := providerAddress.toLower, peerId := "pending", lastHeartbeat := some now }
      (fun p => { p with lastHeartbeat := some now, active := true, peerId := "pending" }) db.providers }

/-- `UPDATE providers SET last_heartbeat = NOW() WHERE address = $1` -/
def recordHeartbeat (db : Database) (now : Nat) (providerAddress : String) : Database :=
  { db with
    providers := update (fun p => p.address = providerAddress) (fun p => { p with lastHeartbeat := some now })
      db.providers }

def reportOf (now : Nat) (c : Candidate) : LossReport :=
  { dealId := c.dealId, providerAddress := c.providerAddress, shardIndex := c.shardIndex, shardCid := c.shardCid,
    reportedAt := now }

/-- `INSERT INTO repair_queue (…)`; the ids are serial numbers. -/
def queueRepair (db : Database) (now : Nat) (c : Candidate) : Database :=
  let row : RepairRow :=
    { id := db.repairQueue.length, dealId := c.dealId, oldProvider := c.providerAddress, shardIndex := c.shardIndex,
      shardCid := c.shardCid, createdAt := now }
  { db with repairQueue := db.repairQueue ++ [row] }

/-- `UPDATE shards SET active = false, lost_at = NOW() WHERE deal_id = $1 AND provider_address = $2` -/
def markLost (db : Database) (now : Nat) (dealId providerAddress : String) : Database :=
  { db with
    shards := update (fun s => s.dealId = dealId ∧ s.providerAddress = providerAddress)
      (fun s => { s with active := false, lostAt := some now }) db.shards }

def deleteReports (cond : LossReport → Bool) (db : Database) : Database :=
  { db with shardLossReports := delete cond db.shardLossReports }

/-- What other services do: they write to every table except the reports, keep the rows of the providers, and leave
the heartbeats alone. -/
def OthersMayWrite (db db' : Database) : Prop :=
  db'.shardLossReports = db.shardLossReports ∧
    ∀ p ∈ db.providers, ∃ p' ∈ db'.providers, p'.address = p.address ∧ p'.lastHeartbeat = p.lastHeartbeat

instance (db db' : Database) : Decidable (OthersMayWrite db db') := inferInstanceAs (Decidable (_ ∧ _))

def disabled {α : Type} : Tx α := .error (.reason "event not enabled")

def step (s : HealthMonitor) (a : MonitorAction) : Tx (HealthMonitor × List MonitorLog) :=
  match a.event with
  | .posts address => .ok ({ s with db := postHeartbeat s.db a.now address }, [.heartbeat address.toLower])
  | .records address =>
    .ok ({ s with db := recordHeartbeat s.db a.now address, recording := s.recording ++ [address] },
      if ∃ p ∈ s.db.providers, p.address = address then [.heartbeat address] else [])
  | .clears i =>
    match s.recording[i]? with
    | some address =>
      .ok ({ s with db := deleteReports (fun r => r.providerAddress = address) s.db,
                    recording := s.recording.eraseIdx i }, [])
    | none => disabled
  | .clearsNot i => .ok ({ s with recording := s.recording.eraseIdx i }, [])
  | .passStarts => .ok ({ s with passes := s.passes ++ [.selected (candidates s.db)] }, [])
  | .passResumes i =>
    match s.passes[i]? with
    | some (.selected rows) => .ok (s.setPass i (.checking (rows.filter (Candidate.offline a.now)) none), [])
    | _ => disabled
  | .looksUp i =>
    match s.passes[i]? with
    | some (.checking (c :: todo) none) =>
      .ok (s.setPass i (.checking todo (some (c, .looked (findReport s.db c)))), [])
    | _ => disabled
  | .decides i =>
    match s.passes[i]? with
    | some (.checking todo (some (c, .looked (some r)))) =>
      if r.reportedAt + LOSS_COOLDOWN < a.now then
        .ok (s.setPass i (.checking todo (some (c, .queueing r))), [])
      else .ok (s.setPass i (.checking todo none), [])
    | some (.checking todo (some (c, .looked none))) =>
      .ok (s.setPass i (.checking todo (some (c, .reporting))), [])
    | _ => disabled
  | .reports i =>
    match s.passes[i]? with
    | some (.checking todo (some (c, .reporting))) =>
      -- the primary key leaves out the index, so there can be a report after all
      let reports := caught s.db.shardLossReports
        (insert LossReport.key (reportOf a.now c) s.db.shardLossReports)
      .ok ({ s.setPass i (.checking todo none) with db := { s.db with shardLossReports := reports } }, [])
    | _ => disabled
  | .queues i =>
    match s.passes[i]? with
    | some (.checking todo (some (c, .queueing r))) =>
      .ok ({ s.setPass i (.checking todo (some (c, .marking r))) with db := queueRepair s.db a.now c }, [.queued c])
    | _ => disabled
  | .queuesNot i =>
    match s.passes[i]? with
    | some (.checking todo (some (c, .queueing r))) =>
      .ok (s.setPass i (.checking todo (some (c, .marking r))), [])
    | _ => disabled
  | .marks i =>
    match s.passes[i]? with
    | some (.checking todo (some (c, .marking _))) =>
      .ok ({ s.setPass i (.checking todo (some (c, .clearing))) with
        db := markLost s.db a.now c.dealId c.providerAddress }, [.marked c])
    | _ => disabled
  | .clearsReport i =>
    match s.passes[i]? with
    | some (.checking todo (some (c, .clearing))) =>
      .ok ({ s.setPass i (.checking todo none) with
        db := deleteReports (fun r => r.dealId = c.dealId ∧ r.providerAddress = c.providerAddress) s.db }, [])
    | _ => disabled
  | .fails i =>
    match s.passes[i]? with
    | some (.checking (_ :: todo) none) => .ok (s.setPass i (.checking todo none), [])
    | some (.checking todo (some (_, .reporting))) | some (.checking todo (some (_, .marking _)))
    | some (.checking todo (some (_, .clearing))) => .ok (s.setPass i (.checking todo none), [])
    | _ => disabled
  | .othersWrite db => do
    require (OthersMayWrite s.db db) "not a statement of another service"
    return ({ s with db }, [])

end HealthMonitor

end Kyneto
