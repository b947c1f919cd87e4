import Kyneto.StorageMarketplace.Basic
import Kyneto.Database

/-!
# `RepairService`

The service that puts lost shards back. Every minute a run of `processRepairQueue` selects up to ten pending entries
of `repair_queue` and repairs them one after the other: it marks the entry, reconstructs the shard, chooses a new
provider, inserts the new row into `shards`, sends a `repairShard` to the marketplace, waits for it, and marks the entry
as completed. An error on the way marks it as failed; if that fails as well, the run ends.

Runs overlap: a new one starts whether the last one is done or not. Runs, the chain and the other services take turns
in any order. A run is cut at its statements and where it waits: for the shard, the upload and the transaction. Every
one of them can fail. A transaction that nobody waits for any more can still be mined. What IPFS returns is free; of a
reconstructed shard only the size is kept.

`selectNewProvider` reads a column `available_capacity` of `capacity_pledges`. Which columns that table has is part of
the environment, since `config/database-schema.sql` does not list this one.
-/

namespace Kyneto

open Evm Sql

/-- The most entries a run selects. -/
def REPAIR_BATCH : Nat := 10

/-- The fewest active shards of a deal that can be repaired. -/
def SHARDS_TO_RECONSTRUCT : Nat := 10

/-! ## What a run reads -/

/-- The columns of `capacity_pledges` in `config/database-schema.sql`. -/
def capacityPledgeColumns : List String :=
  ["provider_address", "pledge_id", "capacity_gb", "duration_seconds", "collateral", "utilization_gb", "active",
    "created_at"]

/-- The columns of `capacity_pledges` that `selectNewProvider` names. -/
def selectedColumns : List String := ["available_capacity", "provider_address", "active", "available_capacity"]

/-- A row of `capacity_pledges`, with the columns that `selectNewProvider` reads. -/
structure CapacityRow where
  providerAddress : String
  active : Bool := true
  availableCapacity : Int
  deriving DecidableEq, Repr

def pendingRepairs (db : Database) : List RepairRow := db.repairQueue.filter fun r => r.status = .pending

/-- What the query of `processRepairQueue` may return: the oldest pending entries, up to ten, in their order. -/
def SelectsRepairs (db : Database) (rows : List RepairRow) : Prop :=
  (rows.map RepairRow.id).Nodup ∧ (∀ row ∈ rows, row ∈ pendingRepairs db) ∧
    rows.length = min REPAIR_BATCH (pendingRepairs db).length ∧
    rows.Pairwise (fun r r' => r.createdAt ≤ r'.createdAt) ∧
    ∀ row ∈ rows, ∀ other ∈ pendingRepairs db, other ∉ rows → row.createdAt ≤ other.createdAt

instance (db : Database) (rows : List RepairRow) : Decidable (SelectsRepairs db rows) :=
  inferInstanceAs (Decidable (_ ∧ _ ∧ _ ∧ _ ∧ _))

def activeShardsOf (db : Database) (dealId : String) : List ShardRow :=
  db.shards.filter fun r => r.dealId = dealId ∧ r.active = true

/-- `[excludeProvider, ...existingProviders]` -/
def excludedAddresses (db : Database) (dealId excludeProvider : String) : List String :=
  excludeProvider :: ((activeShardsOf db dealId).map ShardRow.providerAddress).dedup

/-- The conditions of the query of `selectNewProvider`. -/
def Eligible (pledges : List CapacityRow) (excluded : List String) (p : ProviderRow) : Prop :=
  p.active = true ∧ 50 ≤ p.reputationScore ∧ p.address ∉ excluded ∧
    ∃ c ∈ pledges, c.providerAddress = p.address ∧ c.active = true ∧ 0 < c.availableCapacity

instance (pledges : List CapacityRow) (excluded : List String) (p : ProviderRow) :
    Decidable (Eligible pledges excluded p) := inferInstanceAs (Decidable (_ ∧ _ ∧ _ ∧ _))

/-- What it may return: one of the eligible providers with the best reputation, if there are any. -/
def SelectsProvider (db : Database) (pledges : List CapacityRow) (excluded : List String) : Option String → Prop
  | none => ∀ p ∈ db.providers, ¬ Eligible pledges excluded p
  | some address => ∃ p ∈ db.providers, p.address = address ∧ Eligible pledges excluded p ∧
    ∀ q ∈ db.providers, Eligible pledges excluded q → q.reputationScore ≤ p.reputationScore

instance (db : Database) (pledges : List CapacityRow) (excluded : List String) (answer : Option String) :
    Decidable (SelectsProvider db pledges excluded answer) :=
  match answer with
  | none => inferInstanceAs (Decidable (∀ p ∈ db.providers, _))
  | some _ => inferInstanceAs (Decidable (∃ p ∈ db.providers, _))

/-! ## Runs -/

/-- How far a run is with its entry. -/
inductive RepairPhase where
  | started                                                  -- the entry is marked as in progress
  | collected                                                -- there are enough active shards
  | reconstructed (size : Nat)
  | excluded (size : Nat) (addresses : List String)          -- the providers of the deal have been read
  | chosen (size : Nat) (newProvider : String)
  | uploaded (size : Nat) (newProvider newShardCID : String)
  | placed (newProvider newShardCID : String)                -- the row is inserted
  | sent (newProvider newShardCID : String)                  -- the transaction is out, `tx.wait()` is pending
  | mined (ok : Bool) (newProvider newShardCID : String)     -- it went through or reverted; `tx.wait()` is pending
  | confirmed (newProvider newShardCID : String)             -- `tx.wait()` returned
  | failing                                                  -- an error was thrown; the entry is to be marked
  deriving DecidableEq, Repr

/-- A run of `processRepairQueue`, after its query. -/
structure RepairRun where
  todo : List RepairRow
  current : Option (RepairRow × RepairPhase) := none
  deriving DecidableEq, Repr

/-- The transaction for an entry, with the texts that it is made of. -/
structure RepairTx where
  entry : RepairRow
  newProvider : String
  newShardCID : String
  deriving DecidableEq, Repr

/-- The arguments of `repairShard` as the contract sees them. -/
structure RepairArgs where
  dealId : Nat
  oldProvider : Address
  newProvider : Address
  deriving DecidableEq, Repr

/-- What the service runs with: the account whose key it holds, the columns of `capacity_pledges`, and how `ethers`
reads numbers and addresses (`none` where it throws). -/
structure RepairEnv (this : Address) where
  wallet : Account this
  pledgeColumns : List String
  readNumber : String → Option Nat
  readAddress : String → Option Address

section Env

variable {this : Address} (env : RepairEnv this)

def RepairEnv.args (tx : RepairTx) : Option RepairArgs := do
  let dealId ← env.readNumber tx.entry.dealId
  let oldProvider ← env.readAddress tx.entry.oldProvider
  let newProvider ← env.readAddress tx.newProvider
  return { dealId, oldProvider, newProvider }

/-- The transaction as it is mined at `now`. -/
def RepairEnv.sends (now : Nat) (args : RepairArgs) (newShardCID : String) : Action this :=
  env.wallet.calls now (.repairShard args.dealId args.oldProvider args.newProvider newShardCID)

end Env

/-- The chain, the tables and the runs of the service. -/
structure RepairService where
  chain : System
  db : Database
  capacityPledges : List CapacityRow := []
  runs : List RepairRun := []
  abandoned : List RepairTx := []   -- transactions that are out and nobody waits for

/-- What a step did for an entry. -/
inductive RepairLog where
  | begun (entry : RepairRow)
  | placed (entry : RepairRow)       -- a new row of `shards`
  | sent (tx : RepairTx)
  | repaired (tx : RepairTx)         -- the transaction was mined and went through
  | completed (entry : RepairRow)
  deriving DecidableEq, Repr

inductive RepairEvent (this : Address) where
  | transaction (a : Action this)                                     -- of anybody
  | queued (row : RepairRow)
  | othersWrite (db : Database) (pledges : List CapacityRow)
  | runStarts (rows : List RepairRow)
  | begins (i : Nat)
  | collects (i : Nat)
  | reconstructs (i size : Nat)
  | excludes (i : Nat)
  | chooses (i : Nat) (answer : Option String)
  | uploads (i : Nat) (newShardCID : String)
  | places (i : Nat)
  | sends (i : Nat)
  | mines (i : Nat)
  | minesAbandoned (i : Nat)
  | waitReturns (i : Nat)
  | waitFails (i : Nat)
  | completes (i : Nat)
  | throws (i : Nat)                                                  -- at any other point
  | marksFailed (i : Nat)
  | marksNot (i : Nat)

structure RepairAction (this : Address) where
  now : Nat
  event : RepairEvent this

namespace RepairService

variable {this : Address} (env : RepairEnv this)

def setRun (s : RepairService) (i : Nat) (r : RepairRun) : RepairService := { s with runs := s.runs.set i r }

/-- `UPDATE repair_queue SET … WHERE id = $2` -/
def updateRepair (id : Nat) (set : RepairRow → RepairRow) (db : Database) : Database :=
  { db with repairQueue := update (fun r => r.id = id) set db.repairQueue }

/-- `INSERT INTO shards (deal_id, provider_address, shard_index, shard_cid, size_bytes, active, created_at)` -/
def newShard (entry : RepairRow) (size : Nat) (newProvider newShardCID : String) : ShardRow :=
  { dealId := entry.dealId, providerAddress := newProvider, shardIndex := entry.shardIndex, shardCid := newShardCID,
    sizeBytes := some size }

/-- The transaction is mined: if it reverts, the chain stays as it is. -/
def mine (s : RepairService) (now : Nat) (tx : RepairTx) (args : RepairArgs) : Bool × RepairService × List RepairLog :=
  match s.chain.step this (env.sends now args tx.newShardCID) with
  | .ok (chain, _) => (true, { s with chain }, [.repaired tx])
  | .error _ => (false, s, [])

def disabled {α : Type} : Tx α := .error (.reason "event not enabled")

def step (s : RepairService) (a : RepairAction this) : Tx (RepairService × List RepairLog) :=
  match a.event with
  | .transaction tx => do
    require (tx.msg.timestamp = a.now) "block of another time"
    let (chain, _) ← s.chain.step this tx
    return ({ s with chain }, [])
  | .queued row => do
    require (∀ r ∈ s.db.repairQueue, r.id ≠ row.id) "duplicate key value violates unique constraint"
    return ({ s with db := { s.db with repairQueue := s.db.repairQueue ++ [{ row with status := .pending }] } }, [])
  | .othersWrite db pledges => do
    require (db.repairQueue = s.db.repairQueue) "not a statement of another service"
    return ({ s with db, capacityPledges := pledges }, [])
  | .runStarts rows => do
    require (SelectsRepairs s.db rows) "not an answer to the query"
    return ({ s with runs := s.runs ++ [{ todo := rows }] }, [])
  | .begins i =>
    match s.runs[i]? with
    | some ⟨row :: todo, none⟩ =>
      -- whatever the status is by now
      .ok ({ s.setRun i ⟨todo, some (row, .started)⟩ with
        db := updateRepair row.id (fun r => { r with status := .in_progress }) s.db }, [.begun row])
    | _ => disabled
  | .collects i =>
    match s.runs[i]? with
    | some ⟨todo, some (row, .started)⟩ =>
      if SHARDS_TO_RECONSTRUCT ≤ (activeShardsOf s.db row.dealId).length then
        .ok (s.setRun i ⟨todo, some (row, .collected)⟩, [])
      else .ok (s.setRun i ⟨todo, some (row, .failing)⟩, [])
    | _ => disabled
  | .reconstructs i size =>
    match s.runs[i]? with
    | some ⟨todo, some (row, .collected)⟩ => .ok (s.setRun i ⟨todo, some (row, .reconstructed size)⟩, [])
    | _ => disabled
  | .excludes i =>
    match s.runs[i]? with
    | some ⟨todo, some (row, .reconstructed size)⟩ =>
      let addresses := excludedAddresses s.db row.dealId row.oldProvider
      .ok (s.setRun i ⟨todo, some (row, .excluded size addresses)⟩, [])
    | _ => disabled
  | .chooses i answer =>
    match s.runs[i]? with
    | some ⟨todo, some (row, .excluded size addresses)⟩ => do
      require (∀ name ∈ selectedColumns, name ∈ env.pledgeColumns) "column does not exist"
      require (SelectsProvider s.db s.capacityPledges addresses answer) "not an answer to the query"
      match answer with
      | some newProvider => return (s.setRun i ⟨todo, some (row, .chosen size newProvider)⟩, [])
      | none => return (s.setRun i ⟨todo, some (row, .failing)⟩, [])
    | _ => disabled
  | .uploads i newShardCID =>
    match s.runs[i]? with
    | some ⟨todo, some (row, .chosen size newProvider)⟩ =>
      .ok (s.setRun i ⟨todo, some (row, .uploaded size newProvider newShardCID)⟩, [])
    | _ => disabled
  | .places i =>
    match s.runs[i]? with
    | some ⟨todo, some (row, .uploaded size newProvider newShardCID)⟩ =>
      match s.db.insertShard (newShard row size newProvider newShardCID) with
      | .ok db => .ok ({ s.setRun i ⟨todo, some (row, .placed newProvider newShardCID)⟩ with db }, [.placed row])
      | .error _ => .ok (s.setRun i ⟨todo, some (row, .failing)⟩, [])
    | _ => disabled
  | .sends i =>
    match s.runs[i]? with
    | some ⟨todo, some (row, .placed newProvider newShardCID)⟩ =>
      if (env.args ⟨row, newProvider, newShardCID⟩).isSome then
        .ok (s.setRun i ⟨todo, some (row, .sent newProvider newShardCID)⟩, [.sent ⟨row, newProvider, newShardCID⟩])
      else .ok (s.setRun i ⟨todo, some (row, .failing)⟩, [])
    | _ => disabled
  | .mines i =>
    match s.runs[i]? with
    | some ⟨todo, some (row, .sent newProvider newShardCID)⟩ =>
      match env.args ⟨row, newProvider, newShardCID⟩ with
      | some args =>
        let (ok, s, logs) := s.mine env a.now ⟨row, newProvider, newShardCID⟩ args
        .ok (s.setRun i ⟨todo, some (row, .mined ok newProvider newShardCID)⟩, logs)
      | none => disabled
    | _ => disabled
  | .minesAbandoned i =>
    match s.abandoned[i]? with
    | some tx =>
      match env.args tx with
      | some args =>
        let (_, s, logs) := s.mine env a.now tx args
        .ok ({ s with abandoned := s.abandoned.eraseIdx i }, logs)
      | none => disabled
    | none => disabled
  | .waitReturns i =>
    match s.runs[i]? with
    | some ⟨todo, some (row, .mined true newProvider newShardCID)⟩ =>
      .ok (s.setRun i ⟨todo, some (row, .confirmed newProvider newShardCID)⟩, [])
    | _ => disabled
  | .waitFails i =>
    match s.runs[i]? with
    | some ⟨todo, some (row, .sent newProvider newShardCID)⟩ =>
      .ok ({ s.setRun i ⟨todo, some (row, .failing)⟩ with
        abandoned := s.abandoned ++ [⟨row, newProvider, newShardCID⟩] }, [])
    | some ⟨todo, some (row, .mined _ _ _)⟩ => .ok (s.setRun i ⟨todo, some (row, .failing)⟩, [])
    | _ => disabled
  | .completes i =>
    match s.runs[i]? with
    | some ⟨todo, some (row, .confirmed newProvider newShardCID)⟩ =>
      .ok ({ s.setRun i ⟨todo, none⟩ with
        db := updateRepair row.id (fun r =>
          { r with status := .completed, newProvider := some newProvider, newShardCid := some newShardCID }) s.db },
        [.completed row])
    | _ => disabled
  | .throws i =>
    match s.runs[i]? with
    | some ⟨row :: todo, none⟩ => .ok (s.setRun i ⟨todo, some (row, .failing)⟩, [])
    | some ⟨_, some (_, .sent _ _)⟩ | some ⟨_, some (_, .mined _ _ _)⟩ | some ⟨_, some (_, .failing)⟩ => disabled
    | some ⟨todo, some (row, _)⟩ => .ok (s.setRun i ⟨todo, some (row, .failing)⟩, [])
    | _ => disabled
  | .marksFailed i =>
    match s.runs[i]? with
    | some ⟨todo, some (row, .failing)⟩ =>
      .ok ({ s.setRun i ⟨todo, none⟩ with
        db := updateRepair row.id (fun r => { r with status := .failed }) s.db }, [])
    | _ => disabled
  | .marksNot i =>
    match s.runs[i]? with
    | some ⟨_, some (_, .failing)⟩ => .ok (s.setRun i ⟨[], none⟩, [])
    | _ => disabled

end RepairService

end Kyneto
