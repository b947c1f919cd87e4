import Mathlib.Data.List.Sort
import Kyneto.RepairService.Basic

/-!
# `DealOrchestrator`

The service that looks after whole deals. `monitorDeal` reads all rows of a deal; if fewer than 15 are active, it calls
`repairDeal`, which goes through the inactive ones. For each it reconstructs the shard, uploads it, asks the
`ReplicationOrchestrator` for 15 providers and takes the first, calls the marketplace, and updates the rows with the
index of the shard. An error is caught and ends the run where it is.

What IPFS returns and in which order a query returns its rows is free. The query for providers reads a column
`reput_score`, which `config/database-schema.sql` does not list; which columns `providers` has, and what this one
holds, is part of the environment.
-/

namespace Kyneto

open Evm Sql

namespace ReplicationOrchestrator

def REQUIRED_SHARDS : Nat := 15
def MIN_REPUTATION : Nat := 30

/-- A row of `capacity_pledges`, with the columns that `selectProvidersForDeal` reads. -/
structure PledgeRow where
  providerAddress : String
  active : Bool := true
  capacityGb : ℚ
  utilizationGb : ℚ := 0
  deriving DecidableEq, Repr

/-- A row of the answer to its query. -/
structure SelectionRow where
  address : String
  region : Option String
  reputationScore : Nat
  availableCapacity : ℚ
  deriving DecidableEq, Repr

/-- The columns of `providers` in `config/database-schema.sql`. -/
def providerColumns : List String :=
  ["address", "peer_id", "endpoint", "region", "reputation_score", "active", "last_heartbeat", "last_proof_at",
    "registered_at"]

/-- The columns of `providers` that the query names. -/
def selectedColumns : List String :=
  ["address", "peer_id", "endpoint", "region", "reputation_score", "active", "reput_score"]

/-- The rows of the query, before they are ordered. -/
def selectionRows (reputScore : String → Int) (db : Database) (pledges : List PledgeRow) (perShardSize : ℚ) :
    List SelectionRow :=
  db.providers.flatMap fun p =>
    (pledges.filter fun cp => p.active = true ∧ (MIN_REPUTATION : Int) ≤ reputScore p.address ∧ cp.active = true ∧
      p.address = cp.providerAddress ∧ perShardSize ≤ cp.capacityGb - cp.utilizationGb).map fun cp =>
        { address := p.address, region := p.region, reputationScore := p.reputationScore,
          availableCapacity := cp.capacityGb - cp.utilizationGb }

/-! ### `selectWithDiversity` -/

/-- A row of the answer by its position: `includes` compares objects. -/
abbrev Picked := Nat × SelectionRow

/-- `selected` and `regionCounts` -/
structure Picking where
  selected : List Picked := []
  regionCounts : Option String → Nat := fun _ => 0

def Picking.push (s : Picking) (p : Picked) (region : Option String) (n : Nat) : Picking where
  selected := s.selected ++ [p]
  regionCounts := Function.update s.regionCounts region n

/-- `providers.find(p => p.region === region && !selected.includes(p))` -/
def Picking.findIn (s : Picking) (providers : List Picked) (region : Option String) : Option Picked :=
  providers.find? fun p => p.2.region = region ∧ p ∉ s.selected

/-- The first pass: one from each region. -/
def onePerRegion (providers : List Picked) (count : Nat) : List (Option String) → Picking → Picking
  | [], s => s
  | region :: regions, s =>
    if count ≤ s.selected.length then s
    else match s.findIn providers region with
      | some p => onePerRegion providers count regions (s.push p region 1)
      | none => onePerRegion providers count regions s

/-- `regions.sort(…)`, in place and stable. -/
def sortRegions (s : Picking) (regions : List (Option String)) : List (Option String) :=
  regions.insertionSort fun a b => s.regionCounts a ≤ s.regionCounts b

/-- The second pass, with the number of slots left. -/
def fillSlots (providers : List Picked) : Nat → List (Option String) → Picking → Picking
  | 0, _, s => s
  | n + 1, regions, s =>
    let sortedRegions := sortRegions s regions
    match sortedRegions.findSome? fun region => (s.findIn providers region).map fun p => (region, p) with
    | some (region, p) => fillSlots providers n sortedRegions (s.push p region (s.regionCounts region + 1))
    | none =>
      match providers.find? fun p => p ∉ s.selected with
      | some p => fillSlots providers n sortedRegions { s with selected := s.selected ++ [p] }
      | none => s

def selectWithDiversity (rows : List SelectionRow) (count : Nat) : List SelectionRow :=
  let providers : List Picked := rows.zipIdx.map Prod.swap
  let regions := (rows.map SelectionRow.region).eraseDups
  let s := onePerRegion providers count regions {}
  let s := fillSlots providers (count - s.selected.length) regions s
  (s.selected.take count).map Prod.snd

end ReplicationOrchestrator

open ReplicationOrchestrator

/-- What the service runs with: the account of the signer, how `ethers` reads numbers and addresses (`none` where it
throws), the columns of `providers` and the values of `reput_score`, and the double that `0.1 * 1.5 / 15` is. -/
structure OrchestratorEnv (this : Address) where
  signer : Account this
  readNumber : String → Option Nat
  readAddress : String → Option Address
  columns : List String
  reputScore : String → Int
  perShardSize : ℚ

structure DealOrchestrator where
  chain : System
  db : Database
  capacityPledges : List ReplicationOrchestrator.PledgeRow := []

/-- What a repair gets from outside: the CID of the upload, the answer of the query, and the time of the block. -/
structure RepairAnswer where
  newShardCID : String
  providers : List SelectionRow
  now : Nat

/-- What is placed: a shard at a provider, with the arguments of the call. -/
structure Placement where
  shardIndex : Nat
  newProvider : String
  newShardCID : String
  args : RepairArgs
  deriving DecidableEq, Repr

/-- The end of a run: the state, what it has placed, and whether an error was caught. -/
structure RepairOutcome where
  state : DealOrchestrator
  placements : List Placement := []
  threw : Bool := false

/-- `UPDATE shards SET provider_address = $1, shard_cid = $2, active = true WHERE deal_id = $3 AND shard_index = $4` -/
def Database.placeShard (db : Database) (dealId : String) (shardIndex : Nat) (newProvider newShardCID : String) :
    Query Database := do
  let cond := fun r : ShardRow => decide (r.dealId = dealId ∧ r.shardIndex = shardIndex)
  check ('\x00' ∉ newShardCID.toList) (.invalidText "shard_cid")
  let shards ← updateKeyed ShardRow.key cond
    (fun r => { r with providerAddress := newProvider, shardCid := newShardCID, active := true }) db.shards
  check ((∃ r ∈ db.shards, cond r = true) → ∃ p ∈ db.providers, p.address = newProvider)
    (.foreignKey "provider_address")
  return { db with shards }

namespace DealOrchestrator

variable {this : Address} (env : OrchestratorEnv this)

/-- `selectProvidersForDeal(0.1)`, with the rows as the query returns them. -/
def selectProvidersForDeal (s : DealOrchestrator) (rows : List SelectionRow) : Option (List SelectionRow) :=
  if (∀ name ∈ ReplicationOrchestrator.selectedColumns, name ∈ env.columns) ∧
      rows.Perm (selectionRows env.reputScore s.db s.capacityPledges env.perShardSize) ∧
      rows.Pairwise (fun p q => q.reputationScore ≤ p.reputationScore) ∧ REQUIRED_SHARDS ≤ rows.length then
    some (selectWithDiversity rows REQUIRED_SHARDS)
  else none

/-- The arguments of `repairShard`. -/
def readArgs (dealId oldProvider newProvider : String) : Option RepairArgs := do
  let dealId ← env.readNumber dealId
  let oldProvider ← env.readAddress oldProvider
  let newProvider ← env.readAddress newProvider
  return { dealId, oldProvider, newProvider }

/-- The transaction as it is mined at `now`. -/
def sends (now : Nat) (args : RepairArgs) (newShardCID : String) : Action this :=
  env.signer.calls now (.repairShard args.dealId args.oldProvider args.newProvider newShardCID)

/-- One turn of the loop of `repairDeal`; `none` for an error. The call of the contract stays if the update fails. -/
def repairOne (s : DealOrchestrator) (dealId : String) (missing : ShardRow) (answer : RepairAnswer) :
    DealOrchestrator × Option Placement :=
  match (s.selectProvidersForDeal env answer.providers).bind List.head? with
  | none => (s, none)
  | some provider =>
    match readArgs env dealId missing.providerAddress provider.address with
    | none => (s, none)
    | some args =>
      match s.chain.step this (sends env answer.now args answer.newShardCID) with
      | .error _ => (s, none)
      | .ok (chain, _) =>
        match s.db.placeShard dealId missing.shardIndex provider.address answer.newShardCID with
        | .error _ => ({ s with chain }, none)
        | .ok db => ({ s with chain, db },
            some { shardIndex := missing.shardIndex, newProvider := provider.address,
                   newShardCID := answer.newShardCID, args })

/-- The loop. Where there is no answer, the reconstruction, the upload or the query has failed. -/
def repairShards (dealId : String) (answers : ShardRow → Option RepairAnswer) :
    List ShardRow → DealOrchestrator → RepairOutcome
  | [], s => { state := s }
  | missing :: rest, s =>
    match answers missing with
    | none => { state := s, threw := true }
    | some answer =>
      match s.repairOne env dealId missing answer with
      | (s', none) => { state := s', threw := true }
      | (s', some p) =>
        let o := repairShards dealId answers rest s'
        { o with placements := p :: o.placements }

def repairDeal (s : DealOrchestrator) (dealId : String) (shards : List ShardRow)
    (answers : ShardRow → Option RepairAnswer) : RepairOutcome :=
  let missingShards := shards.filter fun r => !r.active
  let availableShards := shards.filter fun r => r.active
  if availableShards.length < 10 then { state := s, threw := true }
  else repairShards env dealId answers missingShards s

/-- What `SELECT … FROM shards WHERE deal_id = $1` may return. -/
def SelectsShards (db : Database) (dealId : String) (shards : List ShardRow) : Prop :=
  shards.Perm (db.shards.filter fun r => r.dealId = dealId)

def monitorDeal (s : DealOrchestrator) (dealId : String) (shards : List ShardRow)
    (answers : ShardRow → Option RepairAnswer) : RepairOutcome :=
  if (shards.filter fun r => r.active).length < 15 then s.repairDeal env dealId shards answers else { state := s }

end DealOrchestrator

end Kyneto
