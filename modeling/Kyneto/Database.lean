import Kyneto.Sql.Table
import Mathlib.Algebra.Group.Nat.Defs

/-!
# The database of the services

The tables of `config/database-schema.sql` that the services share, with the columns they read or write. What the
schema declares is checked by the statements: primary and foreign keys, `NOT NULL`, the lengths of the text columns,
and that a column exists at all.

Times are in milliseconds, as `Date.now()` has them. Ids and addresses are texts, and are compared as texts.
-/

namespace Kyneto

open Sql

structure ProviderRow where
  address : String
  peerId : String := ""
  region : Option String := none
  reputationScore : Nat := 50
  active : Bool := true
  lastHeartbeat : Option Nat := none
  deriving DecidableEq, Repr

structure DealRow where
  dealId : String
  clientAddress : String
  fileCid : String
  fileSizeGb : Nat
  totalCost : Nat
  providerPayment : Nat
  protocolFee : Nat
  status : String := "active"
  completedAt : Option Nat := none
  blockNumber : Option Nat := none
  deriving DecidableEq, Repr

structure ShardRow where
  dealId : String
  providerAddress : String
  shardIndex : Nat
  shardCid : String
  sizeBytes : Option Nat := none
  active : Bool := true
  lostAt : Option Nat := none
  deriving DecidableEq, Repr

/-- A row of `shard_loss_reports`. -/
structure LossReport where
  dealId : String
  providerAddress : String
  shardIndex : Nat
  shardCid : String
  reportedAt : Nat
  deriving DecidableEq, Repr

inductive RepairStatus where
  | pending | in_progress | completed | failed
  deriving DecidableEq, Repr

/-- A row of `repair_queue`. -/
structure RepairRow where
  id : Nat
  dealId : String
  oldProvider : String
  shardIndex : Nat
  shardCid : String
  status : RepairStatus := .pending
  newProvider : Option String := none
  newShardCid : Option String := none
  createdAt : Nat
  deriving DecidableEq, Repr

/-- A row of `protocol_events`. -/
structure ProtocolEvent where
  eventType : String
  description : String
  data : String
  deriving DecidableEq, Repr

structure Database where
  providers : List ProviderRow := []
  deals : List DealRow := []
  shards : List ShardRow := []
  shardLossReports : List LossReport := []
  repairQueue : List RepairRow := []
  protocolEvents : List ProtocolEvent := []
  deriving DecidableEq, Repr

/-! ## Constraints -/

def dealColumns : List String :=
  ["deal_id", "client_address", "file_cid", "file_size_gb", "total_cost", "provider_payment", "protocol_fee",
    "status", "is_encrypted", "encrypted_key", "encryption_iv", "encryption_auth_tag", "created_at", "completed_at",
    "block_number"]

def shardColumns : List String :=
  ["deal_id", "provider_address", "shard_index", "shard_cid", "size_bytes", "active", "created_at", "lost_at"]

/-- A text that a column of `n` characters takes. No text column takes a zero character. -/
def checkText (column : String) (n : Nat) (s : String) : Query Unit := do
  check (s.length ≤ n) (.tooLong column)
  check ('\x00' ∉ s.toList) (.invalidText column)

/-- `INTEGER` -/
def checkInteger (column : String) (n : Nat) : Query Unit := check (n < 2 ^ 31) (.outOfRange column)

def ShardRow.key (r : ShardRow) : String × String := (r.dealId, r.providerAddress)
def LossReport.key (r : LossReport) : String × String := (r.dealId, r.providerAddress)

/-- The values of an `INSERT INTO deals`; a column that is not named has none. -/
structure NewDeal where
  dealId : String
  clientAddress : Option String := none
  fileCid : Option String := none
  fileSizeGb : Option Nat := none
  totalCost : Option Nat := none
  providerPayment : Option Nat := none
  protocolFee : Option Nat := none
  status : String := "active"
  blockNumber : Option Nat := none

namespace Database

def insertDeal (db : Database) (v : NewDeal) : Query Database := do
  checkText "deal_id" 20 v.dealId
  let clientAddress ← required "client_address" v.clientAddress
  checkText "client_address" 42 clientAddress
  let fileCid ← required "file_cid" v.fileCid
  check ('\x00' ∉ fileCid.toList) (.invalidText "file_cid")
  let fileSizeGb ← required "file_size_gb" v.fileSizeGb
  let totalCost ← required "total_cost" v.totalCost
  let providerPayment ← required "provider_payment" v.providerPayment
  let protocolFee ← required "protocol_fee" v.protocolFee
  checkText "status" 20 v.status
  let row : DealRow :=
    { dealId := v.dealId, clientAddress, fileCid, fileSizeGb, totalCost, providerPayment, protocolFee,
      status := v.status, blockNumber := v.blockNumber }
  let deals ← insert DealRow.dealId row db.deals
  return { db with deals }

def insertShard (db : Database) (row : ShardRow) : Query Database := do
  checkText "deal_id" 20 row.dealId
  checkText "provider_address" 42 row.providerAddress
  checkInteger "shard_index" row.shardIndex
  check ('\x00' ∉ row.shardCid.toList) (.invalidText "shard_cid")
  let shards ← insert ShardRow.key row db.shards
  check (∃ d ∈ db.deals, d.dealId = row.dealId) (.foreignKey "deal_id")
  check (∃ p ∈ db.providers, p.address = row.providerAddress) (.foreignKey "provider_address")
  return { db with shards }

/-- `INSERT INTO providers (…) ON CONFLICT (address) DO NOTHING` -/
def insertProvider (db : Database) (row : ProviderRow) : Query Database := do
  checkText "address" 42 row.address
  checkText "peer_id" 100 row.peerId
  checkText "region" 50 (row.region.getD "")
  return { db with providers := upsert ProviderRow.address row id db.providers }

end Database

end Kyneto
