import Kyneto.Database
import Kyneto.Evm.Checksum
import Kyneto.StorageMarketplace.Basic

/-!
# `BlockchainListener`

The service that copies the events of the contracts into the database. A handler runs its statements one after the
other; an error ends it, is logged, and undoes nothing. Addresses arrive in their checksummed spelling.

`handle` is the subscription: an event that is not listed there passes unseen. Only the marketplace and the registry
emit anything in the operations of the marketplace that the listener hears of.
-/

namespace Kyneto

open Evm Sql

/-- When a handler runs, and the block of its event. -/
structure Delivery where
  now : Nat
  blockNumber : Nat

namespace Database

/-- `UPDATE deals SET … WHERE …`, with the columns that the statement names. -/
def updateDeals (names : List String) (cond : DealRow → Bool) (set : DealRow → DealRow) (db : Database) :
    Query Database := do
  resolve dealColumns names
  return { db with deals := update cond set db.deals }

def updateShards (names : List String) (cond : ShardRow → Bool) (set : ShardRow → ShardRow) (db : Database) :
    Query Database := do
  resolve shardColumns names
  return { db with shards := update cond set db.shards }

/-- `INSERT INTO protocol_events (event_type, description, data) VALUES …` -/
def logEvent (event : ProtocolEvent) (db : Database) : Query Database :=
  .ok { db with protocolEvents := db.protocolEvents ++ [event] }

/-- The second statement of `handleDealCompleted` and `handleDealCancelled`. -/
def dropShards (dealId : Nat) : Database → Query Database :=
  updateShards ["active", "deleted_at", "deal_id", "active"] (fun r => r.dealId = toString dealId ∧ r.active = true)
    fun r => { r with active := false }

end Database

namespace BlockchainListener

def handleDealCreated (d : Delivery) (dealId : Nat) (client : Address) (fileSizeGB totalCost : Nat)
    (db : Database) : Database :=
  attempt
    [fun db => db.insertDeal
      { dealId := toString dealId, clientAddress := some (toChecksum client), fileSizeGb := some fileSizeGB,
        totalCost := some totalCost, status := "active", blockNumber := some d.blockNumber }] db

def handleShardAssigned (dealId : Nat) (provider : Address) (shardIndex : Nat) (shardCID : String)
    (db : Database) : Database :=
  attempt
    [fun db => db.insertShard
      { dealId := toString dealId, providerAddress := toChecksum provider, shardIndex, shardCid := shardCID }] db

def handleDealCompleted (d : Delivery) (dealId : Nat) (db : Database) : Database :=
  attempt
    [Database.updateDeals ["status", "completed_at", "deal_id"] (fun r => r.dealId = toString dealId)
        fun r => { r with status := "completed", completedAt := some d.now },
      Database.dropShards dealId,
      Database.logEvent
        { eventType := "DEAL_COMPLETED", description := s!"Deal #{dealId} completed — shards marked for cleanup",
          data := "\x7b\"dealId\":\"" ++ toString dealId ++ "\"\x7d" }] db

/-- `client.substring(0, 10)` -/
def shortAddress (client : Address) : String := String.ofList ((toChecksum client).toList.take 10)

def handleDealCancelled (dealId : Nat) (client : Address) (db : Database) : Database :=
  attempt
    [Database.updateDeals ["status", "cancelled_at", "deal_id"] (fun r => r.dealId = toString dealId)
        fun r => { r with status := "cancelled" },
      Database.dropShards dealId,
      Database.logEvent
        { eventType := "DEAL_CANCELLED", description := s!"Deal #{dealId} cancelled by client {shortAddress client}...",
          data := "\x7b\"dealId\":\"" ++ toString dealId ++ "\",\"client\":\"" ++ toChecksum client ++ "\"\x7d" }]
    db

def handleShardLost (d : Delivery) (dealId : Nat) (provider : Address) (db : Database) : Database :=
  attempt
    [Database.updateShards ["active", "lost_at", "deal_id", "provider_address"]
        (fun r => r.dealId = toString dealId ∧ r.providerAddress = toChecksum provider)
        fun r => { r with active := false, lostAt := some d.now }] db

def handleProviderRegistered (provider : Address) (peerId region : String) (db : Database) : Database :=
  attempt
    [fun db => db.insertProvider
      { address := (toChecksum provider).toLower, peerId, region := some region, reputationScore := 50,
        active := true }] db

def handleReputationUpdated (provider : Address) (newScore : Nat) (db : Database) : Database :=
  attempt
    [fun db => do
      checkInteger "reputation_score" newScore
      return { db with
        providers := update (fun p => p.address = toChecksum provider)
          (fun p => { p with reputationScore := newScore }) db.providers }] db

/-- The events that the listener subscribes to. -/
def handle (d : Delivery) (db : Database) : Log → Database
  | .market (.DealCreated dealId client fileSizeGB totalCost) =>
    handleDealCreated d dealId client fileSizeGB totalCost db
  | .market (.ShardAssigned dealId provider shardIndex shardCID) =>
    handleShardAssigned dealId provider shardIndex shardCID db
  | .market (.DealCompleted dealId) => handleDealCompleted d dealId db
  | .market (.DealCancelled dealId client) => handleDealCancelled dealId client db
  | .market (.ShardLost dealId provider _) => handleShardLost d dealId provider db
  | .registry (.ProviderRegistered provider peerId region) => handleProviderRegistered provider peerId region db
  | .registry (.ReputationUpdated provider newScore _) => handleReputationUpdated provider newScore db
  | _ => db

/-- The events of a transaction, in the order in which they were emitted. -/
def handleAll (d : Delivery) (db : Database) (logs : List Log) : Database := logs.foldl (handle d) db

end BlockchainListener

/-! ## Handlers that keep the deals and the shards -/

/-- The two tables that mirror the marketplace stay as they are. -/
structure SameMirror (db db' : Database) : Prop where
  deals : db'.deals = db.deals
  shards : db'.shards = db.shards

namespace BlockchainListener

variable {d : Delivery} {db db' : Database} {dealId : Nat}

theorem handleAll_append (l₁ l₂ : List Log) :
    handleAll d db (l₁ ++ l₂) = handleAll d (handleAll d db l₁) l₂ := List.foldl_append

@[simp] theorem handleAll_nil : handleAll d db [] = db := rfl

@[simp] theorem handleAll_cons (l : Log) (logs : List Log) :
    handleAll d db (l :: logs) = handleAll d (handle d db l) logs := rfl

@[simp] theorem handleAll_token (logs : List TokenLog) : handleAll d db (logs.map .token) = db := by
  induction logs with
  | nil => rfl
  | cons l logs ih => exact ih

/-- Three columns of `deals` that may not be null have no value in the statement. -/
theorem handleDealCreated_eq (client : Address) (fileSizeGB totalCost : Nat) :
    handleDealCreated d dealId client fileSizeGB totalCost db = db := by
  apply attempt_of_fails
  intro db' h
  simp only [Database.insertDeal, bind_eq_ok, required] at h
  obtain ⟨_, -, _, -, _, -, fileCid, hnone, -⟩ := h
  cases hnone

/-- `shards` has no column `deleted_at`. -/
theorem dropShards_fails : Database.dropShards dealId db ≠ .ok db' := by
  intro h
  simp only [Database.dropShards, Database.updateShards, bind_eq_ok, resolve_eq_ok] at h
  obtain ⟨_, hnames, -⟩ := h
  exact absurd (hnames "deleted_at" (by simp)) (by decide)

/-- The completed deal is marked, and its shards stay. -/
theorem handleDealCompleted_eq :
    handleDealCompleted d dealId db =
      { db with
        deals := update (fun r => r.dealId = toString dealId)
          (fun r => { r with status := "completed", completedAt := some d.now }) db.deals } := by
  have hstatus : Database.updateDeals ["status", "completed_at", "deal_id"] (fun r => r.dealId = toString dealId)
      (fun r => { r with status := "completed", completedAt := some d.now }) db =
        .ok { db with
          deals := update (fun r => r.dealId = toString dealId)
            (fun r => { r with status := "completed", completedAt := some d.now }) db.deals } :=
    bind_eq_ok.mpr ⟨(), resolve_eq_ok.mpr (by decide), rfl⟩
  rw [handleDealCompleted, attempt_of_ok hstatus]
  exact attempt_of_fails fun _ => dropShards_fails

/-- `deals` has no column `cancelled_at`. -/
theorem handleDealCancelled_eq (client : Address) : handleDealCancelled dealId client db = db := by
  apply attempt_of_fails
  intro db' h
  simp only [Database.updateDeals, bind_eq_ok, resolve_eq_ok] at h
  obtain ⟨_, hnames, -⟩ := h
  exact absurd (hnames "cancelled_at" (by simp)) (by decide)

theorem handleShardLost_eq (provider : Address) :
    handleShardLost d dealId provider db =
      { db with
        shards := update (fun r => r.dealId = toString dealId ∧ r.providerAddress = toChecksum provider)
          (fun r => { r with active := false, lostAt := some d.now }) db.shards } :=
  attempt_of_ok (bind_eq_ok.mpr ⟨(), resolve_eq_ok.mpr (by decide), rfl⟩)

theorem attempt_same {statement : Database → Query Database}
    (h : ∀ db', statement db = .ok db' → SameMirror db db') : SameMirror db (attempt [statement] db) := by
  cases hs : statement db with
  | ok db' =>
    rw [attempt_of_ok hs]
    exact h db' hs
  | error e =>
    rw [attempt_of_fails fun db' hok => by rw [hs] at hok; cases hok]
    exact ⟨rfl, rfl⟩

theorem handleReputationUpdated_same (provider : Address) (newScore : Nat) :
    SameMirror db (handleReputationUpdated provider newScore db) := by
  apply attempt_same
  intro db' h
  simp only [bind_eq_ok, pure_eq_ok] at h
  obtain ⟨_, -, rfl⟩ := h
  exact ⟨rfl, rfl⟩

theorem handleProviderRegistered_same (provider : Address) (peerId region : String) :
    SameMirror db (handleProviderRegistered provider peerId region db) := by
  apply attempt_same
  intro db' h
  simp only [Database.insertProvider, bind_eq_ok, pure_eq_ok] at h
  obtain ⟨_, -, _, -, _, -, rfl⟩ := h
  exact ⟨rfl, rfl⟩

/-- The registry's events leave the mirror alone. -/
theorem handleAll_registry (logs : List RegistryLog) : SameMirror db (handleAll d db (logs.map .registry)) := by
  induction logs generalizing db with
  | nil => exact ⟨rfl, rfl⟩
  | cons l logs ih =>
    have hrest := @ih (handle d db (.registry l))
    have hfirst : SameMirror db (handle d db (.registry l)) := by
      cases l with
      | ProviderRegistered provider peerId region => exact handleProviderRegistered_same provider peerId region
      | ReputationUpdated provider newScore reason => exact handleReputationUpdated_same provider newScore
      | ProviderUpdated _ | ProviderDeactivated _ _ | ProviderReactivated _ => exact ⟨rfl, rfl⟩
    exact ⟨hrest.deals.trans hfirst.deals, hrest.shards.trans hfirst.shards⟩

end BlockchainListener

end Kyneto
