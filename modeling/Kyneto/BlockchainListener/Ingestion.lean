import Mathlib.Data.List.Perm.Basic
import Kyneto.BlockchainListener.Basic
import Kyneto.StorageMarketplace.Effect

/-!
# Does a new deal reach the database?

`createDeal` announces the shards first and the deal last, and a shard's row refers to the row of its deal. The row of
the deal is never written, since its statement leaves out three columns that may not be null. And a shard's row
refers to its provider in the checksummed spelling, while providers are entered in small letters. So what the
handlers add are the shards of a deal whose row is there already, with providers that are there in both spellings:
`ingested_iff` says what the database must look like beforehand for the deal to be in it afterwards.
-/

namespace Kyneto

open Evm Sql BlockchainListener

/-! ## What should be there -/

/-- A shard as an event announces it: its provider, index and CID. -/
abbrev Announced := Address × Nat × String

def Log.announces : Log → Option Announced
  | .market (.ShardAssigned _ provider shardIndex shardCID) => some (provider, shardIndex, shardCID)
  | _ => none

def announced (logs : List Log) : List Announced := logs.filterMap Log.announces

/-- The row that the handler of the event inserts. -/
def shardRow (dealId : Nat) (e : Announced) : ShardRow :=
  { dealId := toString dealId, providerAddress := toChecksum e.1, shardIndex := e.2.1, shardCid := e.2.2 }

/-- The active rows of the deal. -/
def activeDeals (db : Database) (dealId : Nat) : List DealRow :=
  db.deals.filter fun r => r.dealId = toString dealId ∧ r.status = "active"

/-- The active shards of the deal, with their providers in small letters. -/
def activeShards (db : Database) (dealId : Nat) : List (String × Nat × String) :=
  (db.shards.filter fun r => r.dealId = toString dealId ∧ r.active = true).map fun r =>
    (r.providerAddress.toLower, r.shardIndex, r.shardCid)

def spelled (e : Announced) : String × Nat × String := (hexAddress e.1, e.2)

/-- The database has one active row for the deal and fifteen for its shards, which are the announced ones. -/
structure Ingested (db : Database) (dealId : Nat) (shards : List Announced) : Prop where
  deal : (activeDeals db dealId).length = 1
  fifteen : (activeShards db dealId).length = SHARDS_PER_FILE
  shards : (activeShards db dealId).Perm (shards.map spelled)

/-! ## What the handlers add -/

/-- What the schema asks of a new row of `shards`. -/
structure Storable (db : Database) (row : ShardRow) : Prop where
  dealId_fits : row.dealId.length ≤ 20 ∧ '\x00' ∉ row.dealId.toList
  provider_fits : row.providerAddress.length ≤ 42 ∧ '\x00' ∉ row.providerAddress.toList
  index_lt : row.shardIndex < 2 ^ 31
  cid_text : '\x00' ∉ row.shardCid.toList
  fresh : ∀ r ∈ db.shards, r.key ≠ row.key
  deal : ∃ d ∈ db.deals, d.dealId = row.dealId
  provider : ∃ p ∈ db.providers, p.address = row.providerAddress

instance (db : Database) (row : ShardRow) : Decidable (Storable db row) :=
  decidable_of_iff
    ((row.dealId.length ≤ 20 ∧ '\x00' ∉ row.dealId.toList) ∧
      (row.providerAddress.length ≤ 42 ∧ '\x00' ∉ row.providerAddress.toList) ∧
      row.shardIndex < 2 ^ 31 ∧ '\x00' ∉ row.shardCid.toList ∧ (∀ r ∈ db.shards, r.key ≠ row.key) ∧
      (∃ d ∈ db.deals, d.dealId = row.dealId) ∧ ∃ p ∈ db.providers, p.address = row.providerAddress)
    ⟨fun ⟨h₁, h₂, h₃, h₄, h₅, h₆, h₇⟩ => ⟨h₁, h₂, h₃, h₄, h₅, h₆, h₇⟩,
      fun ⟨h₁, h₂, h₃, h₄, h₅, h₆, h₇⟩ => ⟨h₁, h₂, h₃, h₄, h₅, h₆, h₇⟩⟩

/-- The database takes the row of the announced shard. -/
def insertable (db : Database) (dealId : Nat) (e : Announced) : Bool := decide (Storable db (shardRow dealId e))

section Inserting

variable {d : Delivery} {db db' : Database} {dealId : Nat}

theorem insertShard_eq_ok {row : ShardRow} :
    db.insertShard row = .ok db' ↔ Storable db row ∧ db' = { db with shards := db.shards ++ [row] } := by
  simp only [Database.insertShard, checkText, checkInteger, bind_eq_ok, check_eq_ok, insert_eq_ok, pure_eq_ok,
    exists_const]
  constructor
  · rintro ⟨⟨hlen, htext⟩, ⟨hlen', htext'⟩, hindex, hcid, _, ⟨hfresh, rfl⟩, hdeal, hprovider, rfl⟩
    exact ⟨⟨⟨hlen, htext⟩, ⟨hlen', htext'⟩, hindex, hcid, hfresh, hdeal, hprovider⟩, rfl⟩
  · rintro ⟨⟨⟨hlen, htext⟩, ⟨hlen', htext'⟩, hindex, hcid, hfresh, hdeal, hprovider⟩, rfl⟩
    exact ⟨⟨hlen, htext⟩, ⟨hlen', htext'⟩, hindex, hcid, _, ⟨hfresh, rfl⟩, hdeal, hprovider, rfl⟩

theorem insertable_iff {e : Announced} : insertable db dealId e = true ↔ Storable db (shardRow dealId e) :=
  decide_eq_true_iff

/-- Rows with other keys do not matter. -/
theorem storable_append {rows : List ShardRow} {row : ShardRow} (hother : ∀ r ∈ rows, r.key ≠ row.key) :
    Storable { db with shards := db.shards ++ rows } row ↔ Storable db row := by
  have hfresh : (∀ r ∈ db.shards ++ rows, r.key ≠ row.key) ↔ ∀ r ∈ db.shards, r.key ≠ row.key := by
    rw [List.forall_mem_append, and_iff_left hother]
  constructor
  · rintro ⟨h₁, h₂, h₃, h₄, h₅, h₆, h₇⟩
    exact ⟨h₁, h₂, h₃, h₄, hfresh.mp h₅, h₆, h₇⟩
  · rintro ⟨h₁, h₂, h₃, h₄, h₅, h₆, h₇⟩
    exact ⟨h₁, h₂, h₃, h₄, hfresh.mpr h₅, h₆, h₇⟩

/-- The row of an announced shard is added if the tables take it, and nothing else changes. -/
theorem handleShardAssigned_eq (e : Announced) :
    handleShardAssigned dealId e.1 e.2.1 e.2.2 db =
      { db with shards := db.shards ++ if insertable db dealId e then [shardRow dealId e] else [] } := by
  unfold handleShardAssigned
  cases h : insertable db dealId e with
  | true =>
    rw [attempt_of_ok (insertShard_eq_ok.mpr ⟨insertable_iff.mp h, rfl⟩)]
    rfl
  | false =>
    rw [attempt_of_fails]
    · simp
    · intro db' hok
      have htrue := insertable_iff.mpr (insertShard_eq_ok.mp hok).1
      rw [h] at htrue
      cases htrue

/-- The events of one deal whose shards are with different providers: each of them is decided by the database as it
was before the first. -/
theorem handleAll_announced {es : List Announced} (hnodup : (es.map Prod.fst).Nodup) :
    handleAll d db (es.map fun e => .market (.ShardAssigned dealId e.1 e.2.1 e.2.2)) =
      { db with shards := db.shards ++ (es.filter (insertable db dealId)).map (shardRow dealId) } := by
  -- `done` holds the rows inserted so far, none of which has a provider that is still to come
  have key : ∀ (es : List Announced) (done : List ShardRow), (es.map Prod.fst).Nodup →
      (∀ r ∈ done, ∀ e ∈ es, r.key ≠ (shardRow dealId e).key) →
      handleAll d { db with shards := db.shards ++ done }
          (es.map fun e => .market (.ShardAssigned dealId e.1 e.2.1 e.2.2)) =
        { db with shards := db.shards ++ done ++ (es.filter (insertable db dealId)).map (shardRow dealId) } := by
    intro es
    induction es with
    | nil => simp
    | cons e es ih =>
      intro done hnodup hdone
      rw [List.map_cons, List.nodup_cons] at hnodup
      have hsame : insertable { db with shards := db.shards ++ done } dealId e = insertable db dealId e := by
        rw [Bool.eq_iff_iff, insertable_iff, insertable_iff]
        exact storable_append fun r hr => hdone r hr e List.mem_cons_self
      have hfirst : handle d { db with shards := db.shards ++ done }
          (.market (.ShardAssigned dealId e.1 e.2.1 e.2.2)) =
            { db with
              shards := db.shards ++ (done ++ if insertable db dealId e then [shardRow dealId e] else []) } := by
        show handleShardAssigned _ _ _ _ _ = _
        rw [handleShardAssigned_eq, hsame, List.append_assoc]
      rw [List.map_cons, handleAll_cons, hfirst, ih _ hnodup.2]
      · cases hins : insertable db dealId e <;> simp [hins]
      · intro r hr e' he' hkey
        rcases List.mem_append.mp hr with hr | hr
        · exact hdone r hr e' (List.mem_cons_of_mem _ he') hkey
        · split at hr
          · obtain rfl := List.mem_singleton.mp hr
            have hsame' : e.1 = e'.1 := toChecksum_inj (Prod.mk.inj hkey).2
            exact hnodup.1 (hsame' ▸ List.mem_map_of_mem he')
          · cases hr
  simpa using key es [] hnodup (by simp)

end Inserting

/-! ## A new deal -/

/-- The shards of `createDeal`, numbered from `i` on. -/
def numbered (i : Nat) : List (Address × String × Nat) → List Announced
  | [] => []
  | (provider, shardCID, _) :: rest => (provider, i, shardCID) :: numbered (i + 1) rest

theorem shardAssignedLogs_eq (dealId i : Nat) (shards : List (Address × String × Nat)) :
    shardAssignedLogs dealId i shards =
      (numbered i shards).map fun e => .market (.ShardAssigned dealId e.1 e.2.1 e.2.2) := by
  induction shards generalizing i with
  | nil => rfl
  | cons shard rest ih => simp [shardAssignedLogs, numbered, ih]

@[simp] theorem length_numbered (i : Nat) (shards : List (Address × String × Nat)) :
    (numbered i shards).length = shards.length := by
  induction shards generalizing i with
  | nil => rfl
  | cons shard rest ih => simp [numbered, ih]

@[simp] theorem map_fst_numbered (i : Nat) (shards : List (Address × String × Nat)) :
    (numbered i shards).map Prod.fst = shards.map Prod.fst := by
  induction shards generalizing i with
  | nil => rfl
  | cons shard rest ih => simp [numbered, ih]

theorem announced_map (dealId : Nat) (es : List Announced) :
    announced (es.map fun e => .market (.ShardAssigned dealId e.1 e.2.1 e.2.2)) = es := by
  induction es with
  | nil => rfl
  | cons e es ih => simpa [announced, Log.announces] using ih

theorem announced_token (logs : List TokenLog) : announced (logs.map .token) = [] := by
  induction logs with
  | nil => rfl
  | cons l logs ih => exact ih

/-- What `createDeal` emits: transfers, the shards, each with another provider, and the deal. -/
theorem createDeal_logs {this : Address} {s s' : System} {msg : Msg} {params : DealParams} {logs : List Log}
    (h : s.createDeal this msg params = .ok (s', logs)) :
    ∃ (paid : List TokenLog) (cost : Nat),
      logs = paid.map .token ++
          ((announced logs).map fun e => .market (.ShardAssigned s.market.dealCount e.1 e.2.1 e.2.2)) ++
          [.market (.DealCreated s.market.dealCount msg.sender params.fileSizeGB cost)] ∧
        announced logs = numbered 0 params.shards ∧ (announced logs).length = SHARDS_PER_FILE ∧
        (params.shards.map Prod.fst).Nodup := by
  simp only [System.createDeal, bind_eq_ok, require_eq_ok, Prod.exists, pure_eq_ok, Prod.mk.injEq,
    exists_const] at h
  obtain ⟨hproviders, hcids, hsizes, -, _, -, _, -, _, hchecked, cost, -, _, paid, -, _, -, _, -, _, -, _, -, -,
    rfl⟩ := h
  have hlength : params.shards.length = SHARDS_PER_FILE := by
    simp [DealParams.shards, hproviders, hcids, hsizes]
  have hannounced : announced (paid.map .token ++ shardAssignedLogs s.market.dealCount 0 params.shards ++
      [.market (.DealCreated s.market.dealCount msg.sender params.fileSizeGB cost.total)]) =
        numbered 0 params.shards := by
    rw [shardAssignedLogs_eq]
    simp only [announced, List.filterMap_append]
    rw [← announced, ← announced, announced_token, announced_map]
    simp [Log.announces]
  refine ⟨paid, cost.total, ?_, hannounced, ?_, ?_⟩
  · rw [hannounced, shardAssignedLogs_eq]
  · rw [hannounced, length_numbered, hlength]
  · rw [DealParams.shards_map_fst hproviders hcids hsizes]
    exact (checkProviders_ok hchecked).2

/-- The shards that the handlers add to those of the database. -/
theorem activeShards_append (db : Database) (dealId : Nat) (es : List Announced) :
    activeShards { db with shards := db.shards ++ es.map (shardRow dealId) } dealId =
      activeShards db dealId ++ es.map spelled := by
  have hnew : ((es.map (shardRow dealId)).filter fun r => r.dealId = toString dealId ∧ r.active = true) =
      es.map (shardRow dealId) := by
    apply List.filter_eq_self.mpr
    intro r hr
    obtain ⟨e, -, rfl⟩ := List.mem_map.mp hr
    simp [shardRow]
  have hspelled : ((es.map (shardRow dealId)).map fun r => (r.providerAddress.toLower, r.shardIndex, r.shardCid)) =
      es.map spelled := by
    rw [List.map_map]
    apply List.map_congr_left
    intro e _
    show ((toChecksum e.1).toLower, e.2.1, e.2.2) = spelled e
    rw [toLower_toChecksum]
    rfl
  unfold activeShards
  rw [List.filter_append, List.map_append, hnew, hspelled]

/-- What the events of a `createDeal` do to the database: they add the shards that can be inserted. -/
theorem handleAll_creation {this : Address} {s s' : System} {msg : Msg} {params : DealParams} {logs : List Log}
    (h : s.createDeal this msg params = .ok (s', logs)) (d : Delivery) (db : Database) :
    handleAll d db logs =
      { db with
        shards := db.shards ++ ((announced logs).filter (insertable db s.market.dealCount)).map
          (shardRow s.market.dealCount) } := by
  obtain ⟨paid, cost, hlogs, hannounced, -, hnodup⟩ := createDeal_logs h
  have hnodup' : ((announced logs).map Prod.fst).Nodup := by rwa [hannounced, map_fst_numbered]
  rw [hlogs, handleAll_append, handleAll_append, handleAll_token, ← hlogs, handleAll_announced hnodup']
  exact handleDealCreated_eq _ _ _

/-- **When a new deal reaches the database**: exactly if its active row is there already, and the active shards that
are there for it are those announced shards that the handler cannot insert. -/
theorem ingested_iff {this : Address} {s s' : System} {msg : Msg} {params : DealParams} {logs : List Log}
    (h : s.createDeal this msg params = .ok (s', logs)) (d : Delivery) (db : Database) :
    Ingested (handleAll d db logs) s.market.dealCount (announced logs) ↔
      (activeDeals db s.market.dealCount).length = 1 ∧
        (activeShards db s.market.dealCount).Perm
          (((announced logs).filter fun e => !insertable db s.market.dealCount e).map spelled) := by
  obtain ⟨-, -, -, -, hfifteen, -⟩ := createDeal_logs h
  have hdb := handleAll_creation h d db
  have hperm : ((announced logs).map spelled).Perm
      (((announced logs).filter (insertable db s.market.dealCount)).map spelled ++
        ((announced logs).filter fun e => !insertable db s.market.dealCount e).map spelled) := by
    rw [← List.map_append]
    exact ((List.filter_append_perm _ (announced logs)).symm).map spelled
  have hshards : (activeShards (handleAll d db logs) s.market.dealCount).Perm ((announced logs).map spelled) ↔
      (activeShards db s.market.dealCount).Perm
        (((announced logs).filter fun e => !insertable db s.market.dealCount e).map spelled) := by
    rw [hdb, activeShards_append, hperm.congr_right, List.perm_append_comm.congr_left, List.perm_append_left_iff]
  have hdeals : activeDeals (handleAll d db logs) s.market.dealCount = activeDeals db s.market.dealCount := by
    rw [hdb]
    rfl
  rw [← hshards, ← hdeals]
  constructor
  · intro hi
    exact ⟨hi.deal, hi.shards⟩
  · rintro ⟨hdeal, hshards'⟩
    refine ⟨hdeal, ?_, hshards'⟩
    rw [hshards'.length_eq, List.length_map, hfifteen]

/-- No handler writes the row of a deal. -/
theorem not_ingested_of_noDeals {this : Address} {s s' : System} {msg : Msg} {params : DealParams} {logs : List Log}
    (h : s.createDeal this msg params = .ok (s', logs)) (d : Delivery) {db : Database} (hnone : db.deals = []) :
    ¬ Ingested (handleAll d db logs) s.market.dealCount (announced logs) := by
  intro hingested
  have hdeal := ((ingested_iff h d db).mp hingested).1
  simp [activeDeals, hnone] at hdeal

/-! ### In the small market -/

namespace SmallMarket

/-- The client creates a deal. -/
def creation : Tx (System × List Log) := (after []).createDeal this ⟨client.addr, 0⟩ params

theorem creation_goes_through : revertOf creation = none := by decide +kernel

/-- What it leaves and emits. -/
@[irreducible] def created : System × List Log := resultOf creation creation_goes_through

theorem creation_eq_ok : creation = .ok created := by
  unfold created
  exact eq_resultOf creation_goes_through

theorem creation_eq : (after []).createDeal this ⟨client.addr, 0⟩ params = .ok (created.1, created.2) :=
  creation_eq_ok

/-- The providers register, and the listener hears of it. -/
def registered : Database :=
  handleAll ⟨0, 0⟩ {}
    ((params.selectedProviders.map fun p => RegistryLog.ProviderRegistered p "peer" "na").map .registry)

theorem registered_not_ingested :
    ¬ Ingested (handleAll ⟨0, 0⟩ registered created.2) (after []).market.dealCount (announced created.2) := by
  apply not_ingested_of_noDeals creation_eq
  exact (handleAll_registry _).deals

/-- A database in which somebody has entered the deal, and the providers as the events spell them. -/
def prepared : Database :=
  { providers := params.selectedProviders.map fun p => { address := toChecksum p }
    deals := [{ dealId := "0", clientAddress := "client", fileCid := "QmTestFile", fileSizeGb := 10,
                totalCost := 1, providerPayment := 1, protocolFee := 0 }] }

theorem dealCount_eq : (after []).market.dealCount = 0 := by decide +kernel

/-- The tables of the example take every shard of its deal. -/
theorem insertable_prepared {e : Announced} (he : e ∈ announced created.2) : insertable prepared 0 e = true := by
  obtain ⟨-, -, -, hannounced, -⟩ := createDeal_logs creation_eq
  rw [hannounced] at he
  have hall : ∀ e ∈ numbered 0 params.shards, e.1 ∈ params.selectedProviders ∧ e.2.1 < 2 ^ 31 ∧
      '\x00' ∉ e.2.2.toList := by
    decide +kernel
  obtain ⟨hprovider, hindex, hcid⟩ := hall e he
  refine insertable_iff.mpr ⟨?_, ?_, hindex, hcid, ?_, ⟨_, List.mem_singleton_self _, rfl⟩, ?_⟩
  · show (toString 0).length ≤ 20 ∧ '\x00' ∉ (toString 0).toList
    decide
  · exact ⟨(toChecksum_fits e.1).1.le, (toChecksum_fits e.1).2⟩
  · intro r hr
    cases hr
  · exact ⟨_, List.mem_map_of_mem hprovider, rfl⟩

/-- All that the deal of the example announces gets into the tables. -/
theorem ingested_prepared :
    Ingested (handleAll ⟨0, 0⟩ prepared created.2) (after []).market.dealCount (announced created.2) := by
  apply (ingested_iff creation_eq ⟨0, 0⟩ prepared).mpr
  rw [dealCount_eq]
  have hnone : ((announced created.2).filter fun e => !insertable prepared 0 e) = [] := by
    apply List.filter_eq_nil_iff.mpr
    intro e he
    simp [insertable_prepared he]
  rw [hnone]
  exact ⟨by decide, .nil⟩

end SmallMarket

end Kyneto
