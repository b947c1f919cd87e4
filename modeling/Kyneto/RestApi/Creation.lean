import Kyneto.RestApi.Basic
import Kyneto.ShardManager.RoundTrip

/-!
# Is the creation of a deal all or nothing?

`POST /api/deals/create` cuts the file into shards, selects providers, and inserts a row for the deal, a row for each
shard, with the providers in turn, and an event. There is no transaction, and an error ends the request: the rows that
are there by then stay. The primary key of the shards is the deal and the provider, so no provider can have two shards
of a deal.

`created_iff` says when the request leaves all rows or none. The rows of the query for providers are a parameter, and
so are the columns and the constraints of the tables that go beyond the primary keys: `config/database-schema.sql` lacks
some of the columns that the request names (`shipped_refuses`).

The amounts are doubles in the source. Nothing reads them here, and the database takes any of them.
-/

namespace Kyneto

open Evm Sql

/-! ## The request -/

/-- What is computed from `sizeGB`, `pricePerGBMonth` and `durationDays`. -/
structure DealAmounts where
  fileSizeGb : Nat
  storageCost : Nat
  protocolFee : Nat
  deriving DecidableEq, Repr

/-- The body of the request. -/
structure CreateRequest where
  fileCID : Option String
  clientAddress : Option String
  sizeGB : Option DealAmounts             -- with the amounts; missing if it is 0
  fallbackSize : Nat := 0                 -- `Math.ceil((sizeGB || 0.001) * 1024 ** 3)`
  fileName : Option String := none
  encrypted : Bool := false
  deriving DecidableEq, Repr

/-- A row of the query for providers: one for each active pledge of a provider, or one without a pledge. -/
structure SelectedProvider where
  address : String
  region : Option String := none
  deriving DecidableEq, Repr

/-- The tables, and the texts of the errors of the database. -/
structure DealSchema where
  dealColumns : List String
  shardColumns : List String
  dealIdLength : Nat
  paymentRequired : Bool                  -- `provider_payment` is `NOT NULL`
  message : SqlError → String

/-- The tables of `config/database-schema.sql`. -/
def DealSchema.shipped (message : SqlError → String) : DealSchema where
  dealColumns := Kyneto.dealColumns
  shardColumns := Kyneto.shardColumns
  dealIdLength := 20
  paymentRequired := true
  message

/-- Tables with all that the request needs. -/
def DealSchema.extended (message : SqlError → String) : DealSchema where
  dealColumns := Kyneto.dealColumns ++ ["duration_days", "price_per_gb_month"]
  shardColumns := Kyneto.shardColumns ++ ["shard_size_bytes", "is_data_shard"]
  dealIdLength := 24
  paymentRequired := false
  message

/-- What the handler gets from outside: the coding module, the node, the outcome of the query for providers, the time,
four random bytes as text, and the errors that the insertions end with by themselves. -/
structure CreateEnv where
  schema : DealSchema
  rs : ReedSolomonErasure
  ipfs : Ipfs String
  providers : Option (List SelectedProvider)
  now : Nat
  randomHex : String
  fails : Nat → Option SqlError

/-- The content of the answer, the amounts apart. -/
structure CreateResponse where
  dealId : String
  fileCID : String
  shardCIDs : List String
  providers : List SelectedProvider
  degradedMode : Bool
  deriving DecidableEq, Repr

inductive CreateLog where
  | refuses (status : Nat) (error : String)
  | protocolEvent (description dealId fileCID : String) (shardCount : Nat)
  | assigns (room dealId : String) (shardCIDs : List String)                   -- `shard:assigned`
  | responds (response : CreateResponse)
  deriving DecidableEq, Repr

/-- The content identifiers and sizes of the shards. -/
def shardFile (rs : ReedSolomonErasure) (ipfs : Ipfs String) (fileCID : String) :
    Except String (List (String × Nat)) := do
  let fileData ← ipfs.cat fileCID
  let allShards ← applyErasureCoding rs fileData
  allShards.mapM fun shard => do
    let cid ← ipfs.add shard
    return (cid, shard.length)

/-- If the coding fails, the file is the only shard. -/
def shardsFor (env : CreateEnv) (fileCID : String) (fallbackSize : Nat) : List (String × Nat) :=
  match shardFile env.rs env.ipfs fileCID with
  | .ok shards => shards
  | .error _ => [(fileCID, fallbackSize)]

def newDealId (env : CreateEnv) : String := s!"D-{env.now}-{env.randomHex}"

/-- Round robin, and the client where there are no providers. -/
def assignedProvider (providers : List SelectedProvider) (clientAddress : String) (i : Nat) : String :=
  match providers[i % providers.length]? with
  | some provider => provider.address
  | none => clientAddress

def shardRows (providers : List SelectedProvider) (clientAddress dealId : String) (shards : List (String × Nat)) :
    List ShardRow :=
  shards.mapIdx fun i shard =>
    { dealId, providerAddress := (assignedProvider providers clientAddress i).toLower, shardIndex := i
      shardCid := shard.1, sizeBytes := some shard.2 }

/-! ## Statements -/

/-- The row of the deal; `provider_payment` is not named by the statement. -/
def createdRow (dealId clientAddress fileCID : String) (amounts : DealAmounts) : DealRow where
  dealId
  clientAddress := clientAddress.toLower
  fileCid := fileCID
  fileSizeGb := amounts.fileSizeGb
  totalCost := amounts.storageCost
  providerPayment := 0
  protocolFee := amounts.protocolFee

namespace DealSchema

variable (schema : DealSchema)

def insertDeal (dealId clientAddress fileCID : String) (amounts : DealAmounts) (db : Database) : Query Database := do
  resolve schema.dealColumns
    ["deal_id", "client_address", "file_cid", "file_size_gb", "duration_days", "price_per_gb_month", "total_cost",
      "protocol_fee", "status", "created_at"]
  checkText "deal_id" schema.dealIdLength dealId
  checkText "client_address" 42 clientAddress.toLower
  check ('\x00' ∉ fileCID.toList) (.invalidText "file_cid")
  check (schema.paymentRequired = false) (.notNull "provider_payment")
  let deals ← insert DealRow.dealId (createdRow dealId clientAddress fileCID amounts) db.deals
  return { db with deals }

def insertShard (row : ShardRow) (db : Database) : Query Database := do
  resolve schema.shardColumns
    ["deal_id", "shard_index", "shard_cid", "shard_size_bytes", "provider_address", "is_data_shard", "active",
      "created_at"]
  checkText "deal_id" schema.dealIdLength row.dealId
  checkInteger "shard_index" row.shardIndex
  check ('\x00' ∉ row.shardCid.toList) (.invalidText "shard_cid")
  checkText "provider_address" 42 row.providerAddress
  let shards ← insert ShardRow.key row db.shards
  check (∃ d ∈ db.deals, d.dealId = row.dealId) (.foreignKey "deal_id")
  check (∃ p ∈ db.providers, p.address = row.providerAddress) (.foreignKey "provider_address")
  return { db with shards }

end DealSchema

/-- A statement, or an error of the database by itself. -/
def failing (error : Option SqlError) (statement : Database → Query Database) (db : Database) : Query Database :=
  match error with
  | some e => .error e
  | none => statement db

def createdEvent (dealId fileCID fileName : String) (shardCount providerCount : Nat) (encrypted : Bool) :
    ProtocolEvent where
  eventType := "DEAL_CREATED"
  description := s!"Deal {dealId} created: {fileName} ({shardCount} shards)"
  data := "\x7b\"dealId\":" ++ jsonString dealId ++ ",\"fileCID\":" ++ jsonString fileCID ++ ",\"shardCount\":" ++
    toString shardCount ++ ",\"providers\":" ++ toString providerCount ++ ",\"encrypted\":" ++ toString encrypted ++
    "\x7d"

/-- The insertions, in order. -/
def insertions (env : CreateEnv) (providers : List SelectedProvider) (dealId clientAddress fileCID : String)
    (amounts : DealAmounts) (shards : List (String × Nat)) (event : ProtocolEvent) :
    List (Database → Query Database) :=
  failing (env.fails 0) (env.schema.insertDeal dealId clientAddress fileCID amounts) ::
    ((shardRows providers clientAddress dealId shards).mapIdx
        (fun i row => failing (env.fails (i + 1)) (env.schema.insertShard row)) ++
      [failing (env.fails (shards.length + 1)) (ApiEnv.logEvent event)])

/-- What a provider is told of its shards. -/
def assignedMessages (providers : List SelectedProvider) (dealId : String) (shardCIDs : List String) : List CreateLog :=
  providers.map fun provider =>
    .assigns (providerRoom provider.address) dealId
      ((shardCIDs.zipIdx.filter fun x =>
        (providers[x.2 % providers.length]?).any (·.address.toLower = provider.address.toLower)).map Prod.fst)

/-- `POST /api/deals/create` -/
def createStorageDeal (env : CreateEnv) (request : CreateRequest) (db : Database) : Database × List CreateLog :=
  let fileCID := request.fileCID.getD ""
  let clientAddress := request.clientAddress.getD ""
  match request.sizeGB with
  | none => (db, [.refuses 400 "Missing required fields: fileCID, clientAddress, sizeGB"])
  | some amounts =>
    if fileCID = "" ∨ clientAddress = "" then
      (db, [.refuses 400 "Missing required fields: fileCID, clientAddress, sizeGB"])
    else
      let shards := shardsFor env fileCID request.fallbackSize
      let providers := env.providers.getD []
      let dealId := newDealId env
      let fileName := request.fileName.getD ""
      let event := createdEvent dealId fileCID (if fileName = "" then "file" else fileName) shards.length
        providers.length request.encrypted
      let statements := insertions env providers dealId clientAddress fileCID amounts shards event
      match statements.foldlM (fun db statement => statement db) db with
      | .error e => (attempt statements db, [.refuses 500 ("Failed to create deal: " ++ env.schema.message e)])
      | .ok db' =>
        (db', .protocolEvent ("New storage deal: " ++ if fileName = "" then dealId else fileName) dealId fileCID
            shards.length ::
          assignedMessages providers dealId (shards.map Prod.fst) ++
            [.responds
              { dealId, fileCID, shardCIDs := shards.map Prod.fst, providers
                degradedMode := providers.length < TOTAL_SHARDS }])

/-! ## All or nothing -/

/-- No row for the deal. -/
def NoRows (d : String) (db : Database) : Prop :=
  (∀ r ∈ db.deals, r.dealId ≠ d) ∧ ∀ r ∈ db.shards, r.dealId ≠ d

/-- One row for the deal, and one active row for each of its shards. -/
def AllRows (d : String) (db : Database) : Prop :=
  (db.deals.filter fun r => r.dealId = d).length = 1 ∧
    ∀ i < TOTAL_SHARDS, (db.shards.filter fun r => r.dealId = d ∧ r.shardIndex = i ∧ r.active = true).length = 1

instance (d : String) (db : Database) : Decidable (NoRows d db) := inferInstanceAs (Decidable (_ ∧ _))

instance (d : String) (db : Database) : Decidable (AllRows d db) := inferInstanceAs (Decidable (_ ∧ _))

/-- The request is complete, and the database takes the row of the deal. -/
structure DealAccepted (env : CreateEnv) (request : CreateRequest) : Prop where
  sizeGB : request.sizeGB ≠ none
  fileCID : request.fileCID.getD "" ≠ ""
  clientAddress : request.clientAddress.getD "" ≠ ""
  fails : env.fails 0 = none
  columns : ∀ name ∈ ["deal_id", "client_address", "file_cid", "file_size_gb", "duration_days", "price_per_gb_month",
    "total_cost", "protocol_fee", "status", "created_at"], name ∈ env.schema.dealColumns
  dealId : (newDealId env).length ≤ env.schema.dealIdLength ∧ '\x00' ∉ (newDealId env).toList
  client : (request.clientAddress.getD "").toLower.length ≤ 42 ∧ '\x00' ∉ (request.clientAddress.getD "").toLower.toList
  cid : '\x00' ∉ (request.fileCID.getD "").toList
  payment : env.schema.paymentRequired = false

/-- The row of a shard fits into the table, and its provider is registered. -/
structure DealSchema.AdmitsShard (schema : DealSchema) (providers : List ProviderRow) (row : ShardRow) : Prop where
  columns : ∀ name ∈ ["deal_id", "shard_index", "shard_cid", "shard_size_bytes", "provider_address", "is_data_shard",
    "active", "created_at"], name ∈ schema.shardColumns
  dealId : row.dealId.length ≤ schema.dealIdLength ∧ '\x00' ∉ row.dealId.toList
  index : row.shardIndex < 2 ^ 31
  cid : '\x00' ∉ row.shardCid.toList
  address : row.providerAddress.length ≤ 42 ∧ '\x00' ∉ row.providerAddress.toList
  registered : ∃ p ∈ providers, p.address = row.providerAddress

/-- The database takes the rows of the shards: there are fifteen different providers to begin with. -/
structure ShardsAccepted (env : CreateEnv) (request : CreateRequest) (shards : List (String × Nat)) (db : Database) :
    Prop where
  fails : ∀ i < TOTAL_SHARDS, env.fails (i + 1) = none
  enough : TOTAL_SHARDS ≤ (env.providers.getD []).length
  distinct : (((env.providers.getD []).take TOTAL_SHARDS).map fun provider => provider.address.toLower).Nodup
  admitted : ∀ row ∈ shardRows (env.providers.getD []) (request.clientAddress.getD "") (newDealId env) shards,
    env.schema.AdmitsShard db.providers row

/-! ## The insertions -/

section Insertions

variable {schema : DealSchema} {db db' : Database} {row : ShardRow} {error : Option SqlError}
  {statement : Database → Query Database}

theorem failing_eq_ok : failing error statement db = .ok db' ↔ error = none ∧ statement db = .ok db' := by
  cases error with
  | none => simp [failing]
  | some e => simp [failing]

/-- When the tables take a row for a shard. -/
theorem DealSchema.insertShard_eq_ok : schema.insertShard row db = .ok db' ↔
    schema.AdmitsShard db.providers row ∧ (∀ s ∈ db.shards, s.key ≠ row.key) ∧ (∃ d ∈ db.deals, d.dealId = row.dealId) ∧
      db' = { db with shards := db.shards ++ [row] } := by
  unfold DealSchema.insertShard checkText checkInteger
  simp only [bind_eq_ok, pure_eq_ok, check_eq_ok, resolve_eq_ok, insert_eq_ok]
  constructor
  · rintro ⟨_, hcolumns, _, ⟨_, hdealId⟩, _, hindex, _, hcid, _, ⟨_, haddress⟩, _, ⟨hkey, rfl⟩, _, hdeal, _,
      hprovider, rfl⟩
    exact ⟨⟨hcolumns, hdealId, hindex, hcid, haddress, hprovider⟩, hkey, hdeal, rfl⟩
  · rintro ⟨h, hkey, hdeal, rfl⟩
    exact ⟨(), h.columns, (), ⟨(), h.dealId⟩, (), h.index, (), h.cid, (), ⟨(), h.address⟩, _, ⟨hkey, rfl⟩, (), hdeal,
      (), h.registered, rfl⟩

/-- When the tables take the row of the deal. -/
theorem insertDeal_eq_ok {env : CreateEnv} {request : CreateRequest} {amounts : DealAmounts}
    (hsize : request.sizeGB = some amounts)
    (hrequest : ¬ (request.fileCID.getD "" = "" ∨ request.clientAddress.getD "" = "")) :
    failing (env.fails 0) (env.schema.insertDeal (newDealId env) (request.clientAddress.getD "")
        (request.fileCID.getD "") amounts) db = .ok db' ↔
      DealAccepted env request ∧ (∀ r ∈ db.deals, r.dealId ≠ newDealId env) ∧
        db' = { db with deals := db.deals ++
          [createdRow (newDealId env) (request.clientAddress.getD "") (request.fileCID.getD "") amounts] } := by
  rw [not_or] at hrequest
  rw [failing_eq_ok]
  unfold DealSchema.insertDeal checkText
  simp only [bind_eq_ok, pure_eq_ok, check_eq_ok, resolve_eq_ok, insert_eq_ok]
  constructor
  · rintro ⟨hfails, _, hcolumns, _, ⟨_, hdealId⟩, _, ⟨_, hclient⟩, _, hcid, _, hpayment, _, ⟨hkey, rfl⟩, rfl⟩
    exact ⟨⟨by simp [hsize], hrequest.1, hrequest.2, hfails, hcolumns, hdealId, hclient, hcid, hpayment⟩, hkey, rfl⟩
  · rintro ⟨h, hkey, rfl⟩
    exact ⟨h.fails, (), h.columns, (), ⟨(), h.dealId⟩, (), ⟨(), h.client⟩, (), h.cid, (), h.payment, _, ⟨hkey, rfl⟩,
      rfl⟩

/-- The statements from a row on: some rows are inserted, and all of them exactly if the database takes each. -/
theorem attempt_insertShards (schema : DealSchema) (last : Option SqlError) (event : ProtocolEvent)
    (rows : List (Option SqlError × ShardRow)) (db : Database)
    (hdeals : ∀ x ∈ rows, ∃ d ∈ db.deals, d.dealId = x.2.dealId) :
    ∃ m ≤ rows.length,
      let db' := attempt (rows.map (fun x => failing x.1 (schema.insertShard x.2)) ++
        [failing last (ApiEnv.logEvent event)]) db
      db'.deals = db.deals ∧ db'.shards = db.shards ++ (rows.take m).map Prod.snd ∧
        (m = rows.length ↔ (∀ x ∈ rows, x.1 = none ∧ schema.AdmitsShard db.providers x.2) ∧
          (∀ x ∈ rows, ∀ s ∈ db.shards, s.key ≠ x.2.key) ∧ (rows.map fun x => x.2.key).Nodup) := by
  induction rows generalizing db with
  | nil =>
    refine ⟨0, Nat.le_refl 0, ?_⟩
    cases last with
    | none => simp [attempt, failing, ApiEnv.logEvent]
    | some e => simp [attempt, failing]
  | cons x rows ih =>
    by_cases hx : x.1 = none ∧ schema.AdmitsShard db.providers x.2 ∧ ∀ s ∈ db.shards, s.key ≠ x.2.key
    · obtain ⟨hnone, hadmits, hkey⟩ := hx
      have hok : failing x.1 (schema.insertShard x.2) db = .ok { db with shards := db.shards ++ [x.2] } :=
        failing_eq_ok.mpr ⟨hnone, DealSchema.insertShard_eq_ok.mpr ⟨hadmits, hkey, hdeals x List.mem_cons_self, rfl⟩⟩
      obtain ⟨m, hm, hdeals', hshards', hiff⟩ := ih { db with shards := db.shards ++ [x.2] } fun y hy =>
        hdeals y (List.mem_cons_of_mem _ hy)
      refine ⟨m + 1, Nat.succ_le_succ hm, ?_⟩
      simp only [List.map_cons, List.cons_append, attempt_of_ok hok]
      refine ⟨hdeals', ?_, ?_⟩
      · rw [hshards']
        simp
      · rw [List.length_cons, Nat.add_right_cancel_iff, hiff, List.nodup_cons]
        simp only [List.forall_mem_cons, List.mem_append]
        constructor
        · rintro ⟨hall, hkeys, hnodup⟩
          refine ⟨⟨⟨hnone, hadmits⟩, hall⟩, ⟨hkey, fun y hy s hs => hkeys y hy s (Or.inl hs)⟩, ?_, hnodup⟩
          intro hmem
          obtain ⟨y, hy, heq⟩ := List.mem_map.mp hmem
          exact hkeys y hy x.2 (Or.inr (List.mem_singleton_self _)) heq.symm
        · rintro ⟨⟨-, hall⟩, ⟨-, hkeys⟩, hnotMem, hnodup⟩
          refine ⟨hall, ?_, hnodup⟩
          rintro y hy s (hs | hs) heq
          · exact hkeys y hy s hs heq
          · obtain rfl := List.mem_singleton.mp hs
            exact hnotMem (List.mem_map.mpr ⟨y, hy, heq.symm⟩)
    · refine ⟨0, Nat.zero_le _, ?_⟩
      have hfails : ∀ db', failing x.1 (schema.insertShard x.2) db ≠ .ok db' := by
        intro db' hok
        obtain ⟨hnone, hok⟩ := failing_eq_ok.mp hok
        obtain ⟨hadmits, hkey, -, -⟩ := DealSchema.insertShard_eq_ok.mp hok
        exact hx ⟨hnone, hadmits, hkey⟩
      simp only [List.map_cons, List.cons_append, attempt_of_fails hfails]
      refine ⟨trivial, by simp, ?_⟩
      constructor
      · intro hzero
        cases hzero
      · rintro ⟨hall, hkeys, -⟩
        obtain ⟨hnone, hadmits⟩ := hall x List.mem_cons_self
        exact absurd ⟨hnone, hadmits, hkeys x List.mem_cons_self⟩ hx

end Insertions

/-! ## Round robin -/

section RoundRobin

variable {providers : List SelectedProvider} {clientAddress dealId : String} {shards : List (String × Nat)}

theorem shardRows_map {α : Type} (f : ShardRow → α) (g : Nat → α)
    (h : ∀ (i : Nat) (shard : String × Nat), f
      { dealId, providerAddress := (assignedProvider providers clientAddress i).toLower, shardIndex := i
        shardCid := shard.1, sizeBytes := some shard.2 } = g i) :
    (shardRows providers clientAddress dealId shards).map f = (List.range shards.length).map g := by
  unfold shardRows
  apply List.ext_getElem
  · simp
  · intro i hi _
    simp [h]

variable (clientAddress) in
/-- No two of `k` shards in turn are with the same provider: there are at least `k` providers, and the first `k` of
them are different. -/
theorem roundRobin_nodup {k : Nat} (hk : 2 ≤ k) :
    ((List.range k).map fun i => (assignedProvider providers clientAddress i).toLower).Nodup ↔
      k ≤ providers.length ∧ ((providers.take k).map fun provider => provider.address.toLower).Nodup := by
  have hsame (h : k ≤ providers.length) :
      (List.range k).map (fun i => (assignedProvider providers clientAddress i).toLower) =
        (providers.take k).map fun provider => provider.address.toLower := by
    apply List.ext_getElem
    · simp [h]
    · intro i hi _
      have hlt : i < providers.length := Nat.lt_of_lt_of_le (by simpa using hi) h
      simp [assignedProvider, Nat.mod_eq_of_lt hlt, hlt]
  constructor
  · intro hnodup
    have hinj := List.inj_on_of_nodup_map hnodup
    have hle : k ≤ providers.length := by
      by_contra hlt
      -- the first provider, or the client, gets a second shard
      obtain ⟨j, hpos, hj, heq⟩ : ∃ j, 0 < j ∧ j < k ∧
          assignedProvider providers clientAddress j = assignedProvider providers clientAddress 0 := by
        cases hlength : providers.length with
        | zero =>
          have hnil : providers = [] := List.length_eq_zero_iff.mp hlength
          exact ⟨1, by omega, by omega, by simp [assignedProvider, hnil]⟩
        | succ n => exact ⟨n + 1, by omega, by omega, by simp [assignedProvider, hlength]⟩
      have hzero := hinj (List.mem_range.mpr hj) (List.mem_range.mpr (by omega)) (congrArg String.toLower heq)
      omega
    exact ⟨hle, hsame hle ▸ hnodup⟩
  · rintro ⟨hle, hnodup⟩
    exact (hsame hle).symm ▸ hnodup

end RoundRobin

/-! ## The request as a whole -/

section Requests

variable {env : CreateEnv} {request : CreateRequest} {db db' : Database} {shards : List (String × Nat)} {d : String}

/-- A list of results is right if each of them is. -/
theorem mapM_eq_ok {α β ε : Type} {f : α → Except ε β} {l : List α} {l' : List β} :
    l.mapM f = .ok l' ↔ List.Forall₂ (fun a b => f a = .ok b) l l' := by
  induction l generalizing l' with
  | nil => rw [List.mapM_nil, pure_eq_ok, List.forall₂_nil_left_iff]
  | cons a l ih =>
    simp only [List.mapM_cons, bind_eq_ok, pure_eq_ok, ih, List.forall₂_cons_left_iff]
    constructor
    · rintro ⟨b, hb, bs, hbs, rfl⟩
      exact ⟨b, bs, hb, hbs, rfl⟩
    · rintro ⟨b, bs, hb, hbs, rfl⟩
      exact ⟨b, hb, bs, hbs, rfl⟩

theorem shardFile_length {rs : ReedSolomonErasure} {ipfs : Ipfs String} {fileCID : String}
    (h : shardFile rs ipfs fileCID = .ok shards) : shards.length = TOTAL_SHARDS := by
  simp only [shardFile, bind_eq_ok] at h
  obtain ⟨_, -, allShards, happly, hadd⟩ := h
  obtain ⟨-, rfl⟩ := applyErasureCoding_eq_ok.mp happly
  rw [← (mapM_eq_ok.mp hadd).length_eq]
  exact length_shardsOf

/-- An error ends the statements, and what they did before it stays. -/
theorem foldlM_attempt {statements : List (Database → Query Database)}
    (h : statements.foldlM (fun db statement => statement db) db = .ok db') : attempt statements db = db' := by
  induction statements generalizing db with
  | nil => exact Except.ok.inj h
  | cons statement statements ih =>
    simp only [List.foldlM_cons, bind_eq_ok] at h
    obtain ⟨db₁, hdb₁, h⟩ := h
    rw [attempt_of_ok hdb₁, ih h]

/-- How many rows of the deal there are, after the insertion of the first `m` shards. -/
theorem allRows_iff {rows : List ShardRow} {m : Nat} (hdeals : (db'.deals.filter fun r => r.dealId = d).length = 1)
    (hshards : db'.shards = db.shards ++ rows.take m) (hnew : ∀ r ∈ db.shards, r.dealId ≠ d)
    (hrows : ∀ r ∈ rows, r.dealId = d ∧ r.active = true)
    (hindices : rows.map ShardRow.shardIndex = List.range TOTAL_SHARDS) (hm : m ≤ rows.length) :
    AllRows d db' ↔ m = rows.length := by
  have hcount : ∀ i, (db'.shards.filter fun r => r.dealId = d ∧ r.shardIndex = i ∧ r.active = true).length =
      (List.range (min m TOTAL_SHARDS)).count i := by
    intro i
    have hold : db.shards.filter (fun r => r.dealId = d ∧ r.shardIndex = i ∧ r.active = true) = [] := by
      simp only [List.filter_eq_nil_iff, decide_eq_true_eq]
      rintro r hr ⟨heq, -⟩
      exact hnew r hr heq
    have hsame : (rows.take m).filter (fun r => r.dealId = d ∧ r.shardIndex = i ∧ r.active = true) =
        (rows.take m).filter fun r => r.shardIndex = i := by
      apply List.filter_congr
      intro r hr
      simp [hrows r (List.mem_of_mem_take hr)]
    rw [hshards, List.filter_append, hold, List.nil_append, hsame, ← List.take_range, ← hindices, ← List.map_take,
      List.count_eq_countP, List.countP_map, List.countP_eq_length_filter]
    congr 1
  have htotal : rows.length = TOTAL_SHARDS := by simpa using congrArg List.length hindices
  constructor
  · rintro ⟨-, hall⟩
    by_contra hne
    have hlast := hall (TOTAL_SHARDS - 1) (by decide)
    rw [hcount, List.count_eq_zero_of_not_mem] at hlast
    · exact absurd hlast (by decide)
    · rw [List.mem_range]
      omega
  · rintro rfl
    refine ⟨hdeals, fun i hi => ?_⟩
    rw [hcount, htotal, Nat.min_self, List.count_eq_one_of_mem List.nodup_range (List.mem_range.mpr hi)]

/-- The rows of the shards with the errors that their insertions end with by themselves. -/
def faultyRows (env : CreateEnv) (request : CreateRequest) (shards : List (String × Nat)) :
    List (Option SqlError × ShardRow) :=
  (shardRows (env.providers.getD []) (request.clientAddress.getD "") (newDealId env) shards).mapIdx fun i row =>
    (env.fails (i + 1), row)

variable (env request shards) in
theorem faultyRows_snd : (faultyRows env request shards).map Prod.snd =
    shardRows (env.providers.getD []) (request.clientAddress.getD "") (newDealId env) shards := by
  unfold faultyRows
  apply List.ext_getElem
  · simp
  · intro i _ _
    simp

variable (env request shards) in
/-- The statements for the rows of the shards. -/
theorem insertShards_eq :
    (shardRows (env.providers.getD []) (request.clientAddress.getD "") (newDealId env) shards).mapIdx
        (fun i row => failing (env.fails (i + 1)) (env.schema.insertShard row)) =
      (faultyRows env request shards).map fun x => failing x.1 (env.schema.insertShard x.2) := by
  unfold faultyRows
  apply List.ext_getElem
  · simp
  · intro i _ _
    simp

theorem mem_shardRows {row : ShardRow}
    (h : row ∈ shardRows (env.providers.getD []) (request.clientAddress.getD "") (newDealId env) shards) :
    row.dealId = newDealId env ∧ row.active = true := by
  obtain ⟨i, _, rfl⟩ := List.mem_mapIdx.mp h
  exact ⟨rfl, rfl⟩

/-- When the database takes all rows of the shards of a new deal. -/
theorem shardsAccepted_iff (hlength : shards.length = TOTAL_SHARDS) (hnew : ∀ r ∈ db.shards, r.dealId ≠ newDealId env) :
    ((∀ x ∈ faultyRows env request shards, x.1 = none ∧ env.schema.AdmitsShard db.providers x.2) ∧
        (∀ x ∈ faultyRows env request shards, ∀ s ∈ db.shards, s.key ≠ x.2.key) ∧
          ((faultyRows env request shards).map fun x => x.2.key).Nodup) ↔
      ShardsAccepted env request shards db := by
  have hrows := faultyRows_snd env request shards
  have hkeys : ((faultyRows env request shards).map fun x => x.2.key).Nodup ↔
      TOTAL_SHARDS ≤ (env.providers.getD []).length ∧
        (((env.providers.getD []).take TOTAL_SHARDS).map fun provider => provider.address.toLower).Nodup := by
    rw [← roundRobin_nodup (request.clientAddress.getD "") (by decide), ← hlength]
    have hmap : ((faultyRows env request shards).map fun x => x.2.key) =
        ((List.range shards.length).map fun i =>
          (assignedProvider (env.providers.getD []) (request.clientAddress.getD "") i).toLower).map
            (newDealId env, ·) := by
      have hkey : (shardRows (env.providers.getD []) (request.clientAddress.getD "") (newDealId env) shards).map
          ShardRow.key = (List.range shards.length).map fun i => (newDealId env,
            (assignedProvider (env.providers.getD []) (request.clientAddress.getD "") i).toLower) :=
        shardRows_map ShardRow.key _ fun _ _ => rfl
      rw [List.map_map]
      refine Eq.trans ?_ hkey
      rw [← hrows, List.map_map]
      rfl
    rw [hmap]
    exact List.nodup_map_iff (Prod.mk_right_injective _)
  have hall : (∀ x ∈ faultyRows env request shards, x.1 = none ∧ env.schema.AdmitsShard db.providers x.2) ↔
      (∀ i < TOTAL_SHARDS, env.fails (i + 1) = none) ∧
        ∀ row ∈ shardRows (env.providers.getD []) (request.clientAddress.getD "") (newDealId env) shards,
          env.schema.AdmitsShard db.providers row := by
    rw [forall₂_and, ← hrows, List.forall_mem_map]
    apply and_congr_left
    intro _
    unfold faultyRows
    constructor
    · intro h i hi
      rw [← hlength] at hi
      have hlt : i <
          (shardRows (env.providers.getD []) (request.clientAddress.getD "") (newDealId env) shards).length := by
        simpa [shardRows] using hi
      exact h _ (List.mem_mapIdx.mpr ⟨i, hlt, rfl⟩)
    · intro h x hx
      obtain ⟨i, hlt, rfl⟩ := List.mem_mapIdx.mp hx
      exact h i (hlength ▸ by simpa [shardRows] using hlt)
  have hfresh : ∀ x ∈ faultyRows env request shards, ∀ s ∈ db.shards, s.key ≠ x.2.key := by
    intro x hx s hs heq
    have hrow := (mem_shardRows (hrows ▸ List.mem_map_of_mem hx)).1
    exact hnew s hs ((congrArg Prod.fst heq).trans hrow)
  rw [hall, hkeys]
  constructor
  · rintro ⟨⟨hfails, hadmitted⟩, -, henough, hdistinct⟩
    exact ⟨hfails, henough, hdistinct, hadmitted⟩
  · intro h
    exact ⟨⟨h.fails, h.admitted⟩, hfresh, h.enough, h.distinct⟩

/-- The statements of a request leave all rows or none. -/
theorem insertions_iff {amounts : DealAmounts} {event : ProtocolEvent} (hsize : request.sizeGB = some amounts)
    (hrequest : ¬ (request.fileCID.getD "" = "" ∨ request.clientAddress.getD "" = ""))
    (hlength : shards.length = TOTAL_SHARDS) (hnew : NoRows (newDealId env) db)
    (hdb' : attempt (insertions env (env.providers.getD []) (newDealId env) (request.clientAddress.getD "")
      (request.fileCID.getD "") amounts shards event) db = db') :
    NoRows (newDealId env) db' ∨ AllRows (newDealId env) db' ↔
      (DealAccepted env request → ShardsAccepted env request shards db) := by
  unfold insertions at hdb'
  by_cases haccepted : DealAccepted env request
  · rw [imp_iff_right haccepted]
    have hok := (insertDeal_eq_ok hsize hrequest).mpr ⟨haccepted, hnew.1, rfl⟩
    rw [attempt_of_ok hok] at hdb'
    have hrows := faultyRows_snd env request shards
    obtain ⟨m, hm, hdeals, hshards, hiff⟩ := attempt_insertShards env.schema (env.fails (shards.length + 1))
      event (faultyRows env request shards)
      { db with deals := db.deals ++
          [createdRow (newDealId env) (request.clientAddress.getD "") (request.fileCID.getD "") amounts] } (by
        intro x hx
        refine ⟨_, List.mem_append_right _ (List.mem_singleton_self _), ?_⟩
        exact (mem_shardRows (hrows ▸ List.mem_map_of_mem hx)).1.symm)
    rw [← insertShards_eq, hdb'] at hdeals hshards
    rw [shardsAccepted_iff hlength hnew.2] at hiff
    have hone : (db'.deals.filter fun r => r.dealId = newDealId env).length = 1 := by
      have hnone : db.deals.filter (fun r => r.dealId = newDealId env) = [] := by
        simpa using hnew.1
      rw [hdeals, List.filter_append, hnone]
      simp [createdRow]
    have hcut : (faultyRows env request shards).length =
        (shardRows (env.providers.getD []) (request.clientAddress.getD "") (newDealId env) shards).length := by
      rw [← hrows, List.length_map]
    rw [List.map_take, hrows] at hshards
    have hindices : (shardRows (env.providers.getD []) (request.clientAddress.getD "") (newDealId env) shards).map
        ShardRow.shardIndex = List.range TOTAL_SHARDS := by
      rw [shardRows_map ShardRow.shardIndex id fun _ _ => rfl, List.map_id, hlength]
    rw [← hiff, hcut, ← allRows_iff hone hshards hnew.2 (fun _ => mem_shardRows) hindices (hcut ▸ hm)]
    -- the row of the deal is there
    have hsome : ¬ NoRows (newDealId env) db' := by
      intro hnone
      obtain ⟨r, hr⟩ := List.exists_mem_of_length_pos (hone ▸ Nat.one_pos)
      exact hnone.1 r (List.mem_of_mem_filter hr) (by simpa using (List.mem_filter.mp hr).2)
    exact or_iff_right hsome
  · have hfails : ∀ db', failing (env.fails 0) (env.schema.insertDeal (newDealId env) (request.clientAddress.getD "")
        (request.fileCID.getD "") amounts) db ≠ .ok db' :=
      fun db' hok => haccepted ((insertDeal_eq_ok hsize hrequest).mp hok).1
    rw [attempt_of_fails hfails] at hdb'
    subst hdb'
    exact ⟨fun _ h => absurd h haccepted, fun _ => Or.inl hnew⟩

/-- **Creation is all or nothing** exactly if the database refuses the row of the deal, or takes the row of every
shard: no insertion fails by itself, and the rows of the query begin with fifteen different providers, all of them
registered under the address in lower case. -/
theorem created_iff (env : CreateEnv) (request : CreateRequest) (db : Database) (shards : List (String × Nat))
    (hfile : shardFile env.rs env.ipfs (request.fileCID.getD "") = .ok shards) (hnew : NoRows (newDealId env) db) :
    NoRows (newDealId env) (createStorageDeal env request db).1 ∨
        AllRows (newDealId env) (createStorageDeal env request db).1 ↔
      (DealAccepted env request → ShardsAccepted env request shards db) := by
  unfold createStorageDeal
  cases hsize : request.sizeGB with
  | none => exact ⟨fun _ h => absurd hsize h.sizeGB, fun _ => Or.inl hnew⟩
  | some amounts =>
    simp only
    split
    · next hmissing =>
      refine ⟨fun _ h => ?_, fun _ => Or.inl hnew⟩
      rcases hmissing with hmissing | hmissing
      · exact absurd hmissing h.fileCID
      · exact absurd hmissing h.clientAddress
    · next hrequest =>
      have hshards : shardsFor env (request.fileCID.getD "") request.fallbackSize = shards := by
        unfold shardsFor
        rw [hfile]
      rw [hshards]
      split
      · exact insertions_iff hsize hrequest (shardFile_length hfile) hnew rfl
      · next db' hok => exact insertions_iff hsize hrequest (shardFile_length hfile) hnew (foldlM_attempt hok)

/-- The tables of the repository refuse the row of every deal. -/
theorem shipped_refuses {message : SqlError → String} (h : env.schema = .shipped message) :
    ¬ DealAccepted env request := by
  intro haccepted
  have hpayment := haccepted.payment
  rw [h] at hpayment
  cases hpayment

end Requests

/-! ### Fifteen providers and one -/

namespace SmallApi

/-- What the coding module does to a file of zeros: the parity shards are zeros, too. -/
def zeroCoding : ReedSolomonErasure where
  encode buffer _ _ := (0, buffer)
  reconstruct buffer _ _ _ := (0, buffer)

def zeroNode : Ipfs String where
  cat _ := .ok (List.replicate 10 0)
  add _ := .ok "bafy0"

def createEnv (addresses : List String) : CreateEnv where
  schema := .extended fun _ => "duplicate key value violates unique constraint \"shards_pkey\""
  rs := zeroCoding
  ipfs := zeroNode
  providers := some (addresses.map fun address => { address })
  now := 1700000000000
  randomHex := "0a1b2c3d"
  fails _ := none

def createRequest : CreateRequest where
  fileCID := some "Qm0"
  clientAddress := some "0xAlice"
  sizeGB := some { fileSizeGb := 1, storageCost := 100, protocolFee := 3 }

def fifteen : List String :=
  ["0xa", "0xb", "0xc", "0xd", "0xe", "0xf", "0xg", "0xh", "0xi", "0xj", "0xk", "0xl", "0xm", "0xn", "0xo"]

/-- Every provider gets a shard. -/
theorem fifteenProviders_create :
    NoRows (newDealId (createEnv fifteen))
        (createStorageDeal (createEnv fifteen) createRequest { providers := fifteen.map ({ address := · }) }).1 ∨
      AllRows (newDealId (createEnv fifteen))
        (createStorageDeal (createEnv fifteen) createRequest { providers := fifteen.map ({ address := · }) }).1 := by
  refine (created_iff (createEnv fifteen) createRequest _ (List.replicate 15 ("bafy0", 1)) (by decide +kernel)
    (by decide)).mpr fun _ => ⟨by decide, by decide +kernel, by decide +kernel, ?_⟩
  have hrows : ∀ row ∈ shardRows (((createEnv fifteen).providers).getD []) (createRequest.clientAddress.getD "")
      (newDealId (createEnv fifteen)) (List.replicate 15 ("bafy0", 1)),
      (row.dealId.length ≤ 24 ∧ '\x00' ∉ row.dealId.toList) ∧ row.shardIndex < 2 ^ 31 ∧ '\x00' ∉ row.shardCid.toList ∧
        (row.providerAddress.length ≤ 42 ∧ '\x00' ∉ row.providerAddress.toList) ∧
          row.providerAddress ∈ fifteen := by
    decide +kernel
  intro row hrow
  obtain ⟨hdealId, hindex, hcid, haddress, hmem⟩ := hrows row hrow
  exact ⟨by decide, hdealId, hindex, hcid, haddress, _, List.mem_map_of_mem hmem, rfl⟩

/-- The second shard would be with the same provider: the deal stays with a single shard. -/
theorem oneProvider_leaves_part :
    shardFile zeroCoding zeroNode "Qm0" = .ok (List.replicate 15 ("bafy0", 1)) ∧
      ¬ (NoRows (newDealId (createEnv ["0xa"]))
          (createStorageDeal (createEnv ["0xa"]) createRequest { providers := [{ address := "0xa" }] }).1 ∨
        AllRows (newDealId (createEnv ["0xa"]))
          (createStorageDeal (createEnv ["0xa"]) createRequest { providers := [{ address := "0xa" }] }).1) := by
  decide +kernel

end SmallApi

end Kyneto
