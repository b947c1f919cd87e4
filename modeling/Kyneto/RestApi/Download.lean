import Kyneto.Encryption
import Kyneto.RestApi.Creation
import Kyneto.RestApi.Status

/-!
# Downloading a file

`GET /api/deals/:id/download` sends the file as long as IPFS has it. Otherwise it sends the active data shards, one
after the other: the parity shards are not asked for, the shards are not counted, and the padding stays.

`downloadsFile_iff` says for which active shards this is the file, and for which ones no more than nothing is sent.
-/

namespace Kyneto

open Evm Coding Sql

/-! ## The request -/

/-- The tables, and the IPFS node at the time of the request. `is_encrypted` is a column of the deals. -/
structure DownloadEnv where
  schema : DealSchema
  ipfs : Ipfs String
  isEncrypted : String → Bool

inductive DownloadResponse where
  | refuses (status : Nat) (error : String)
  | sends (headers : List (String × String)) (body : Bytes)
  deriving DecidableEq, Repr

/-- `res.set` throws for other values. -/
def validHeader (value : String) : Bool :=
  value.toList.all fun c => c = '\t' ∨ (0x20 ≤ c.toNat ∧ c.toNat ≤ 0xff ∧ c.toNat ≠ 0x7f)

def fileHeaders (fileCID : String) : List (String × String) :=
  [("Content-Type", "application/octet-stream"), ("Content-Disposition", s!"attachment; filename=\"{fileCID}\""),
    ("X-File-CID", fileCID)]

/-- The active data shards. `is_data_shard` is only written when a deal is created, as `i < DATA_SHARDS`. -/
def selectDataShards (schema : DealSchema) (dealId : String) (db : Database) : Query (List ShardRow) := do
  resolve schema.shardColumns ["shard_cid", "shard_index", "deal_id", "active", "is_data_shard"]
  return (db.shards.filter fun r => r.dealId = dealId ∧ r.active = true ∧ r.shardIndex < DATA_SHARDS)
    |>.insertionSort fun a b => a.shardIndex ≤ b.shardIndex

def reconstructDownload (env : DownloadEnv) (dealId : String) (deal : DealRow) (db : Database) : DownloadResponse :=
  match selectDataShards env.schema dealId db with
  | .error _ => .refuses 500 "Failed to download file"
  | .ok [] => .refuses 404 "No active shards found for this deal"
  | .ok shards =>
    match shards.mapM fun shard => env.ipfs.cat shard.shardCid with
    | .error _ => .refuses 500 "Failed to download file"
    | .ok dataShardBuffers =>
      if validHeader deal.fileCid then
        .sends (fileHeaders deal.fileCid ++ [("X-Reconstructed", "true")]) dataShardBuffers.flatten
      else .refuses 500 "Failed to download file"

/-- `GET /api/deals/:id/download` -/
def downloadFile (env : DownloadEnv) (dealId : String) (db : Database) : DownloadResponse :=
  match findDeal db dealId with
  | none => .refuses 404 "Deal not found"
  | some deal =>
    match env.ipfs.cat deal.fileCid with
    | .error _ => reconstructDownload env dealId deal db
    | .ok fileData =>
      -- an error of `res.set` is caught like one of IPFS
      if validHeader deal.fileCid then
        .sends (fileHeaders deal.fileCid ++ [("X-Encrypted", toString (env.isEncrypted dealId))]) fileData
      else reconstructDownload env dealId deal db

/-! ## Deals that were created with fifteen shards -/

/-- What is sent as reconstructed is the file, and with ten shards at hand it is sent. -/
structure DownloadsFile (response : DownloadResponse) (data : Bytes) (available : List Nat) : Prop where
  body : ∀ headers body, response = .sends headers body → ("X-Reconstructed", "true") ∈ headers → body = data
  enough : DATA_SHARDS ≤ available.length →
    ∃ headers, response = .sends headers data ∧ ("X-Reconstructed", "true") ∈ headers

/-- The request has created the deal of a file that was split into shards. The rows of shards are of deals that
there are. -/
structure CreatedDeal (env : CreateEnv) (request : CreateRequest) (db : Database) (data : Bytes)
    (shards : List (String × Nat)) : Prop where
  references : ∀ r ∈ db.shards, ∃ d ∈ db.deals, d.dealId = r.dealId
  file : env.ipfs.cat (request.fileCID.getD "") = .ok data
  shards : shardFile env.rs env.ipfs (request.fileCID.getD "") = .ok shards
  responds : ∃ response, .responds response ∈ (createStorageDeal env request db).2

/-- What a download reads of a row. -/
def ShardRow.stored (r : ShardRow) : Nat × String × Bool := (r.shardIndex, r.shardCid, r.active)

/-- The deal later on: it is of the same file, and its shards are the same, some of them active. -/
structure StillStored (dealId : String) (created db : Database) (active : Nat → Bool) : Prop where
  deal : (findDeal db dealId).map DealRow.fileCid = (findDeal created dealId).map DealRow.fileCid
  shards : ((db.shards.filter fun r => r.dealId = dealId).map ShardRow.stored).Perm
    ((created.shards.filter fun r => r.dealId = dealId).map fun r => (r.shardIndex, r.shardCid, active r.shardIndex))

/-- Contents are addressed by what they are: the node has nothing else under the identifier of a content. -/
def ContentAddressed {Cid : Type} (add : Bytes → Except String Cid) (node : Ipfs Cid) : Prop :=
  ∀ content cid, add content = .ok cid → ∀ fetched, node.cat cid = .ok fetched → fetched = content

def fetchable (node : Ipfs String) (shards : List (String × Nat)) (i : Nat) : Bool :=
  match shards[i]? with
  | some shard => (node.cat shard.1).isOk
  | none => false

def activeDataShards (active : Nat → Bool) : List Nat := (List.range DATA_SHARDS).filter active

/-- The shards that are active and can be fetched. -/
def availableIndices (node : Ipfs String) (shards : List (String × Nat)) (active : Nat → Bool) : List Nat :=
  (List.range TOTAL_SHARDS).filter fun i => active i && fetchable node shards i

/-- Data shards that are the file if they are put one after the other: nothing is padded, and each is equal to the
one whose place it takes. -/
structure MakesUp (data : Bytes) (indices : List Nat) : Prop where
  length : indices.length * shardSizeOf data.length = data.length
  inPlace : ∀ j i, indices[j]? = some i →
    block (shardSizeOf data.length) i (padded data) = block (shardSizeOf data.length) j (padded data)

/-- When the file is sent. Nothing is sent, and rightly so, if there are no active data shards, or if one of them is
lost and there are not enough shards anyway. -/
def SendsWhole (node : Ipfs String) (fileCID : String) (data : Bytes) (shards : List (String × Nat))
    (active : Nat → Bool) : Prop :=
  activeDataShards active = [] ∨
    ((∃ i ∈ activeDataShards active, fetchable node shards i = false) ∨ validHeader fileCID = false) ∧
      (availableIndices node shards active).length < DATA_SHARDS ∨
    (∀ i ∈ activeDataShards active, fetchable node shards i = true) ∧ validHeader fileCID = true ∧
      MakesUp data (activeDataShards active)

/-! ### The rows that a creation leaves -/

section Creation

variable {env : CreateEnv} {request : CreateRequest} {schema : DealSchema} {db db' : Database} {data : Bytes}
  {shards : List (String × Nat)}

/-- The rows of the shards are added one after another, and then comes the rest. -/
theorem foldlM_insertShards {rows : List (Option SqlError × ShardRow)} {rest : List (Database → Query Database)}
    (h : (rows.map (fun x => failing x.1 (schema.insertShard x.2)) ++ rest).foldlM
      (fun db statement => statement db) db = .ok db') :
    (∀ x ∈ rows, ∃ providers, schema.AdmitsShard providers x.2) ∧
      rest.foldlM (fun db statement => statement db) { db with shards := db.shards ++ rows.map Prod.snd } =
        .ok db' := by
  induction rows generalizing db with
  | nil =>
    rw [List.map_nil, List.append_nil]
    exact ⟨nofun, h⟩
  | cons x rows ih =>
    simp only [List.map_cons, List.cons_append, List.foldlM_cons, bind_eq_ok] at h
    obtain ⟨db₁, hfirst, hrest⟩ := h
    obtain ⟨hadmits, -, -, rfl⟩ := DealSchema.insertShard_eq_ok.mp (failing_eq_ok.mp hfirst).2
    obtain ⟨hall, hdb'⟩ := ih hrest
    rw [List.map_cons, List.append_cons]
    exact ⟨List.forall_mem_cons.mpr ⟨⟨_, hadmits⟩, hall⟩, hdb'⟩

/-- A request that is answered has inserted all rows. -/
theorem created_of_responds (h : CreatedDeal env request db data shards) :
    (∀ r ∈ db.deals, r.dealId ≠ newDealId env) ∧
      (∀ row ∈ shardRows (env.providers.getD []) (request.clientAddress.getD "") (newDealId env) shards,
        ∃ providers, env.schema.AdmitsShard providers row) ∧
      (∃ amounts, (createStorageDeal env request db).1.deals = db.deals ++
        [createdRow (newDealId env) (request.clientAddress.getD "") (request.fileCID.getD "") amounts]) ∧
      (createStorageDeal env request db).1.shards = db.shards ++
        shardRows (env.providers.getD []) (request.clientAddress.getD "") (newDealId env) shards := by
  obtain ⟨response, hresponds⟩ := h.responds
  have hshards : shardsFor env (request.fileCID.getD "") request.fallbackSize = shards := by
    unfold shardsFor
    rw [h.shards]
  unfold createStorageDeal at hresponds ⊢
  cases hsize : request.sizeGB with
  | none => simp [hsize] at hresponds
  | some amounts =>
    simp only [hsize, hshards] at hresponds ⊢
    split at hresponds
    · simp at hresponds
    · next hrequest =>
      rw [if_neg hrequest]
      split at hresponds
      · simp at hresponds
      · next db' hok =>
        rw [insertions, List.foldlM_cons, bind_eq_ok] at hok
        obtain ⟨db₁, hdeal, hrest⟩ := hok
        obtain ⟨-, hnew, rfl⟩ := (insertDeal_eq_ok hsize hrequest).mp hdeal
        have hrows := faultyRows_snd env request shards
        rw [insertShards_eq env request shards] at hrest
        obtain ⟨hadmits, hlast⟩ := foldlM_insertShards hrest
        rw [hrows, List.foldlM_cons, bind_eq_ok] at hlast
        obtain ⟨db₂, hevent, hdb'⟩ := hlast
        obtain ⟨-, hevent⟩ := failing_eq_ok.mp hevent
        cases hevent
        cases hdb'
        refine ⟨hnew, ?_, ⟨amounts, rfl⟩, rfl⟩
        intro row hrow
        rw [← hrows] at hrow
        obtain ⟨x, hx, rfl⟩ := List.mem_map.mp hrow
        exact hadmits x hx

end Creation

/-! ### The rows that are asked for -/

section Selection

variable {env : CreateEnv} {request : CreateRequest} {db created : Database} {data : Bytes}
  {shards : List (String × Nat)} {dealId : String} {active : Nat → Bool}

/-- The identifier of a shard's content. -/
def cidOf (shards : List (String × Nat)) (i : Nat) : String := ((shards[i]?).map Prod.fst).getD ""

/-- The rows of the deal, in the order of the shards. -/
theorem shardRows_stored (providers : List SelectedProvider) (clientAddress : String) :
    (shardRows providers clientAddress dealId shards).map
        (fun r => (r.shardIndex, r.shardCid, active r.shardIndex)) =
      (List.range shards.length).map fun i => (i, cidOf shards i, active i) := by
  apply List.ext_getElem
  · simp [shardRows]
  · intro i hi _
    have hlt : i < shards.length := by simpa [shardRows] using hi
    simp [shardRows, cidOf, List.getElem?_eq_getElem hlt]

/-- What the query returns are the active data shards, each once and in order. -/
theorem selectDataShards_eq {schema : DealSchema} {rows : List ShardRow} (hlength : shards.length = TOTAL_SHARDS)
    (hcreated : (created.shards.filter fun r => r.dealId = dealId).map
      (fun r => (r.shardIndex, r.shardCid, active r.shardIndex)) =
        (List.range shards.length).map fun i => (i, cidOf shards i, active i))
    (hlater : StillStored dealId created db active) (h : selectDataShards schema dealId db = .ok rows) :
    rows.map ShardRow.stored = (activeDataShards active).map fun i => (i, cidOf shards i, true) := by
  simp only [selectDataShards, bind_eq_ok, pure_eq_ok] at h
  obtain ⟨-, -, rfl⟩ := h
  have hdata : (List.range TOTAL_SHARDS).filter (fun i => active i && decide (i < DATA_SHARDS)) =
      activeDataShards active := by
    rw [← List.filter_filter]
    rfl
  have hfilter : (((db.shards.filter fun r => r.dealId = dealId ∧ r.active = true ∧ r.shardIndex < DATA_SHARDS).map
      ShardRow.stored)).Perm ((activeDataShards active).map fun i => (i, cidOf shards i, true)) := by
    have hsplit : (db.shards.filter fun r => r.dealId = dealId ∧ r.active = true ∧ r.shardIndex < DATA_SHARDS) =
        (db.shards.filter fun r => r.dealId = dealId).filter
          ((fun x : Nat × String × Bool => x.2.2 && decide (x.1 < DATA_SHARDS)) ∘ ShardRow.stored) := by
      rw [List.filter_filter]
      apply List.filter_congr
      intro r _
      simp only [ShardRow.stored, Function.comp_apply]
      grind
    rw [hsplit, ← List.filter_map]
    have hperm := hlater.shards.filter fun x : Nat × String × Bool => x.2.2 && decide (x.1 < DATA_SHARDS)
    rw [hcreated, hlength] at hperm
    refine hperm.trans (List.Perm.of_eq ?_)
    rw [List.filter_map, ← hdata]
    apply List.map_congr_left
    intro i hi
    have hactive : active i = true := by
      have := (List.mem_filter.mp hi).2
      simp_all
    rw [hactive]
  have hsort := List.map_insertionSort (fun a b : ShardRow => a.shardIndex ≤ b.shardIndex)
    (fun a b : Nat × String × Bool => a.1 ≤ b.1) ShardRow.stored
    (db.shards.filter fun r => r.dealId = dealId ∧ r.active = true ∧ r.shardIndex < DATA_SHARDS)
    fun a _ b _ => Iff.rfl
  rw [hsort]
  have hsorted : ((activeDataShards active).map fun i => (i, cidOf shards i, true)).Pairwise fun a b => a.1 ≤ b.1 := by
    rw [List.pairwise_map]
    exact (List.pairwise_le_range).filter _
  apply List.Perm.eq_of_pairwise _ (List.pairwise_insertionSort _ _) hsorted
  · exact (List.perm_insertionSort _ _).trans hfilter
  · -- the rows are told apart by their indices
    intro a b ha hb hab hba
    rw [List.mem_insertionSort, hfilter.mem_iff] at ha
    obtain ⟨i, -, rfl⟩ := List.mem_map.mp ha
    obtain ⟨j, -, rfl⟩ := List.mem_map.mp hb
    have hij : i = j := Nat.le_antisymm hab hba
    rw [hij]

end Selection

/-! ### The answer -/

section Answer

variable {env : CreateEnv} {request : CreateRequest} {server : DownloadEnv} {before db : Database} {data : Bytes}
  {shards : List (String × Nat)} {active : Nat → Bool} {i : Nat}

theorem fetchable_iff {node : Ipfs String} (hi : i < shards.length) :
    fetchable node shards i = true ↔ ∃ content, node.cat (cidOf shards i) = .ok content := by
  simp only [fetchable, cidOf, List.getElem?_eq_getElem hi, Option.map_some, Option.getD_some]
  cases node.cat shards[i].1 with
  | ok content => exact ⟨fun _ => ⟨content, rfl⟩, fun _ => rfl⟩
  | error e => exact ⟨nofun, nofun⟩

/-- A data shard of the deal was added to IPFS as a part of the padded file. -/
theorem add_cidOf (hrs : Systematic env.rs DATA_SHARDS PARITY_SHARDS) (h : CreatedDeal env request before data shards)
    (hi : i < DATA_SHARDS) :
    env.ipfs.add (block (shardSizeOf data.length) i (padded data)) = .ok (cidOf shards i) := by
  have hshards := h.shards
  simp only [shardFile, bind_eq_ok, h.file, Except.ok.injEq] at hshards
  obtain ⟨_, rfl, allShards, happly, hadd⟩ := hshards
  obtain ⟨hok, rfl⟩ := applyErasureCoding_eq_ok.mp happly
  have htotal : i < TOTAL_SHARDS := by unfold DATA_SHARDS TOTAL_SHARDS at *; omega
  have hall := mapM_eq_ok.mp hadd
  have hlength := hall.length_eq
  rw [length_shardsOf] at hlength
  have hat := hall.get (by rwa [length_shardsOf]) (hlength ▸ htotal)
  simp only [bind_eq_ok, pure_eq_ok] at hat
  obtain ⟨cid, hcid, hshard⟩ := hat
  have hblock : (shardsOf (shardSizeOf data.length)
      (env.rs.encode (codeBuffer data) DATA_SHARDS PARITY_SHARDS).2)[i]? =
        some (block (shardSizeOf data.length) i (padded data)) := by
    rw [getElem?_shardsOf htotal, block_encode hrs hok hi]
  rw [List.getElem?_eq_getElem (by rwa [length_shardsOf]), Option.some.injEq] at hblock
  rw [List.get_eq_getElem, hblock] at hcid
  rw [List.get_eq_getElem] at hshard
  rw [hcid, cidOf, List.getElem?_eq_getElem (hlength ▸ htotal), hshard]
  rfl

/-- The rows of a new deal are those that the request has inserted. -/
theorem stored_created (h : CreatedDeal env request before data shards) :
    ((createStorageDeal env request before).1.shards.filter fun r => r.dealId = newDealId env).map
        (fun r => (r.shardIndex, r.shardCid, active r.shardIndex)) =
      (List.range shards.length).map fun i => (i, cidOf shards i, active i) := by
  obtain ⟨hnew, -, -, hshards⟩ := created_of_responds h
  have hold : before.shards.filter (fun r => r.dealId = newDealId env) = [] := by
    simp only [List.filter_eq_nil_iff, decide_eq_true_eq]
    intro r hr heq
    obtain ⟨d, hd, hid⟩ := h.references r hr
    exact hnew d hd (hid.trans heq)
  rw [hshards, List.filter_append, hold, List.nil_append, List.filter_eq_self.mpr, shardRows_stored]
  intro row hrow
  exact decide_eq_true (mem_shardRows hrow).1

theorem findDeal_created (h : CreatedDeal env request before data shards) :
    (findDeal (createStorageDeal env request before).1 (newDealId env)).map DealRow.fileCid =
      some (request.fileCID.getD "") := by
  obtain ⟨hnew, -, ⟨amounts, hdeals⟩, -⟩ := created_of_responds h
  have hold : before.deals.find? (fun r => r.dealId = newDealId env) = none := by
    simpa using hnew
  rw [findDeal, hdeals, List.find?_append, hold]
  simp [createdRow]

/-- The columns that a download names are those of the tables. -/
theorem selectDataShards_ok (h : CreatedDeal env request before data shards) (db : Database) (dealId : String) :
    ∃ rows, selectDataShards env.schema dealId db = .ok rows := by
  obtain ⟨-, hadmits, -, -⟩ := created_of_responds h
  obtain ⟨row, hrow⟩ : ∃ row, row ∈ shardRows (env.providers.getD []) (request.clientAddress.getD "") (newDealId env)
      shards := by
    apply List.exists_mem_of_length_pos
    simp [shardRows, shardFile_length h.shards, TOTAL_SHARDS]
  obtain ⟨providers, hrow⟩ := hadmits row hrow
  have hcolumns : resolve env.schema.shardColumns ["shard_cid", "shard_index", "deal_id", "active", "is_data_shard"] =
      .ok () := by
    rw [resolve_eq_ok]
    intro name hname
    apply hrow.columns
    simp only [List.mem_cons, List.not_mem_nil, or_false] at hname ⊢
    tauto
  unfold selectDataShards
  rw [hcolumns]
  exact ⟨_, rfl⟩

section Later

variable (hrs : Systematic env.rs DATA_SHARDS PARITY_SHARDS) (hnode : ContentAddressed env.ipfs.add server.ipfs)
  (hschema : server.schema = env.schema) (h : CreatedDeal env request before data shards)
  (hlater : StillStored (newDealId env) (createStorageDeal env request before).1 db active)
  (hgone : ∀ content, server.ipfs.cat (request.fileCID.getD "") ≠ .ok content)

include hrs hnode h in
theorem cat_of_fetchable (hi : i < DATA_SHARDS) (hfetchable : fetchable server.ipfs shards i = true) :
    server.ipfs.cat (cidOf shards i) = .ok (block (shardSizeOf data.length) i (padded data)) := by
  have hlt : i < shards.length := by
    rw [shardFile_length h.shards]
    unfold DATA_SHARDS TOTAL_SHARDS at *
    omega
  obtain ⟨content, hcat⟩ := (fetchable_iff hlt).mp hfetchable
  rw [hcat, hnode _ _ (add_cidOf hrs h hi) _ hcat]

include hrs hnode hschema h hlater hgone in
/-- What the request answers. -/
theorem downloadFile_eq : downloadFile server (newDealId env) db =
    if activeDataShards active = [] then .refuses 404 "No active shards found for this deal"
    else if (∀ i ∈ activeDataShards active, fetchable server.ipfs shards i = true) ∧
        validHeader (request.fileCID.getD "") = true then
      .sends (fileHeaders (request.fileCID.getD "") ++ [("X-Reconstructed", "true")])
        ((activeDataShards active).map fun i => block (shardSizeOf data.length) i (padded data)).flatten
    else .refuses 500 "Failed to download file" := by
  have hdeal := hlater.deal
  rw [findDeal_created h, Option.map_eq_some_iff] at hdeal
  obtain ⟨deal, hfind, hcid⟩ := hdeal
  -- the file itself is gone, so the request has to put it together
  obtain ⟨e, hcat⟩ : ∃ e, server.ipfs.cat deal.fileCid = .error e := by
    cases hcat : server.ipfs.cat deal.fileCid with
    | error e => exact ⟨e, rfl⟩
    | ok content => exact absurd (hcid ▸ hcat) (hgone content)
  obtain ⟨rows, hrows⟩ := selectDataShards_ok h db (newDealId env)
  -- the query finds the rows of the active data shards, in the order of their indices
  have hstored := selectDataShards_eq (shardFile_length h.shards) (stored_created h) hlater hrows
  have hlt : ∀ i ∈ activeDataShards active, i < DATA_SHARDS := fun i hi =>
    List.mem_range.mp (List.mem_of_mem_filter hi)
  have hnil : rows = [] ↔ activeDataShards active = [] := by
    rw [← List.map_eq_nil_iff (f := ShardRow.stored), hstored, List.map_eq_nil_iff]
  have hmapM : rows.mapM (fun shard => server.ipfs.cat shard.shardCid) =
      (activeDataShards active).mapM fun i => server.ipfs.cat (cidOf shards i) := by
    have hcids := congrArg (List.mapM fun x : Nat × String × Bool => server.ipfs.cat x.2.1) hstored
    rwa [List.mapM_map, List.mapM_map] at hcids
  unfold downloadFile
  simp only [hfind, hcat]
  unfold reconstructDownload
  rw [hschema, hrows]
  -- an error of the query, no rows, or the loop over them
  split
  · next heq => cases heq
  · next heq =>
    cases heq
    rw [if_pos (hnil.mp rfl)]
  · next hne heq =>
    cases heq
    rw [if_neg fun h => hne (hnil.mpr h), hmapM, hcid]
    by_cases hall : ∀ i ∈ activeDataShards active, fetchable server.ipfs shards i = true
    -- every shard gives its block of the padded file
    · have hok : (activeDataShards active).mapM (fun i => server.ipfs.cat (cidOf shards i)) =
          .ok ((activeDataShards active).map fun i => block (shardSizeOf data.length) i (padded data)) := by
        rw [mapM_eq_ok, List.forall₂_map_right_iff, List.forall₂_same]
        intro i hi
        exact cat_of_fetchable hrs hnode h (hlt i hi) (hall i hi)
      rw [hok]
      by_cases hheader : validHeader (request.fileCID.getD "") = true
      · rw [if_pos ⟨hall, hheader⟩]
        simp [hheader]
      · rw [if_neg fun h => hheader h.2]
        simp [hheader]
    -- the loop stops at the first shard that cannot be fetched
    · obtain ⟨e, herror⟩ : ∃ e, (activeDataShards active).mapM (fun i => server.ipfs.cat (cidOf shards i)) =
          .error e := by
        cases hmapM : (activeDataShards active).mapM fun i => server.ipfs.cat (cidOf shards i) with
        | error e => exact ⟨e, rfl⟩
        | ok contents =>
          exfalso
          apply hall
          intro i hi
          obtain ⟨j, hj, rfl⟩ := List.mem_iff_getElem.mp hi
          have hcat := (mapM_eq_ok.mp hmapM).get hj ((mapM_eq_ok.mp hmapM).length_eq ▸ hj)
          rw [fetchable_iff]
          · exact ⟨_, hcat⟩
          · have := hlt _ hi
            rw [shardFile_length h.shards]
            unfold DATA_SHARDS TOTAL_SHARDS at *
            omega
      rw [herror, if_neg fun h => hall h.1]

end Later

end Answer

/-! ### The body of the answer -/

section Body

variable {data : Bytes} {node : Ipfs String} {shards : List (String × Nat)} {active : Nat → Bool}

/-- What is sent is the file. -/
theorem flatten_eq_iff : ((activeDataShards active).map fun i =>
    block (shardSizeOf data.length) i (padded data)).flatten = data ↔ MakesUp data (activeDataShards active) := by
  have hlen : (padded data).length = DATA_SHARDS * shardSizeOf data.length := by
    rw [length_padded, Nat.mul_comm]
  have hlt : ∀ i ∈ activeDataShards active, i < DATA_SHARDS := fun i hi =>
    List.mem_range.mp (List.mem_of_mem_filter hi)
  have hle : (activeDataShards active).length ≤ DATA_SHARDS := by
    simpa [activeDataShards] using List.length_filter_le active (List.range DATA_SHARDS)
  have hbytes := length_flatten_blocks hlen hlt
  have htake : (padded data).take data.length = data := List.take_left
  constructor
  · intro h
    rw [h] at hbytes
    refine ⟨hbytes.symm, (flatten_blocks_eq_iff hlen hlt hle).mp ?_⟩
    rw [h, ← hbytes, htake]
  · intro h
    rw [(flatten_blocks_eq_iff hlen hlt hle).mpr h.inPlace, h.length, htake]

/-- Without data shards there are no ten shards. -/
theorem length_available_of_nil (h : activeDataShards active = []) :
    (availableIndices node shards active).length < DATA_SHARDS := by
  have hsub : availableIndices node shards active ⊆ List.range' DATA_SHARDS PARITY_SHARDS := by
    intro i hi
    obtain ⟨hrange, havailable⟩ := List.mem_filter.mp hi
    rw [Bool.and_eq_true] at havailable
    rw [List.mem_range'_1]
    constructor
    · by_contra hdata
      have hmem : i ∈ activeDataShards active :=
        List.mem_filter.mpr ⟨List.mem_range.mpr (Nat.lt_of_not_le hdata), havailable.1⟩
      rw [h] at hmem
      cases hmem
    · exact List.mem_range.mp hrange
  have hnodup : (availableIndices node shards active).Nodup := List.nodup_range.filter _
  exact Nat.lt_of_le_of_lt (hnodup.subperm hsub).length_le (by decide)

end Body

/-- **What a download reconstructs is the file, and it is sent as long as ten shards are at hand, exactly if the
active data shards make up the file, or nothing can be expected.** -/
theorem downloadsFile_iff {env : CreateEnv} {request : CreateRequest} {server : DownloadEnv} {before db : Database}
    {data : Bytes} {shards : List (String × Nat)} {active : Nat → Bool}
    (hrs : Systematic env.rs DATA_SHARDS PARITY_SHARDS) (hnode : ContentAddressed env.ipfs.add server.ipfs)
    (hschema : server.schema = env.schema) (h : CreatedDeal env request before data shards)
    (hlater : StillStored (newDealId env) (createStorageDeal env request before).1 db active)
    (hgone : ∀ content, server.ipfs.cat (request.fileCID.getD "") ≠ .ok content) :
    DownloadsFile (downloadFile server (newDealId env) db) data (availableIndices server.ipfs shards active) ↔
      SendsWhole server.ipfs (request.fileCID.getD "") data shards active := by
  rw [downloadFile_eq hrs hnode hschema h hlater hgone]
  split
  · next hnil =>
    refine ⟨fun _ => .inl hnil, fun _ => ⟨nofun, fun henough => ?_⟩⟩
    exact absurd henough (Nat.not_le.mpr (length_available_of_nil hnil))
  · next hnil =>
    split
    · next hsent =>
      obtain ⟨hall, hheader⟩ := hsent
      have hbody := @flatten_eq_iff data active
      constructor
      · intro hdownload
        refine .inr (.inr ⟨hall, hheader, hbody.mp ?_⟩)
        exact hdownload.body _ _ rfl (by simp)
      · rintro (hnone | ⟨hlost | hinvalid, -⟩ | ⟨-, -, hmakesUp⟩)
        · exact absurd hnone hnil
        · obtain ⟨i, hi, hlost⟩ := hlost
          rw [hall i hi] at hlost
          cases hlost
        · rw [hheader] at hinvalid
          cases hinvalid
        · rw [hbody.mpr hmakesUp]
          refine ⟨?_, fun _ => ⟨_, rfl, by simp⟩⟩
          intro headers body heq _
          cases heq
          rfl
    · next hrefused =>
      constructor
      · intro hdownload
        refine .inr (.inl ⟨?_, ?_⟩)
        · by_contra hnone
          apply hrefused
          simpa using hnone
        · by_contra henough
          obtain ⟨headers, heq, -⟩ := hdownload.enough (Nat.le_of_not_lt henough)
          cases heq
      · rintro (hnone | ⟨-, hfew⟩ | ⟨hall, hheader, -⟩)
        · exact absurd hnone hnil
        · exact ⟨nofun, fun henough => absurd henough (Nat.not_le.mpr hfew)⟩
        · exact absurd ⟨hall, hheader⟩ hrefused

/-! ### Ten bytes -/

namespace SmallDownload

open SmallApi KynetoEncrypt

/-- Contents are identified by their digits. The file has an identifier of its own. -/
def node (file : Except String Bytes) : Ipfs String where
  cat cid := if cid = "Qm0" then file else .ok (hexToArray cid)
  add content := .ok (arrayToHex content)

def file : Bytes := List.replicate 10 0

def env : CreateEnv := { createEnv fifteen with ipfs := node (.ok file) }

def server : DownloadEnv where
  schema := env.schema
  ipfs := node (.error "block was not found locally (offline): ipld: could not find Qm0")
  isEncrypted _ := true

def before : Database := { providers := fifteen.map ({ address := · }) }

def shards : List (String × Nat) := List.replicate 15 ("00", 1)

def created : Database := (createStorageDeal env createRequest before).1

def later (active : Nat → Bool) : Database :=
  { created with shards := created.shards.map fun r => { r with active := active r.shardIndex } }

theorem zeroCoding_systematic : Systematic zeroCoding DATA_SHARDS PARITY_SHARDS :=
  ⟨fun _ _ _ _ => rfl, fun _ _ _ _ _ _ => rfl⟩

theorem contentAddressed : ContentAddressed env.ipfs.add server.ipfs := by
  intro content cid hadd fetched hcat
  cases hadd
  simp only [server, node] at hcat
  split at hcat
  · cases hcat
  · rw [hexToArray_arrayToHex] at hcat
    exact (Except.ok.inj hcat).symm

theorem responds_of_any {logs : List CreateLog} (h : logs.any (fun log => log matches .responds _) = true) :
    ∃ response, .responds response ∈ logs := by
  obtain ⟨log, hlog, hresponds⟩ := List.any_eq_true.mp h
  cases log with
  | responds response => exact ⟨response, hlog⟩
  | _ => cases hresponds

theorem createdDeal : CreatedDeal env createRequest before file shards where
  references := nofun
  file := by decide +kernel
  shards := by decide +kernel
  responds := responds_of_any (by decide +kernel)

theorem stillStored (active : Nat → Bool) : StillStored (newDealId env) created (later active) active where
  deal := rfl
  shards := by
    apply List.Perm.of_eq
    rw [later, List.filter_map, List.map_map]
    rfl

theorem gone (content : Bytes) : server.ipfs.cat "Qm0" ≠ .ok content := nofun

/-- With all shards there, the file is put together. -/
theorem allShards_download : DownloadsFile (downloadFile server (newDealId env) (later fun _ => true)) file
    (availableIndices server.ipfs shards fun _ => true) := by
  apply (downloadsFile_iff zeroCoding_systematic contentAddressed rfl createdDeal (stillStored fun _ => true) gone).mpr
  refine .inr (.inr ⟨by decide +kernel, by decide +kernel, by decide +kernel, ?_⟩)
  intro j i hi
  have hrange : (List.range DATA_SHARDS)[j]? = some i := hi
  obtain ⟨hlt, hij⟩ := List.getElem?_eq_some_iff.mp hrange
  rw [List.getElem_range] at hij
  rw [hij]

/-- Without the last data shard, nine bytes are sent as the file, although fourteen shards are at hand. -/
theorem nine_bytes_sent :
    (availableIndices server.ipfs shards fun i => i ≠ 9).length = 14 ∧
      downloadFile server (newDealId env) (later fun i => i ≠ 9) =
        .sends (fileHeaders "Qm0" ++ [("X-Reconstructed", "true")]) (List.replicate 9 0) ∧
      ¬ DownloadsFile (downloadFile server (newDealId env) (later fun i => i ≠ 9)) file
        (availableIndices server.ipfs shards fun i => i ≠ 9) := by
  have hsends : downloadFile server (newDealId env) (later fun i => i ≠ 9) =
      .sends (fileHeaders "Qm0" ++ [("X-Reconstructed", "true")]) (List.replicate 9 0) := by
    decide +kernel
  refine ⟨by decide +kernel, hsends, fun h => ?_⟩
  have hbody := h.body _ _ hsends (by decide)
  exact absurd hbody (by decide)

end SmallDownload

end Kyneto
