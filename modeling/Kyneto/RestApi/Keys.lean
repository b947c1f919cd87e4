import Kyneto.BlockchainListener.Basic
import Kyneto.RestApi.Creation
import Mathlib.Logic.Function.Basic

/-!
# The keys of encrypted files

`POST /api/deals/:dealId/key` writes the wrapped key of a file to the row of the deal, if the signer is its client, and
reports success whether or not there is such a row. `GET /api/deals/:dealId/key` reads the key back.

The row has to have the address of the client in small letters. Deals that are made with the API have it so; the
listener writes the address as the chain library spells it, with the capitals of the checksum. `keyKept_iff` says which
keys can be read back.

The columns for the key are kept by the id of the deal, which is the primary key of the table. No `INSERT` names them.
-/

namespace Kyneto

open Evm Sql

/-! ## Requests -/

/-- A field of the body: nothing, a text, or any other value, of which the database driver makes a text. -/
inductive BodyValue where
  | missing
  | text (s : String)
  | other (truthy : Bool) (prepared : String)
  deriving DecidableEq, Repr

def BodyValue.truthy : BodyValue → Bool
  | .missing => false
  | .text s => s ≠ ""
  | .other truthy _ => truthy

/-- What is sent to the database. -/
def BodyValue.prepared : BodyValue → String
  | .missing => ""
  | .text s => s
  | .other _ prepared => prepared

structure KeyRequest where
  dealId : String
  encryptedKey : BodyValue
  encryptionIv : BodyValue
  encryptionAuthTag : BodyValue
  clientAddress : BodyValue
  signature : BodyValue
  deriving DecidableEq, Repr

/-- The answer to a `POST`. -/
inductive StoreAnswer where
  | refuses (status : Nat) (error : String)
  | stored (dealId : String)                      -- `Encryption key stored`
  deriving DecidableEq, Repr

/-- The answer to a `GET`. -/
inductive KeyAnswer where
  | refuses (status : Nat) (error : String)
  | unencrypted
  | key (encryptedKey encryptionIv encryptionAuthTag : Option String) (clientAddress : String)
  deriving DecidableEq, Repr

/-! ## The tables -/

/-- The columns of `deals` that are about the key. -/
structure KeyColumns where
  isEncrypted : Option Bool := some true
  encryptedKey : Option String := none
  encryptionIv : Option String := none
  encryptionAuthTag : Option String := none
  deriving DecidableEq, Repr

/-- The database, with the columns for the keys. -/
structure KeyStore where
  db : Database := {}
  keys : String → KeyColumns := fun _ => {}

/-- The tables, and whether `file_cid` and `protocol_fee` are `NOT NULL` as well. -/
structure KeySchema extends DealSchema where
  contentRequired : Bool

def KeySchema.shipped (message : SqlError → String) : KeySchema :=
  { DealSchema.shipped message with contentRequired := true }

/-- Tables that take the rows of the listener, too. -/
def KeySchema.extended (message : SqlError → String) : KeySchema :=
  { DealSchema.extended message with contentRequired := false }

/-- `ethers.verifyMessage`: the account that signed the message, or an exception. -/
structure KeyEnv where
  schema : KeySchema
  verifyMessage : (message : String) → (signature : BodyValue) → Option Address

def checkParameter (column s : String) : Query Unit := check ('\x00' ∉ s.toList) (.invalidText column)

namespace KeySchema

variable (schema : KeySchema)

/-- The `INSERT` of `handleDealCreated`. The columns that it does not name are null, and nothing here reads them. -/
def insertListed (blockNumber dealId : Nat) (client : Address) (fileSizeGB totalCost : Nat) (db : Database) :
    Query Database := do
  resolve schema.dealColumns
    ["deal_id", "client_address", "file_size_gb", "total_cost", "status", "created_at", "block_number"]
  checkText "deal_id" schema.dealIdLength (toString dealId)
  checkText "client_address" 42 (toChecksum client)
  check (schema.contentRequired = false) (.notNull "file_cid")
  check (schema.paymentRequired = false) (.notNull "provider_payment")
  let row : DealRow :=
    { dealId := toString dealId, clientAddress := toChecksum client, fileCid := "", fileSizeGb := fileSizeGB
      totalCost, providerPayment := 0, protocolFee := 0, blockNumber := some blockNumber }
  let deals ← insert DealRow.dealId row db.deals
  return { db with deals }

/-- `UPDATE deals SET is_encrypted = true, … WHERE deal_id = $4 AND client_address = $5` -/
def storeKey (encryptedKey encryptionIv encryptionAuthTag dealId clientAddress : String) (s : KeyStore) :
    Query KeyStore := do
  resolve schema.dealColumns
    ["is_encrypted", "encrypted_key", "encryption_iv", "encryption_auth_tag", "deal_id", "client_address"]
  checkParameter "encrypted_key" encryptedKey
  checkParameter "encryption_iv" encryptionIv
  checkParameter "encryption_auth_tag" encryptionAuthTag
  checkParameter "deal_id" dealId
  checkParameter "client_address" clientAddress
  let columns : KeyColumns :=
    { isEncrypted := some true, encryptedKey := some encryptedKey, encryptionIv := some encryptionIv
      encryptionAuthTag := some encryptionAuthTag }
  return if ∃ r ∈ s.db.deals, r.dealId = dealId ∧ r.clientAddress = clientAddress then
      { s with keys := Function.update s.keys dealId columns }
    else s

/-- `SELECT …, client_address FROM deals WHERE deal_id = $1`: the row, if there is one. -/
def selectKey (dealId : String) (s : KeyStore) : Query (Option (KeyColumns × String)) := do
  resolve schema.dealColumns
    ["encrypted_key", "encryption_iv", "encryption_auth_tag", "is_encrypted", "client_address", "deal_id"]
  checkParameter "deal_id" dealId
  return (s.db.deals.find? fun r => r.dealId = dealId).map fun r => (s.keys dealId, r.clientAddress)

end KeySchema

/-! ## Handlers -/

/-- `verifySignature`: an address that is no text throws, and so may `verifyMessage`. -/
def verifySignature (env : KeyEnv) (message : String) (signature expectedAddress : BodyValue) : Bool :=
  match env.verifyMessage message signature, expectedAddress with
  | some recovered, .text address => (toChecksum recovered).toLower = address.toLower
  | _, _ => false

def keyMessage (dealId : String) : String := s!"store-key-{dealId}"

/-- `POST /api/deals/:dealId/key` -/
def storeKey (env : KeyEnv) (request : KeyRequest) (s : KeyStore) : KeyStore × StoreAnswer :=
  if ¬ request.clientAddress.truthy ∨ ¬ request.signature.truthy then
    (s, .refuses 400 "client_address and signature required")
  else if ¬ request.encryptedKey.truthy ∨ ¬ request.encryptionIv.truthy ∨ ¬ request.encryptionAuthTag.truthy then
    (s, .refuses 400 "Missing required encryption fields")
  else if ¬ verifySignature env (keyMessage request.dealId) request.signature request.clientAddress then
    (s, .refuses 401 "Invalid signature")
  else
    match env.schema.storeKey request.encryptedKey.prepared request.encryptionIv.prepared
        request.encryptionAuthTag.prepared request.dealId request.clientAddress.prepared.toLower s with
    | .ok s' => (s', .stored request.dealId)
    | .error _ => (s, .refuses 500 "Internal server error")

/-- `GET /api/deals/:dealId/key` -/
def getKey (env : KeyEnv) (dealId : String) (s : KeyStore) : KeyAnswer :=
  match env.schema.selectKey dealId s with
  | .error _ => .refuses 500 "Internal server error"
  | .ok none => .refuses 404 "Deal not found"
  | .ok (some (columns, clientAddress)) =>
    if columns.isEncrypted ≠ some true ∨ columns.encryptedKey.getD "" = "" then .unencrypted
    else .key columns.encryptedKey columns.encryptionIv columns.encryptionAuthTag clientAddress

/-- What writes to the table of deals. -/
inductive KeyEvent where
  | create (env : CreateEnv) (request : CreateRequest)
  | dealCreated (blockNumber dealId : Nat) (client : Address) (fileSizeGB totalCost : Nat)
  | storeKey (request : KeyRequest)

def KeyStore.step (env : KeyEnv) (s : KeyStore) : KeyEvent → Tx (KeyStore × List Unit)
  | .create createEnv request =>
    .ok ({ s with
      db := (createStorageDeal { createEnv with schema := env.schema.toDealSchema } request s.db).1 }, [])
  | .dealCreated blockNumber dealId client fileSizeGB totalCost =>
    .ok ({ s with db := attempt [env.schema.insertListed blockNumber dealId client fileSizeGB totalCost] s.db }, [])
  | .storeKey request => .ok ((storeKey env request s).1, [])

/-! ## Keys that can be read back -/

/-- The key can be read as the request has it. -/
def Returns (env : KeyEnv) (request : KeyRequest) (s : KeyStore) : Prop :=
  ∃ encryptedKey encryptionIv encryptionAuthTag clientAddress,
    request.encryptedKey = .text encryptedKey ∧ request.encryptionIv = .text encryptionIv ∧
      request.encryptionAuthTag = .text encryptionAuthTag ∧
        getKey env request.dealId s =
          .key (some encryptedKey) (some encryptionIv) (some encryptionAuthTag) clientAddress

/-- If the request succeeds, then the key can be read after it. -/
def KeyKept (env : KeyEnv) (s : KeyStore) (request : KeyRequest) : Prop :=
  (storeKey env request s).2 = .stored request.dealId → Returns env request (storeKey env request s).1

/-- The request is complete, signed by the account that it names, and no parameter is refused by the database. -/
structure KeyAccepted (env : KeyEnv) (request : KeyRequest) : Prop where
  authorization : request.clientAddress.truthy = true ∧ request.signature.truthy = true
  fields : request.encryptedKey.truthy = true ∧ request.encryptionIv.truthy = true ∧
    request.encryptionAuthTag.truthy = true
  signed : verifySignature env (keyMessage request.dealId) request.signature request.clientAddress = true
  columns : ∀ name ∈ ["is_encrypted", "encrypted_key", "encryption_iv", "encryption_auth_tag", "deal_id",
    "client_address"], name ∈ env.schema.dealColumns
  parameters : ∀ s ∈ [request.encryptedKey.prepared, request.encryptionIv.prepared, request.encryptionAuthTag.prepared,
    request.dealId, request.clientAddress.prepared.toLower], '\x00' ∉ s.toList

/-- The deal is there, and its row has the address of the request in small letters. -/
def OwnDeal (s : KeyStore) (request : KeyRequest) : Prop :=
  ∃ r ∈ s.db.deals, r.dealId = request.dealId ∧ r.clientAddress = request.clientAddress.prepared.toLower

instance (s : KeyStore) (request : KeyRequest) : Decidable (OwnDeal s request) :=
  inferInstanceAs (Decidable (∃ r ∈ s.db.deals, _))

def BodyValue.IsText (v : BodyValue) : Prop := ∃ s, v = .text s

/-- Key, initialization vector and tag are texts. -/
structure TextFields (request : KeyRequest) : Prop where
  encryptedKey : request.encryptedKey.IsText
  encryptionIv : request.encryptionIv.IsText
  encryptionAuthTag : request.encryptionAuthTag.IsText

/-- Who has made a row, and how the address of the client is spelled in it. -/
inductive MadeBy (as : List KeyEvent) (row : DealRow) : Prop where
  | api (env : CreateEnv) (request : CreateRequest) (event : .create env request ∈ as)
      (dealId : row.dealId = newDealId env) (client : row.clientAddress = (request.clientAddress.getD "").toLower)
  | listener (blockNumber id : Nat) (account : Address) (fileSizeGB totalCost : Nat)
      (event : .dealCreated blockNumber id account fileSizeGB totalCost ∈ as)
      (dealId : row.dealId = toString id) (client : row.clientAddress = toChecksum account)

section Requests

variable {env : KeyEnv} {request : KeyRequest} {s : KeyStore}

/-- The columns that the request asks for. -/
def KeyRequest.columns (request : KeyRequest) : KeyColumns where
  isEncrypted := some true
  encryptedKey := some request.encryptedKey.prepared
  encryptionIv := some request.encryptionIv.prepared
  encryptionAuthTag := some request.encryptionAuthTag.prepared

/-- What a request does that is accepted. -/
def KeyStore.stored (s : KeyStore) (request : KeyRequest) : KeyStore :=
  if OwnDeal s request then { s with keys := Function.update s.keys request.dealId request.columns } else s

/-- When the UPDATE goes through, and what it writes. -/
theorem storeKey_eq_ok {s' : KeyStore} :
    env.schema.storeKey request.encryptedKey.prepared request.encryptionIv.prepared request.encryptionAuthTag.prepared
        request.dealId request.clientAddress.prepared.toLower s = .ok s' ↔
      (∀ name ∈ ["is_encrypted", "encrypted_key", "encryption_iv", "encryption_auth_tag", "deal_id",
        "client_address"], name ∈ env.schema.dealColumns) ∧
      (∀ s ∈ [request.encryptedKey.prepared, request.encryptionIv.prepared, request.encryptionAuthTag.prepared,
        request.dealId, request.clientAddress.prepared.toLower], '\x00' ∉ s.toList) ∧ s' = s.stored request := by
  simp only [KeySchema.storeKey, checkParameter, bind_eq_ok, pure_eq_ok, check_eq_ok, resolve_eq_ok]
  constructor
  · rintro ⟨_, hcolumns, _, hkey, _, hiv, _, htag, _, hid, _, hclient, rfl⟩
    refine ⟨hcolumns, ?_, rfl⟩
    simpa using ⟨hkey, hiv, htag, hid, hclient⟩
  · rintro ⟨hcolumns, hparameters, rfl⟩
    simp only [List.forall_mem_cons] at hparameters
    obtain ⟨hkey, hiv, htag, hid, hclient, -⟩ := hparameters
    exact ⟨(), hcolumns, (), hkey, (), hiv, (), htag, (), hid, (), hclient, rfl⟩

/-- A signature is accepted if its account is the address, in whatever letters the address is written. -/
theorem verifySignature_eq_true {message : String} {signature address : BodyValue} :
    verifySignature env message signature address = true ↔ ∃ account text,
      env.verifyMessage message signature = some account ∧ address = .text text ∧
        text.toLower = hexAddress account := by
  unfold verifySignature
  split
  · next account text hrecovers =>
    rw [decide_eq_true_eq, toLower_toChecksum]
    constructor
    · intro h
      exact ⟨account, text, hrecovers, rfl, h.symm⟩
    · rintro ⟨_, _, hother, htext, h⟩
      obtain rfl := Option.some.inj (hrecovers.symm.trans hother)
      obtain rfl := BodyValue.text.inj htext
      exact h.symm
  · next hnone =>
    constructor
    · nofun
    · rintro ⟨account, text, hrecovers, rfl, -⟩
      exact absurd rfl (hnone account text hrecovers)

/-- Whether a request succeeds does not depend on the rows. -/
theorem storeKey_of_accepted (h : KeyAccepted env request) :
    storeKey env request s = (s.stored request, .stored request.dealId) := by
  have hok := (storeKey_eq_ok (s := s)).mpr ⟨h.columns, h.parameters, rfl⟩
  unfold storeKey
  rw [if_neg (by simp [h.authorization]), if_neg (by simp [h.fields]), if_neg (by simp [h.signed]), hok]

/-- What is stored was accepted. -/
theorem accepted_of_stored (h : (storeKey env request s).2 = .stored request.dealId) : KeyAccepted env request := by
  unfold storeKey at h
  split at h
  · cases h
  · next hauthorization =>
    split at h
    · cases h
    · next hfields =>
      split at h
      · cases h
      · next hsigned =>
        split at h
        · next s' hok =>
          obtain ⟨hcolumns, hparameters, -⟩ := storeKey_eq_ok.mp hok
          exact ⟨by simpa using hauthorization, by simpa using hfields, by simpa using hsigned, hcolumns, hparameters⟩
        · cases h

/-- What is read from a row, where the columns are there. -/
theorem getKey_eq (h : KeyAccepted env request) (s : KeyStore) : getKey env request.dealId s =
    match s.db.deals.find? fun r => r.dealId = request.dealId with
    | none => .refuses 404 "Deal not found"
    | some r =>
      if (s.keys request.dealId).isEncrypted ≠ some true ∨ (s.keys request.dealId).encryptedKey.getD "" = "" then
        .unencrypted
      else .key (s.keys request.dealId).encryptedKey (s.keys request.dealId).encryptionIv
        (s.keys request.dealId).encryptionAuthTag r.clientAddress := by
  have hselect : env.schema.selectKey request.dealId s =
      .ok ((s.db.deals.find? fun r => r.dealId = request.dealId).map fun r =>
        (s.keys request.dealId, r.clientAddress)) := by
    simp only [KeySchema.selectKey, checkParameter, bind_eq_ok, pure_eq_ok, check_eq_ok, resolve_eq_ok]
    refine ⟨(), ?_, (), h.parameters request.dealId (by simp), trivial⟩
    intro name hname
    apply h.columns
    simp only [List.mem_cons, List.not_mem_nil, or_false] at hname ⊢
    tauto
  unfold getKey
  rw [hselect]
  cases s.db.deals.find? fun r => r.dealId = request.dealId with
  | none => rfl
  | some r => rfl

/-- On the row of the signer, the key can be read back exactly if it is text. -/
theorem returns_stored_iff (h : KeyAccepted env request) (hown : OwnDeal s request) :
    Returns env request (s.stored request) ↔ TextFields request := by
  have hstored : s.stored request = { s with keys := Function.update s.keys request.dealId request.columns } :=
    if_pos hown
  obtain ⟨r, hr, hid, -⟩ := hown
  have hfind : ∃ row, s.db.deals.find? (fun r => r.dealId = request.dealId) = some row :=
    Option.isSome_iff_exists.mp (List.find?_isSome.mpr ⟨r, hr, by simpa using hid⟩)
  obtain ⟨row, hrow⟩ := hfind
  constructor
  · rintro ⟨encryptedKey, encryptionIv, encryptionAuthTag, -, hkey, hiv, htag, -⟩
    exact ⟨⟨encryptedKey, hkey⟩, ⟨encryptionIv, hiv⟩, ⟨encryptionAuthTag, htag⟩⟩
  · rintro ⟨⟨encryptedKey, hkey⟩, ⟨encryptionIv, hiv⟩, ⟨encryptionAuthTag, htag⟩⟩
    refine ⟨encryptedKey, encryptionIv, encryptionAuthTag, row.clientAddress, hkey, hiv, htag, ?_⟩
    have hne : encryptedKey ≠ "" := by
      have htruthy := h.fields.1
      rw [hkey] at htruthy
      simpa [BodyValue.truthy] using htruthy
    rw [getKey_eq h, hstored]
    dsimp only
    rw [hrow]
    simp [KeyRequest.columns, hkey, hiv, htag, BodyValue.prepared, hne]

/-- For one state: the key is kept exactly if it arrives as text at the row of its own deal, or is there
already. -/
theorem keyKept_iff_of_state : KeyKept env s request ↔
    (KeyAccepted env request → OwnDeal s request ∧ TextFields request ∨ Returns env request s) := by
  constructor
  · intro hkept haccepted
    have heq := storeKey_of_accepted (s := s) haccepted
    have hreturns : Returns env request (s.stored request) := by
      have hafter := hkept (by rw [heq])
      rwa [heq] at hafter
    by_cases hown : OwnDeal s request
    · exact Or.inl ⟨hown, (returns_stored_iff haccepted hown).mp hreturns⟩
    · right
      rwa [KeyStore.stored, if_neg hown] at hreturns
  · intro hcondition hstored
    have haccepted := accepted_of_stored hstored
    rw [storeKey_of_accepted haccepted]
    show Returns env request (s.stored request)
    rcases hcondition haccepted with ⟨hown, htext⟩ | hreturns
    · exact (returns_stored_iff haccepted hown).mpr htext
    · by_cases hown : OwnDeal s request
      · apply (returns_stored_iff haccepted hown).mpr
        obtain ⟨encryptedKey, encryptionIv, encryptionAuthTag, -, hkey, hiv, htag, -⟩ := hreturns
        exact ⟨⟨encryptedKey, hkey⟩, ⟨encryptionIv, hiv⟩, ⟨encryptionAuthTag, htag⟩⟩
      · rwa [KeyStore.stored, if_neg hown]

end Requests

/-! ## The rows of the deals -/

section Rows

variable {env : KeyEnv} {s s' : KeyStore} {db : Database} {as : List KeyEvent}

theorem DealSchema.insertDeal_deals {schema : DealSchema} {dealId clientAddress fileCID : String}
    {amounts : DealAmounts} {db db' : Database}
    (h : schema.insertDeal dealId clientAddress fileCID amounts db = .ok db') :
    db'.deals = db.deals ++ [createdRow dealId clientAddress fileCID amounts] := by
  simp only [DealSchema.insertDeal, bind_eq_ok, pure_eq_ok, insert_eq_ok] at h
  obtain ⟨_, -, _, -, _, -, _, -, _, -, _, ⟨-, rfl⟩, rfl⟩ := h
  rfl

/-- The statements after the first one write to other tables. -/
theorem later_insertions_deals {schema : DealSchema} {fails : Nat → Option SqlError} {rows : List ShardRow}
    {last : Option SqlError} {event : ProtocolEvent} (db : Database) :
    (attempt (rows.mapIdx (fun i row => failing (fails (i + 1)) (schema.insertShard row)) ++
      [failing last (ApiEnv.logEvent event)]) db).deals = db.deals := by
  apply attempt_induction (P := fun db' : Database => db'.deals = db.deals) rfl
  intro statement hstatement db₁ db₂ hdeals hok
  rcases List.mem_append.mp hstatement with hshard | hevent
  · obtain ⟨i, hi, rfl⟩ := List.mem_mapIdx.mp hshard
    obtain ⟨-, hok⟩ := failing_eq_ok.mp hok
    obtain ⟨-, -, -, rfl⟩ := DealSchema.insertShard_eq_ok.mp hok
    exact hdeals
  · obtain rfl := List.mem_singleton.mp hevent
    obtain ⟨-, hok⟩ := failing_eq_ok.mp hok
    obtain rfl := Except.ok.inj hok
    exact hdeals

/-- A request for a deal adds its row or none. -/
theorem mem_createStorageDeal {createEnv : CreateEnv} {request : CreateRequest} {row : DealRow}
    (h : row ∈ (createStorageDeal createEnv request db).1.deals) : row ∈ db.deals ∨
      row.dealId = newDealId createEnv ∧ row.clientAddress = (request.clientAddress.getD "").toLower := by
  have hinsertions : ∀ providers amounts shards event,
      row ∈ (attempt (insertions createEnv providers (newDealId createEnv) (request.clientAddress.getD "")
        (request.fileCID.getD "") amounts shards event) db).deals → row ∈ db.deals ∨
      row.dealId = newDealId createEnv ∧ row.clientAddress = (request.clientAddress.getD "").toLower := by
    intro providers amounts shards event hrow
    unfold insertions attempt at hrow
    split at hrow
    · next db' hok =>
      obtain ⟨-, hok⟩ := failing_eq_ok.mp hok
      rw [later_insertions_deals, DealSchema.insertDeal_deals hok] at hrow
      rcases List.mem_append.mp hrow with hold | hnew
      · exact Or.inl hold
      · obtain rfl := List.mem_singleton.mp hnew
        exact Or.inr ⟨rfl, rfl⟩
    · exact Or.inl hrow
  unfold createStorageDeal at h
  dsimp only at h
  split at h
  · exact Or.inl h
  · split at h
    · exact Or.inl h
    · split at h
      · exact hinsertions _ _ _ _ h
      · next db' hok =>
        rw [← foldlM_attempt hok] at h
        exact hinsertions _ _ _ _ h

/-- The listener adds at most one row, which has the identifier and the client of the event. -/
theorem mem_insertListed {blockNumber dealId : Nat} {client : Address} {fileSizeGB totalCost : Nat} {row : DealRow}
    (h : row ∈ (attempt [env.schema.insertListed blockNumber dealId client fileSizeGB totalCost] db).deals) :
    row ∈ db.deals ∨ row.dealId = toString dealId ∧ row.clientAddress = toChecksum client := by
  unfold attempt at h
  split at h
  · next db' hok =>
    simp only [KeySchema.insertListed, bind_eq_ok, pure_eq_ok, insert_eq_ok] at hok
    obtain ⟨_, -, _, -, _, -, _, -, _, -, _, ⟨-, rfl⟩, rfl⟩ := hok
    rcases List.mem_append.mp h with hold | hnew
    · exact Or.inl hold
    · obtain rfl := List.mem_singleton.mp hnew
      exact Or.inr ⟨rfl, rfl⟩
  · exact Or.inl h

/-- The tables of the repository refuse the rows of the listener, whatever they have. -/
theorem insertListed_shipped {message : SqlError → String} (h : env.schema = .shipped message) (d : Delivery)
    (dealId : Nat) (client : Address) (fileSizeGB totalCost : Nat) :
    attempt [env.schema.insertListed d.blockNumber dealId client fileSizeGB totalCost] db =
      BlockchainListener.handleDealCreated d dealId client fileSizeGB totalCost db := by
  rw [BlockchainListener.handleDealCreated_eq]
  apply attempt_of_fails
  intro db' hok
  simp only [KeySchema.insertListed, bind_eq_ok, check_eq_ok, h] at hok
  obtain ⟨_, -, _, -, _, -, _, hcontent, -⟩ := hok
  cases hcontent

/-- Storing a key adds no row to the table of deals. -/
theorem storeKey_db (request : KeyRequest) : (storeKey env request s).1.db = s.db := by
  unfold storeKey
  split
  · rfl
  · split
    · rfl
    · split
      · rfl
      · split
        · next s' hok =>
          obtain ⟨-, -, rfl⟩ := storeKey_eq_ok.mp hok
          unfold KeyStore.stored
          split <;> rfl
        · rfl

theorem MadeBy.mono {bs : List KeyEvent} {row : DealRow} (h : MadeBy as row) (hsub : ∀ event ∈ as, event ∈ bs) :
    MadeBy bs row := by
  cases h with
  | api createEnv request event dealId client => exact .api createEnv request (hsub _ event) dealId client
  | listener b id account size cost event dealId client =>
    exact .listener b id account size cost (hsub _ event) dealId client

/-- Every row of a deal comes from an event. -/
theorem madeBy_step {event : KeyEvent} {logs : List Unit} (h : ∀ row ∈ s.db.deals, MadeBy as row)
    (hstep : s.step env event = .ok (s', logs)) : ∀ row ∈ s'.db.deals, MadeBy (as ++ [event]) row := by
  have hold : ∀ row ∈ s.db.deals, MadeBy (as ++ [event]) row := by
    intro row hrow
    exact (h row hrow).mono fun e he => List.mem_append_left _ he
  have hevent : event ∈ as ++ [event] := List.mem_append_right _ (List.mem_singleton_self event)
  intro row hrow
  cases event with
  | create createEnv request =>
    obtain ⟨rfl, -⟩ := Prod.mk.inj (Except.ok.inj hstep)
    rcases mem_createStorageDeal hrow with hrow | ⟨hid, hclient⟩
    · exact hold row hrow
    · exact .api createEnv request hevent hid hclient
  | dealCreated blockNumber dealId client fileSizeGB totalCost =>
    obtain ⟨rfl, -⟩ := Prod.mk.inj (Except.ok.inj hstep)
    rcases mem_insertListed hrow with hrow | ⟨hid, hclient⟩
    · exact hold row hrow
    · exact .listener blockNumber dealId client fileSizeGB totalCost hevent hid hclient
  | storeKey request =>
    obtain ⟨rfl, -⟩ := Prod.mk.inj (Except.ok.inj hstep)
    rw [storeKey_db] at hrow
    exact hold row hrow

end Rows

/-! ## Runs -/

/-- The tables before the first deal. -/
def KeyStore.withoutDeals (db : Database) : KeyStore where
  db := { db with deals := [] }

/-- So in every run. -/
theorem madeBy_run (env : KeyEnv) (db : Database) (as : List KeyEvent) :
    ∀ row ∈ (run (KeyStore.step env) (.withoutDeals db) as).db.deals, MadeBy as row := by
  have hhistory : ∀ row ∈ (run (KeyStore.step env) (.withoutDeals db) as).db.deals,
      MadeBy ((history (KeyStore.step env) (.withoutDeals db) as).map Entry.act) row := by
    refine run_induction (P := fun (s : KeyStore) hist => ∀ row ∈ s.db.deals, MadeBy (hist.map Entry.act) row) ?_ ?_
      as (meets_true _ as)
    · intro row hrow
      cases hrow
    · intro s hist event s' logs h _ hstep
      rw [List.map_append]
      exact madeBy_step h hstep
  intro row hrow
  apply (hhistory row hrow).mono
  intro event hevent
  obtain ⟨e, he, rfl⟩ := List.mem_map.mp hevent
  exact act_mem_of_history he

/-- **When a key is kept.** In every state that deals and keys lead to, a request that succeeds can be read back exactly
if the deal has a row with the address in small letters and the fields are texts, or the same key was there before. The
API writes the address like that, and the listener as it is spelled with the checksum. -/
theorem keyKept_iff (env : KeyEnv) (db : Database) (as : List KeyEvent) (request : KeyRequest) :
    (KeyKept env (run (KeyStore.step env) (.withoutDeals db) as) request ↔
      (KeyAccepted env request →
        OwnDeal (run (KeyStore.step env) (.withoutDeals db) as) request ∧ TextFields request ∨
          Returns env request (run (KeyStore.step env) (.withoutDeals db) as))) ∧
    ∀ row ∈ (run (KeyStore.step env) (.withoutDeals db) as).db.deals, MadeBy as row :=
  ⟨keyKept_iff_of_state, madeBy_run env db as⟩

namespace SmallKeys

/-- Account 10, whose address has a letter, has signed two messages. -/
def env (schema : KeySchema) : KeyEnv where
  schema
  verifyMessage message signature :=
    if (message, signature) ∈ [("store-key-1", BodyValue.text "0x5189"), ("cancel-deal-7", .text "0x7e11")] then some 10
    else none

/-- The account sends the key of deal 1, with the address in small letters. -/
def request : KeyRequest where
  dealId := "1"
  encryptedKey := .text "0xdeadbeef"
  encryptionIv := .text "0x12345678"
  encryptionAuthTag := .text "0xabcdef"
  clientAddress := .text (hexAddress 10)
  signature := .text "0x5189"

/-- The account has made the deal on the chain. -/
def listed : KeyStore :=
  run (KeyStore.step (env (.extended fun _ => ""))) (.withoutDeals {}) [.dealCreated 1 1 10 1 100]

theorem listed_deals : listed.db.deals =
    [{ dealId := "1", clientAddress := toChecksum 10, fileCid := "", fileSizeGb := 1, totalCost := 100,
       providerPayment := 0, protocolFee := 0, blockNumber := some 1 }] := by
  decide +kernel

/-- The request of the example is accepted. -/
theorem request_accepted {schema : KeySchema} (hcolumns : ∀ name ∈ dealColumns, name ∈ schema.dealColumns) :
    KeyAccepted (env schema) request where
  authorization := ⟨by decide +kernel, by decide⟩
  fields := by decide
  signed := by
    show decide ((toChecksum 10).toLower = (hexAddress 10).toLower) = true
    rw [toLower_toChecksum, toLower_hexAddress]
    exact decide_eq_true rfl
  columns := by
    intro name hname
    apply hcolumns
    revert name
    decide
  parameters := by
    show ∀ s ∈ ["0xdeadbeef", "0x12345678", "0xabcdef", "1", (hexAddress 10).toLower], '\x00' ∉ s.toList
    rw [toLower_hexAddress]
    decide +kernel

/-- Without a row of the account the request succeeds all the same, and the tables stay as they are. -/
theorem storeKey_without_row {schema : KeySchema} (hcolumns : ∀ name ∈ dealColumns, name ∈ schema.dealColumns)
    {s : KeyStore} (hown : ¬ OwnDeal s request) : storeKey (env schema) request s = (s, .stored "1") := by
  rw [storeKey_of_accepted (request_accepted hcolumns), KeyStore.stored, if_neg hown]
  rfl

theorem not_keyKept {schema : KeySchema} (hcolumns : ∀ name ∈ dealColumns, name ∈ schema.dealColumns) {s : KeyStore}
    (hown : ¬ OwnDeal s request) {answer : KeyAnswer} (hget : getKey (env schema) "1" s = answer)
    (hanswer : ∀ encryptedKey encryptionIv encryptionAuthTag clientAddress,
      answer ≠ .key encryptedKey encryptionIv encryptionAuthTag clientAddress) : ¬ KeyKept (env schema) s request := by
  intro hkept
  unfold KeyKept at hkept
  rw [storeKey_without_row hcolumns hown] at hkept
  obtain ⟨_, _, _, _, -, -, -, hreturns⟩ := hkept rfl
  exact hanswer _ _ _ _ (hget.symm.trans hreturns)

/-- The requests succeed, and nothing can be read: for the deal made on the chain, and, with the tables of the
repository, for a deal that there is not. -/
theorem requests_keyLost :
    ((storeKey (env (.extended fun _ => "")) request listed).2 = .stored "1" ∧
        getKey (env (.extended fun _ => "")) "1" (storeKey (env (.extended fun _ => "")) request listed).1 =
          .unencrypted ∧
        ¬ KeyKept (env (.extended fun _ => "")) listed request) ∧
      (storeKey (env (.shipped fun _ => "")) request (.withoutDeals {})).2 = .stored "1" ∧
        getKey (env (.shipped fun _ => "")) "1" (storeKey (env (.shipped fun _ => "")) request (.withoutDeals {})).1 =
          .refuses 404 "Deal not found" ∧
        ¬ KeyKept (env (.shipped fun _ => "")) (.withoutDeals {}) request := by
  have hextended : ∀ name ∈ dealColumns, name ∈ (KeySchema.extended fun _ => "").dealColumns := by decide
  have hshipped : ∀ name ∈ dealColumns, name ∈ (KeySchema.shipped fun _ => "").dealColumns := by decide
  constructor
  · have hown : ¬ OwnDeal listed request := by
      rintro ⟨r, hr, -, hclient⟩
      rw [listed_deals] at hr
      obtain rfl := List.mem_singleton.mp hr
      change toChecksum 10 = (hexAddress 10).toLower at hclient
      rw [toLower_hexAddress] at hclient
      exact absurd hclient (by decide +kernel)
    have hget : getKey (env (.extended fun _ => "")) "1" listed = .unencrypted := by
      have hread := getKey_eq (request_accepted hextended) listed
      rw [listed_deals] at hread
      exact hread
    rw [storeKey_without_row hextended hown]
    exact ⟨rfl, hget, not_keyKept hextended hown hget nofun⟩
  · have hown : ¬ OwnDeal (.withoutDeals {}) request := by
      rintro ⟨r, hr, -⟩
      cases hr
    have hget : getKey (env (.shipped fun _ => "")) "1" (.withoutDeals {}) = .refuses 404 "Deal not found" :=
      getKey_eq (request_accepted hshipped) _
    rw [storeKey_without_row hshipped hown]
    exact ⟨rfl, hget, not_keyKept hshipped hown hget nofun⟩

end SmallKeys

end Kyneto
