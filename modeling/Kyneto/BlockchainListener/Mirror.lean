import Kyneto.BlockchainListener.Ingestion

/-!
# Does the database keep up with the marketplace?

The database mirrors the marketplace (`Mirrors`) if its deals have the statuses of the contract and its active shards
are those of the contract. Each operation is followed by the handlers of its events. `mirrors_iff` says after which
of them the database mirrors the marketplace again: what the listener misses are the cancellations, the failed deals
and the repairs, and the shards of the deals that end.
-/

namespace Kyneto

open Evm Sql BlockchainListener

/-! ## The mirror -/

/-- The texts of the column `status`. -/
def DealStatus.text : DealStatus → String
  | .Active => "active"
  | .Completed => "completed"
  | .Failed => "failed"
  | .Cancelled => "cancelled"
  | .InGracePeriod => "in_grace_period"

theorem DealStatus.text_inj {x y : DealStatus} (h : x.text = y.text) : x = y := by
  cases x <;> cases y <;> first | rfl | exact absurd h (by decide)

/-- The row is about an active shard of the deal at the provider, in whichever spelling. -/
def ShardRow.isActiveShard (r : ShardRow) (dealId : Nat) (p : Address) : Prop :=
  r.active = true ∧ r.dealId = toString dealId ∧ r.providerAddress.toLower = hexAddress p

/-- The database has the shard among the active ones. -/
def Database.stores (db : Database) (dealId : Nat) (p : Address) (i : Nat) (cid : String) : Prop :=
  ∃ r ∈ db.shards, r.isActiveShard dealId p ∧ r.shardIndex = i ∧ r.shardCid = cid

/-- The contract has the shard among the active ones. -/
def Deal.allots (deal : Deal) (p : Address) (i : Nat) (cid : String) : Prop :=
  (deal.shardAllocations p).active = true ∧ (deal.shardAllocations p).shardIndex = i ∧
    (deal.shardAllocations p).shardCID = cid

/-- The deal has a row, with its status. -/
def StatusMirrored (db : Database) (dealId : Nat) (deal : Deal) : Prop :=
  (∃ r ∈ db.deals, r.dealId = toString dealId) ∧
    ∀ r ∈ db.deals, r.dealId = toString dealId → r.status = deal.status.text

def ShardsMirrored (db : Database) (dealId : Nat) (deal : Deal) : Prop :=
  ∀ p i cid, db.stores dealId p i cid ↔ deal.allots p i cid

/-- **The database mirrors the marketplace**: every deal that was created has its status, and the active shards are
those of the contract, with their providers, indices and CIDs. -/
structure Mirrors (db : Database) (m : StorageMarketplace) : Prop where
  status : ∀ id < m.dealCount, StatusMirrored db id (m.deals id)
  shards : ∀ id, ShardsMirrored db id (m.deals id)
  known : ∀ r ∈ db.shards, r.active = true → ∃ id p, r.isActiveShard id p

/-! ## What the handlers change -/

theorem toString_inj {m n : Nat} (h : toString m = toString n) : m = n := by
  have hdigits : Nat.toDigits 10 m = Nat.toDigits 10 n := by
    simpa only [Nat.toString_eq_repr, Nat.toList_repr] using congrArg String.toList h
  have hread := congrArg (fun digits => Nat.ofDigitChars 10 digits 0) hdigits
  simpa only [Nat.ofDigitChars_ten_toDigits] using hread

/-- The database changes for one deal at most. -/
structure ChangesOnly (id : Nat) (db db' : Database) : Prop where
  status : ∀ id' ≠ id, ∀ deal, StatusMirrored db' id' deal ↔ StatusMirrored db id' deal
  shards : ∀ id' ≠ id, ∀ p i cid, db'.stores id' p i cid ↔ db.stores id' p i cid
  known : ∀ r' ∈ db'.shards, r'.active = true → r' ∈ db.shards

section Handlers

variable {d : Delivery} {db db' : Database} {id : Nat} {deal deal' : Deal} {p : Address}

theorem SameMirror.statusMirrored (h : SameMirror db db') :
    StatusMirrored db' id deal ↔ StatusMirrored db id deal := by
  simp only [StatusMirrored, h.deals]

theorem SameMirror.stores (h : SameMirror db db') {i : Nat} {cid : String} :
    db'.stores id p i cid ↔ db.stores id p i cid := by
  simp only [Database.stores, h.shards]

theorem SameMirror.changesOnly (h : SameMirror db db') (id : Nat) : ChangesOnly id db db' where
  status := fun _ _ _ => h.statusMirrored
  shards := fun _ _ _ _ _ => h.stores
  known := fun _ hr _ => h.shards ▸ hr

/-- Tables that agree on deals and shards mirror the same markets. -/
theorem SameMirror.mirrors {m : StorageMarketplace} (h : SameMirror db db') : Mirrors db' m ↔ Mirrors db m := by
  constructor
  · rintro ⟨hstatus, hshards, hknown⟩
    refine ⟨fun id hlt => h.statusMirrored.mp (hstatus id hlt), fun id p i cid => ?_, ?_⟩
    · rw [← h.stores, hshards]
    · rwa [h.shards] at hknown
  · rintro ⟨hstatus, hshards, hknown⟩
    refine ⟨fun id hlt => h.statusMirrored.mpr (hstatus id hlt), fun id p i cid => ?_, ?_⟩
    · rw [h.stores, hshards]
    · rwa [h.shards]

/-- If one deal is written, it alone decides whether the mirror is right again. -/
theorem mirrors_of_changesOnly {m m' : StorageMarketplace} (h : Mirrors db m) (hdb : ChangesOnly id db db')
    (hdeals : m'.deals = Function.update m.deals id deal) (hcount : m'.dealCount = m.dealCount) :
    Mirrors db' m' ↔ (id < m.dealCount → StatusMirrored db' id deal) ∧ ShardsMirrored db' id deal := by
  have hhere : m'.deals id = deal := by rw [hdeals, Function.update_self]
  have helse : ∀ id' ≠ id, m'.deals id' = m.deals id' := by
    intro id' hne
    rw [hdeals, Function.update_of_ne hne]
  constructor
  · intro h'
    refine ⟨fun hlt => ?_, ?_⟩
    · simpa only [hhere] using h'.status id (hcount ▸ hlt)
    · simpa only [hhere] using h'.shards id
  · rintro ⟨hstatus, hshards⟩
    refine ⟨fun id' hlt => ?_, fun id' => ?_, fun r hr hactive => h.known r (hdb.known r hr hactive) hactive⟩
    · rw [hcount] at hlt
      by_cases hid : id' = id
      · subst hid
        rw [hhere]
        exact hstatus hlt
      · rw [helse id' hid, hdb.status id' hid]
        exact h.status id' hlt
    · by_cases hid : id' = id
      · subst hid
        rw [hhere]
        exact hshards
      · rw [helse id' hid]
        intro p i cid
        rw [hdb.shards id' hid]
        exact h.shards id' p i cid

/-- Where the rows stay, the shards of the contract have to stay. -/
theorem shardsMirrored_iff (h : ShardsMirrored db id deal)
    (hrows : ∀ p i cid, db'.stores id p i cid ↔ db.stores id p i cid) :
    ShardsMirrored db' id deal' ↔ ∀ p i cid, deal.allots p i cid ↔ deal'.allots p i cid := by
  constructor
  · intro h' p i cid
    rw [← h, ← hrows, h']
  · intro hsame p i cid
    rw [hrows, h, hsame]

/-- Where the row stays, the status of the contract has to stay. -/
theorem statusMirrored_iff (h : StatusMirrored db id deal) :
    StatusMirrored db id deal' ↔ deal'.status = deal.status := by
  obtain ⟨r, hr, hid⟩ := h.1
  constructor
  · intro h'
    exact DealStatus.text_inj ((h'.2 r hr hid).symm.trans (h.2 r hr hid))
  · intro hsame
    exact ⟨h.1, fun r hr hid => by rw [hsame]; exact h.2 r hr hid⟩

/-! ### A completed deal -/

/-- The database after `handleDealCompleted`. -/
def Database.withCompleted (db : Database) (d : Delivery) (id : Nat) : Database :=
  { db with
    deals := update (fun r => r.dealId = toString id)
      (fun r => { r with status := "completed", completedAt := some d.now }) db.deals }

/-- Rows after a completion: the row of the deal has the new status, and the others are as they were. -/
theorem mem_withCompleted {r' : DealRow} (h : r' ∈ (db.withCompleted d id).deals) :
    ∃ r ∈ db.deals, r'.dealId = r.dealId ∧ (r.dealId = toString id → r'.status = "completed") ∧
      (r.dealId ≠ toString id → r' = r) := by
  obtain ⟨r, hr, hset⟩ := mem_update.mp h
  refine ⟨r, hr, ?_⟩
  by_cases hid : r.dealId = toString id
  · rw [if_pos (decide_eq_true hid)] at hset
    subst hset
    exact ⟨rfl, fun _ => rfl, fun hne => absurd hid hne⟩
  · rw [if_neg (by simpa using hid)] at hset
    subst hset
    exact ⟨rfl, fun heq => absurd heq hid, fun _ => rfl⟩

theorem exists_withCompleted {id' : Nat} (h : ∃ r ∈ db.deals, r.dealId = toString id') :
    ∃ r ∈ (db.withCompleted d id).deals, r.dealId = toString id' := by
  obtain ⟨r, hr, hid⟩ := h
  refine ⟨_, mem_update.mpr ⟨r, hr, rfl⟩, ?_⟩
  split
  · exact hid
  · exact hid

theorem statusMirrored_withCompleted (h : StatusMirrored db id deal) (hdeal' : deal'.status = .Completed) :
    StatusMirrored (db.withCompleted d id) id deal' := by
  refine ⟨exists_withCompleted h.1, ?_⟩
  intro r' hr' hid
  obtain ⟨r, -, hsame, hcompleted, -⟩ := mem_withCompleted hr'
  rw [hcompleted (hsame ▸ hid), hdeal']
  rfl

theorem stores_withCompleted {id' i : Nat} {cid : String} :
    (db.withCompleted d id).stores id' p i cid ↔ db.stores id' p i cid := Iff.rfl

/-- A completion touches the rows of one deal. -/
theorem withCompleted_changesOnly : ChangesOnly id db (db.withCompleted d id) where
  status := by
    intro id' hne deal
    have hother : ∀ r : DealRow, r.dealId = toString id' → r.dealId ≠ toString id :=
      fun r hid heq => hne (toString_inj (hid.symm.trans heq))
    constructor
    · rintro ⟨⟨r', hr', hid'⟩, hall⟩
      obtain ⟨r, hr, hsame, -, -⟩ := mem_withCompleted hr'
      refine ⟨⟨r, hr, hsame ▸ hid'⟩, fun r hr hid => hall r ?_ hid⟩
      exact mem_update.mpr ⟨r, hr, if_neg (by simpa using hother r hid)⟩
    · rintro ⟨hex, hall⟩
      refine ⟨exists_withCompleted hex, fun r' hr' hid' => ?_⟩
      obtain ⟨r, hr, hsame, -, hkept⟩ := mem_withCompleted hr'
      have hid : r.dealId = toString id' := hsame ▸ hid'
      rw [hkept (hother r hid)]
      exact hall r hr hid
  shards := fun _ _ _ _ _ => stores_withCompleted
  known := fun _ hr _ => hr

/-! ### A lost shard -/

/-- The database after `handleShardLost`. -/
def Database.withLost (db : Database) (d : Delivery) (id : Nat) (p : Address) : Database :=
  { db with
    shards := update (fun r => r.dealId = toString id ∧ r.providerAddress = toChecksum p)
      (fun r => { r with active := false, lostAt := some d.now }) db.shards }

/-- The rows that stay active are those in another spelling. -/
theorem mem_withLost {r : ShardRow} (hactive : r.active = true) :
    r ∈ (db.withLost d id p).shards ↔
      r ∈ db.shards ∧ ¬ (r.dealId = toString id ∧ r.providerAddress = toChecksum p) := by
  constructor
  · intro h
    obtain ⟨r₀, hr₀, hset⟩ := mem_update.mp h
    split at hset
    · subst hset
      cases hactive
    · next hcond =>
      subst hset
      exact ⟨hr₀, by simpa using hcond⟩
  · rintro ⟨hr, hcond⟩
    exact mem_update.mpr ⟨r, hr, if_neg (by simpa using hcond)⟩

/-- A lost shard takes no row away but those of its provider in its deal. -/
theorem stores_withLost {id' i : Nat} {p' : Address} {cid : String} (hother : id' = id → p' ≠ p) :
    (db.withLost d id p).stores id' p' i cid ↔ db.stores id' p' i cid := by
  have hkept : ∀ r : ShardRow, r.isActiveShard id' p' →
      ¬ (r.dealId = toString id ∧ r.providerAddress = toChecksum p) := by
    rintro r ⟨-, hid, hp⟩ ⟨hid', hp'⟩
    refine hother (toString_inj (hid.symm.trans hid')) (hexAddress_inj ?_)
    rw [← hp, hp', toLower_toChecksum]
  constructor
  · rintro ⟨r, hr, his, hshard⟩
    exact ⟨r, ((mem_withLost his.1).mp hr).1, his, hshard⟩
  · rintro ⟨r, hr, his, hshard⟩
    exact ⟨r, (mem_withLost his.1).mpr ⟨hr, hkept r his⟩, his, hshard⟩

theorem withLost_changesOnly : ChangesOnly id db (db.withLost d id p) where
  status := fun _ _ _ => Iff.rfl
  shards := fun _ hne _ _ _ => stores_withLost fun heq => absurd heq hne
  known := fun _ hr hactive => ((mem_withLost hactive).mp hr).1

/-- The rows of the deal at the provider have the spelling that events have. -/
def SpelledAsEvents (db : Database) (id : Nat) (p : Address) : Prop :=
  ∀ r ∈ db.shards, r.isActiveShard id p → r.providerAddress = toChecksum p

/-- The shards of a deal are mirrored after a loss exactly if their rows spell the provider as the
event does. -/
theorem shardsMirrored_withLost (h : ShardsMirrored db id deal)
    (hallocs : deal'.shardAllocations = deal.without p) :
    ShardsMirrored (db.withLost d id p) id deal' ↔ SpelledAsEvents db id p := by
  have hinactive : ∀ i cid, ¬ deal'.allots p i cid := by
    rintro i cid ⟨hactive, -⟩
    rw [hallocs] at hactive
    exact ((deal.without_active p p).mp hactive).1 rfl
  constructor
  · intro h' r hr his
    by_contra hspelling
    have hstill : (db.withLost d id p).stores id p r.shardIndex r.shardCid :=
      ⟨r, (mem_withLost his.1).mpr ⟨hr, fun hboth => hspelling hboth.2⟩, his, rfl, rfl⟩
    exact hinactive _ _ ((h' _ _ _).mp hstill)
  · intro hspelling p' i cid
    by_cases hp : p' = p
    · subst hp
      refine iff_of_false ?_ (hinactive i cid)
      rintro ⟨r, hr, his, -⟩
      obtain ⟨hr₀, hcond⟩ := (mem_withLost his.1).mp hr
      exact hcond ⟨his.2.1, hspelling r hr₀ his⟩
    · rw [stores_withLost fun _ => hp, h]
      simp only [Deal.allots, hallocs, Deal.without, Function.update_of_ne hp]

end Handlers

/-! ## The operations -/

/-- No provider on the deal's list has an active shard. -/
def NoneActive (deal : Deal) : Prop := ∀ p ∈ deal.providers, (deal.shardAllocations p).active = false

/-- The listener covers the operation: it leaves nothing that the handlers of its events miss. -/
def Covered (db : Database) (m : StorageMarketplace) : MarketCall → Prop
  | .completeDeal id => NoneActive (m.deals id)
  | .cancelDeal id => m.dealCount ≤ id ∧ NoneActive (m.deals id)
  | .renewDeal id _ => m.dealCount ≤ id ∨ (m.deals id).status = .Active
  | .reportLostShard id p => (m.dealCount ≤ id ∨ MIN_PROVIDERS < (m.deals id).activeShards) ∧ SpelledAsEvents db id p
  | .repairShard id oldProvider newProvider newShardCID =>
    (m.deals id).allots newProvider ((m.deals id).shardAllocations oldProvider).shardIndex newShardCID
  | _ => True

section Operations

variable {this : Address} {s s' : System} {msg : Msg} {logs : List Log} {d : Delivery} {db : Database} {id : Nat}

/-- Dropping the shards of the listed providers shows if one of them was active. -/
theorem allots_cleared_iff {deal deal' : Deal} {l : List Address} (h : deal'.shardAllocations = deal.cleared l) :
    (∀ p i cid, deal.allots p i cid ↔ deal'.allots p i cid) ↔
      ∀ p ∈ l, (deal.shardAllocations p).active = false := by
  constructor
  · intro hsame p hp
    by_contra hactive
    have hafter := (hsame p _ _).mp ⟨by simpa using hactive, rfl, rfl⟩
    have hcleared : (deal'.shardAllocations p).active = false := by simp [h, Deal.cleared, hp]
    rw [hafter.1] at hcleared
    cases hcleared
  · intro hnone p i cid
    have hkept : deal'.shardAllocations p = deal.shardAllocations p := by
      rw [h, Deal.cleared]
      split
      · next hp => rw [← hnone p hp]
      · rfl
    simp only [Deal.allots, hkept]

/-- Completing the shards of a deal is only reported to the registry. -/
theorem completeShards_logs {timestamp : Nat} {l : List Address} {registry registry' : ProviderRegistry}
    {deal deal' : Deal}
    (h : System.completeShards this timestamp registry deal l = .ok (registry', deal', logs)) :
    ∃ reports : List RegistryLog, logs = reports.map .registry := by
  induction l generalizing registry registry' deal deal' logs with
  | nil =>
    simp only [System.completeShards, Except.ok.injEq, Prod.mk.injEq] at h
    exact ⟨[], h.2.2.symm⟩
  | cons provider rest ih =>
    unfold System.completeShards at h
    split at h
    · simp only [bind_eq_ok, Prod.exists, pure_eq_ok, Prod.mk.injEq] at h
      obtain ⟨r, reports, -, _, -, _, _, more, hrest, -, -, rfl⟩ := h
      obtain ⟨reports', rfl⟩ := ih hrest
      exact ⟨reports ++ reports', by simp⟩
    · exact ih h

/-- After a completion: the deal is marked, and its shards stay active. -/
theorem completeDeal_handled (h : s.completeDeal this msg id = .ok (s', logs)) :
    ∃ deal, s'.market.deals = Function.update s.market.deals id deal ∧ s'.market.dealCount = s.market.dealCount ∧
      deal.status = .Completed ∧
      deal.shardAllocations = (s.market.deals id).cleared (s.market.deals id).providers ∧
      ∃ db₀, SameMirror db db₀ ∧ handleAll d db logs = db₀.withCompleted d id := by
  simp only [System.completeDeal, bind_eq_ok, require_eq_ok, Prod.exists, exists_const] at h
  obtain ⟨-, -, -, registry, deal, l, hloop, _, -, payment, -, h⟩ := h
  obtain ⟨reports, rfl⟩ := completeShards_logs hloop
  obtain ⟨-, rfl⟩ := Deal.dropShards_ok (completeShards_dropShards hloop).1
  split at h
  · simp only [bind_eq_ok, pure_eq_ok, Prod.exists, Prod.mk.injEq] at h
    obtain ⟨token, paid, -, rfl, rfl⟩ := h
    refine ⟨_, rfl, rfl, rfl, rfl, _, @handleAll_registry d db reports, ?_⟩
    rw [handleAll_append, handleAll_append, handleAll_token]
    exact handleDealCompleted_eq
  · simp only [pure_eq_ok, Prod.mk.injEq] at h
    obtain ⟨rfl, rfl⟩ := h
    refine ⟨_, rfl, rfl, rfl, rfl, _, @handleAll_registry d db reports, ?_⟩
    rw [handleAll_append]
    exact handleDealCompleted_eq

theorem completeDeal_mirrors (hm : Mirrors db s.market) (h : s.completeDeal this msg id = .ok (s', logs)) :
    Mirrors (handleAll d db logs) s'.market ↔ NoneActive (s.market.deals id) := by
  obtain ⟨deal, hdeals, hcount, hstatus, hallocs, db₀, hsame, hdb⟩ := completeDeal_handled h
  have hm₀ : Mirrors db₀ s.market := hsame.mirrors.mpr hm
  rw [hdb, mirrors_of_changesOnly hm₀ withCompleted_changesOnly hdeals hcount,
    shardsMirrored_iff (hm₀.shards id) fun _ _ _ => stores_withCompleted, allots_cleared_iff hallocs]
  exact and_iff_right fun hlt => statusMirrored_withCompleted (hm₀.status id hlt) hstatus

/-- After an operation that writes one deal and of which the listener hears nothing. -/
theorem mirrors_unheard {m m' : StorageMarketplace} {deal : Deal} (hm : Mirrors db m)
    (hdeals : m'.deals = Function.update m.deals id deal) (hcount : m'.dealCount = m.dealCount) :
    Mirrors db m' ↔
      (id < m.dealCount → deal.status = (m.deals id).status) ∧
        ∀ p i cid, (m.deals id).allots p i cid ↔ deal.allots p i cid := by
  have hsame : SameMirror db db := ⟨rfl, rfl⟩
  rw [mirrors_of_changesOnly hm (hsame.changesOnly id) hdeals hcount,
    shardsMirrored_iff (hm.shards id) fun _ _ _ => Iff.rfl]
  refine and_congr_left fun _ => forall_congr' fun hlt => ?_
  exact statusMirrored_iff (hm.status id hlt)

/-- Transfers and one more event that does nothing. -/
theorem handleAll_unheard {l : MarketLog} (h : handle d db (.market l) = db) (paid : List TokenLog) :
    handleAll d db (paid.map .token ++ [.market l]) = db := by
  rw [handleAll_append, handleAll_token]
  exact h

/-- A cancellation keeps the mirror exactly for deals without a row and without active shards. -/
theorem cancelDeal_mirrors (hm : Mirrors db s.market) (h : s.cancelDeal this msg id = .ok (s', logs)) :
    Mirrors (handleAll d db logs) s'.market ↔
      s.market.dealCount ≤ id ∧ NoneActive (s.market.deals id) := by
  simp only [System.cancelDeal, bind_eq_ok, require_eq_ok, exists_const] at h
  obtain ⟨hopen, -, deal, hdrop, _, -, refund, -, h⟩ := h
  obtain ⟨-, rfl⟩ := Deal.dropShards_ok hdrop
  have hwritten : ∃ deal, s'.market.deals = Function.update s.market.deals id deal ∧
      s'.market.dealCount = s.market.dealCount ∧ deal.status = .Cancelled ∧
      deal.shardAllocations = (s.market.deals id).cleared (s.market.deals id).providers ∧
      handleAll d db logs = db := by
    split at h
    · simp only [bind_eq_ok, pure_eq_ok, Prod.exists, Prod.mk.injEq] at h
      obtain ⟨_, -, token, paid, -, rfl, rfl⟩ := h
      exact ⟨_, rfl, rfl, rfl, rfl, handleAll_unheard (l := .DealCancelled id _) (handleDealCancelled_eq _) paid⟩
    · simp only [pure_eq_ok, Prod.mk.injEq] at h
      obtain ⟨rfl, rfl⟩ := h
      exact ⟨_, rfl, rfl, rfl, rfl, handleAll_unheard (l := .DealCancelled id _) (handleDealCancelled_eq _) []⟩
  obtain ⟨deal, hdeals, hcount, hstatus, hallocs, hdb⟩ := hwritten
  rw [hdb, mirrors_unheard hm hdeals hcount, allots_cleared_iff hallocs]
  refine and_congr_left fun _ => ?_
  rw [← not_lt]
  refine forall_congr' fun hlt => iff_of_false ?_ not_false
  rw [hstatus]
  intro hsame
  rw [← hsame] at hopen
  cases hopen

theorem renewDeal_mirrors {days : Nat} (hm : Mirrors db s.market)
    (h : s.renewDeal this msg id days = .ok (s', logs)) :
    Mirrors (handleAll d db logs) s'.market ↔
      s.market.dealCount ≤ id ∨ (s.market.deals id).status = .Active := by
  simp only [System.renewDeal, bind_eq_ok, pure_eq_ok, Prod.exists, Prod.mk.injEq] at h
  obtain ⟨_, -, _, -, cost, -, token, paid, -, _, -, _, -, _, -, _, -, _, -, rfl, rfl⟩ := h
  rw [handleAll_unheard rfl]
  refine Iff.trans (mirrors_unheard hm rfl rfl) ?_
  refine Iff.trans (and_iff_left fun _ _ _ => Iff.rfl) ?_
  rw [← not_lt, ← imp_iff_not_or]
  exact forall_congr' fun _ => eq_comm

/-- The event of a lost shard, and events that the mirror does not follow. -/
theorem handleAll_lost {p : Address} {i : Nat} {rest : List Log}
    (h : ∀ db, SameMirror db (handleAll d db rest)) :
    SameMirror (db.withLost d id p) (handleAll d db (.market (.ShardLost id p i) :: rest)) := by
  have hfirst : handle d db (.market (.ShardLost id p i)) = db.withLost d id p := handleShardLost_eq p
  rw [handleAll_cons, hfirst]
  exact h _

/-- What the loss of a shard writes: the deal fails if fewer than ten are left. -/
theorem reportLostShard_handled {p : Address} (h : s.reportLostShard this msg id p = .ok (s', logs)) :
    ∃ deal, s'.market.deals = Function.update s.market.deals id deal ∧ s'.market.dealCount = s.market.dealCount ∧
      (deal.status = (s.market.deals id).status ↔ MIN_PROVIDERS < (s.market.deals id).activeShards) ∧
      deal.shardAllocations = (s.market.deals id).without p ∧
      SameMirror (db.withLost d id p) (handleAll d db logs) := by
  simp only [System.reportLostShard, bind_eq_ok, onlyOwner_eq_ok, require_eq_ok, Deal.dropShard_eq_ok,
    exists_const] at h
  obtain ⟨-, hopen, -, _, ⟨hpos, rfl⟩, h⟩ := h
  split at h
  · next hfew =>
    have hfew : ¬ MIN_PROVIDERS < (s.market.deals id).activeShards := by
      have hless : (s.market.deals id).activeShards - 1 < MIN_PROVIDERS := hfew
      omega
    have hfailed : DealStatus.Failed ≠ (s.market.deals id).status := by
      intro hsame
      rw [← hsame] at hopen
      cases hopen
    have hrest : ∀ (reports : List RegistryLog) (paid : List TokenLog) (db : Database), SameMirror db
        (handleAll d db (paid.map .token ++ [.market (.DealFailed id "Too many shard failures")] ++
          reports.map .registry)) := by
      intro reports paid db
      rw [handleAll_append, handleAll_unheard rfl]
      exact handleAll_registry reports
    simp only [bind_eq_ok, pure_eq_ok, Prod.exists, Prod.mk.injEq] at h
    obtain ⟨s₁, l, hfail, rfl, rfl⟩ := h
    unfold System.failDeal at hfail
    dsimp only at hfail
    split at hfail
    · simp only [bind_eq_ok, pure_eq_ok, Prod.exists, Prod.mk.injEq] at hfail
      obtain ⟨token, paid, -, registry, reports, -, rfl, rfl⟩ := hfail
      exact ⟨_, rfl, rfl, iff_of_false hfailed hfew, rfl, handleAll_lost (hrest reports paid)⟩
    · simp only [bind_eq_ok, pure_eq_ok, Prod.exists, Prod.mk.injEq] at hfail
      obtain ⟨registry, reports, -, rfl, rfl⟩ := hfail
      exact ⟨_, rfl, rfl, iff_of_false hfailed hfew, rfl, handleAll_lost (hrest reports [])⟩
  · next hfew =>
    have hfew : MIN_PROVIDERS < (s.market.deals id).activeShards := by
      have hless : ¬ (s.market.deals id).activeShards - 1 < MIN_PROVIDERS := hfew
      omega
    simp only [pure_eq_ok, Prod.mk.injEq] at h
    obtain ⟨rfl, rfl⟩ := h
    exact ⟨_, rfl, rfl, iff_of_true rfl hfew, rfl, handleAll_lost fun _ => ⟨rfl, rfl⟩⟩

theorem reportLostShard_mirrors {p : Address} (hm : Mirrors db s.market)
    (h : s.reportLostShard this msg id p = .ok (s', logs)) :
    Mirrors (handleAll d db logs) s'.market ↔
      (s.market.dealCount ≤ id ∨ MIN_PROVIDERS < (s.market.deals id).activeShards) ∧ SpelledAsEvents db id p := by
  obtain ⟨deal, hdeals, hcount, hstatus, hallocs, hsame⟩ := reportLostShard_handled h
  rw [hsame.mirrors, mirrors_of_changesOnly hm withLost_changesOnly hdeals hcount]
  refine and_congr ?_ (shardsMirrored_withLost (hm.shards id) hallocs)
  rw [← not_lt, ← imp_iff_not_or]
  refine forall_congr' fun hlt => ?_
  rw [← hstatus]
  exact statusMirrored_iff (hm.status id hlt)

/-- After a repair, of which the listener hears nothing. -/
theorem repairShard_mirrors {oldProvider newProvider : Address} {newShardCID : String} (hm : Mirrors db s.market)
    (h : s.repairShard msg id oldProvider newProvider newShardCID = .ok (s', logs)) :
    Mirrors (handleAll d db logs) s'.market ↔
      (s.market.deals id).allots newProvider ((s.market.deals id).shardAllocations oldProvider).shardIndex
        newShardCID := by
  simp only [System.repairShard, bind_eq_ok, onlyOwner_eq_ok, require_eq_ok, pure_eq_ok, Prod.mk.injEq,
    exists_const] at h
  obtain ⟨-, -, hold, -, _, -, rfl, rfl⟩ := h
  refine Iff.trans (mirrors_unheard hm rfl rfl) ?_
  rw [and_iff_right fun _ => rfl]
  constructor
  · intro hsame
    exact (hsame _ _ _).mpr (by simp [Deal.allots])
  · intro hnew p i cid
    simp only [Deal.allots] at hnew ⊢
    by_cases hp : p = newProvider
    · subst hp
      rw [Function.update_self, hnew.1, hnew.2.1, hnew.2.2]
    · rw [Function.update_of_ne hp]
      by_cases hp' : p = oldProvider
      · subst hp'
        rw [Function.update_self, hold]
        exact iff_of_false (fun h => absurd h.1 Bool.false_ne_true) (fun h => absurd h.1 Bool.false_ne_true)
      · rw [Function.update_of_ne hp']

/-- The other operations write no deal, and the listener hears nothing of them. -/
theorem mirrors_of_same {m m' : StorageMarketplace} (hm : Mirrors db m) (hdeals : m'.deals = m.deals)
    (hcount : m'.dealCount = m.dealCount) : Mirrors db m' := by
  refine ⟨?_, ?_, hm.known⟩
  · rw [hdeals, hcount]
    exact hm.status
  · rw [hdeals]
    exact hm.shards

/-- **When the database keeps up with an operation**: starting from a mirror of the marketplace, after the events of a
successful operation other than `createDeal` have been handled, it is a mirror again exactly if the operation is
covered. -/
theorem mirrors_iff {c : MarketCall} (hc : ∀ params, c ≠ .createDeal params)
    (hstep : s.marketStep this msg c = .ok (s', logs)) (hm : Mirrors db s.market) (d : Delivery) :
    Mirrors (handleAll d db logs) s'.market ↔ Covered db s.market c := by
  cases c with
  | createDeal params => exact absurd rfl (hc params)
  | completeDeal id => exact completeDeal_mirrors hm hstep
  | cancelDeal id => exact cancelDeal_mirrors hm hstep
  | renewDeal id days => exact renewDeal_mirrors hm hstep
  | reportLostShard id p => exact reportLostShard_mirrors hm hstep
  | repairShard id oldProvider newProvider cid => exact repairShard_mirrors hm hstep
  | initiateRetrieval id p amount =>
    simp only [System.marketStep, System.initiateRetrieval, bind_eq_ok, pure_eq_ok, Prod.exists,
      Prod.mk.injEq] at hstep
    obtain ⟨_, -, _, -, token, paid, -, _, -, rfl, rfl⟩ := hstep
    rw [handleAll_unheard rfl]
    exact iff_of_true (mirrors_of_same hm rfl rfl) trivial
  | claimRetrievalPayment id =>
    simp only [System.marketStep, System.claimRetrievalPayment, bind_eq_ok, pure_eq_ok, Prod.exists,
      Prod.mk.injEq] at hstep
    obtain ⟨_, -, _, -, token, paid, -, rfl, rfl⟩ := hstep
    rw [handleAll_unheard rfl]
    exact iff_of_true (mirrors_of_same hm rfl rfl) trivial
  | withdrawFees =>
    simp only [System.marketStep, System.withdrawFees, bind_eq_ok, pure_eq_ok, Prod.exists,
      Prod.mk.injEq] at hstep
    obtain ⟨_, -, _, -, token, paid, -, rfl, rfl⟩ := hstep
    rw [handleAll_unheard rfl]
    exact iff_of_true (mirrors_of_same hm rfl rfl) trivial
  | setProtocolFee _ | setTreasury _ | updateKynPrice _ | setPaymentDistributor _ | transferOwnership _
  | renounceOwnership =>
    simp only [System.marketStep, System.setProtocolFee, System.setTreasury, System.updateKynPrice,
      System.setPaymentDistributor, bind_eq_ok, pure_eq_ok, Prod.mk.injEq] at hstep
    first
      | obtain ⟨_, -, rfl, rfl⟩ := hstep
      | obtain ⟨_, -, _, -, rfl, rfl⟩ := hstep
      | obtain ⟨_, -, _, -, _, -, rfl, rfl⟩ := hstep
    exact iff_of_true (mirrors_of_same hm rfl rfl) trivial

end Operations

/-! ## A new deal

What the database would have to hold after a `createDeal`. -/

/-- The shards that the loop of `createDeal` leaves: those it numbers, and what was there for other providers. -/
theorem assigned_iff {shards : List (Address × String × Nat)} (hnodup : (shards.map Prod.fst).Nodup)
    (allocs : Address → ShardAllocation) (k : Nat) (p : Address) (i : Nat) (cid : String) :
    ((Deal.assigned allocs k shards p).active = true ∧ (Deal.assigned allocs k shards p).shardIndex = i ∧
        (Deal.assigned allocs k shards p).shardCID = cid) ↔
      (p, i, cid) ∈ numbered k shards ∨
        p ∉ shards.map Prod.fst ∧ (allocs p).active = true ∧ (allocs p).shardIndex = i ∧
          (allocs p).shardCID = cid := by
  induction shards generalizing allocs k with
  | nil => simp [Deal.assigned, numbered]
  | cons shard rest ih =>
    obtain ⟨q, shardCID, sizeGB⟩ := shard
    rw [List.map_cons, List.nodup_cons] at hnodup
    rw [Deal.assigned, ih hnodup.2, numbered, List.map_cons, List.mem_cons, List.mem_cons]
    by_cases hp : p = q
    · subst hp
      have hrest : (p, i, cid) ∉ numbered (k + 1) rest := by
        intro hmem
        have hfst := List.mem_map_of_mem (f := Prod.fst) hmem
        rw [map_fst_numbered] at hfst
        exact hnodup.1 hfst
      simp only [hrest, hnodup.1, Function.update_self, Prod.mk.injEq, true_and, or_false, false_or, not_false_eq_true,
        not_true_eq_false, false_and]
      exact and_congr eq_comm eq_comm
    · simp [hp]

section Creation

variable {this : Address} {s s' : System} {msg : Msg} {params : DealParams} {logs : List Log} {db : Database}

/-- What a new deal looks like, and that it is the only one that changes. -/
theorem createDeal_wrote (hne : msg.sender ≠ this) (h : s.createDeal this msg params = .ok (s', logs)) :
    ∃ deal, s'.market.deals = Function.update s.market.deals s.market.dealCount deal ∧
      s'.market.dealCount = s.market.dealCount + 1 ∧ deal.status = .Active ∧
      deal.shardAllocations =
        Deal.assigned (s.market.deals s.market.dealCount).shardAllocations 0 params.shards := by
  cases (createDeal_effect hne h).1 with
  | idle noDeal => cases noDeal
  | created _ _ _ _ _ _ _ wrote =>
    refine ⟨_, wrote.deals, wrote.dealCount, ?_, ?_⟩
    · rw [createdDeal, Deal.assignShards_eq]
      rfl
    · rw [createdDeal, Deal.assignShards_eq]
      rfl

/-- The row belongs to one shard only. -/
theorem shardRow_isActiveShard_iff {n id : Nat} {e : Announced} {p : Address} :
    (shardRow n e).isActiveShard id p ↔ n = id ∧ e.1 = p := by
  show true = true ∧ toString n = toString id ∧ (toChecksum e.1).toLower = hexAddress p ↔ _
  rw [toLower_toChecksum, and_iff_right rfl]
  exact and_congr ⟨toString_inj, congrArg _⟩ ⟨hexAddress_inj, congrArg _⟩

/-- The database with the rows of a new deal. -/
def Database.withDeal (db : Database) (row : DealRow) (n : Nat) (es : List Announced) : Database :=
  { db with
    deals := db.deals ++ [row]
    shards := db.shards ++ es.map (shardRow n) }

/-- A new deal brings the rows of its own shards and no other. -/
theorem stores_withDeal {row : DealRow} {n id i : Nat} {es : List Announced} {p : Address} {cid : String} :
    (db.withDeal row n es).stores id p i cid ↔ db.stores id p i cid ∨ n = id ∧ (p, i, cid) ∈ es := by
  constructor
  · rintro ⟨r, hr, his, rfl, rfl⟩
    rcases List.mem_append.mp hr with hr | hr
    · exact .inl ⟨r, hr, his, rfl, rfl⟩
    · obtain ⟨e, he, rfl⟩ := List.mem_map.mp hr
      obtain ⟨rfl, rfl⟩ := shardRow_isActiveShard_iff.mp his
      exact .inr ⟨rfl, he⟩
  · rintro (⟨r, hr, his⟩ | ⟨rfl, he⟩)
    · exact ⟨r, List.mem_append_left _ hr, his⟩
    · have hrow := List.mem_map_of_mem (f := shardRow n) he
      exact ⟨_, List.mem_append_right _ hrow, shardRow_isActiveShard_iff.mpr ⟨rfl, rfl⟩, rfl, rfl⟩

/-- A row with another id does not matter. -/
theorem statusMirrored_withDeal {row : DealRow} {n id : Nat} {es : List Announced} {deal : Deal}
    (h : StatusMirrored db id deal) (hother : row.dealId ≠ toString id) :
    StatusMirrored (db.withDeal row n es) id deal := by
  obtain ⟨⟨r, hr, hid⟩, hall⟩ := h
  refine ⟨⟨r, List.mem_append_left _ hr, hid⟩, fun r hr hid => ?_⟩
  rcases List.mem_append.mp hr with hr | hr
  · exact hall r hr hid
  · obtain rfl := List.mem_singleton.mp hr
    exact absurd hid hother

/-- A mirror with the rows of the new deal mirrors the marketplace after `createDeal`. -/
theorem mirrors_created (hne : msg.sender ≠ this) (h : s.createDeal this msg params = .ok (s', logs))
    (hm : Mirrors db s.market)
    (hslot : ∀ p, ((s.market.deals s.market.dealCount).shardAllocations p).active = false)
    (hnew : ∀ r ∈ db.deals, r.dealId ≠ toString s.market.dealCount) {row : DealRow}
    (hid : row.dealId = toString s.market.dealCount) (hstatus : row.status = DealStatus.Active.text) :
    Mirrors (db.withDeal row s.market.dealCount (announced logs)) s'.market := by
  obtain ⟨_, _, -, hannounced, -, hnodup⟩ := createDeal_logs h
  obtain ⟨deal, hdeals, hcount, hactive, hallocs⟩ := createDeal_wrote hne h
  refine ⟨fun id hlt => ?_, fun id p i cid => ?_, fun r hr hractive => ?_⟩
  · rw [hcount] at hlt
    by_cases hnow : id = s.market.dealCount
    · subst hnow
      rw [hdeals, Function.update_self]
      refine ⟨⟨row, List.mem_append_right _ (List.mem_singleton_self row), hid⟩, fun r hr hrid => ?_⟩
      rcases List.mem_append.mp hr with hr | hr
      · exact absurd hrid (hnew r hr)
      · obtain rfl := List.mem_singleton.mp hr
        rw [hactive, hstatus]
    · rw [hdeals, Function.update_of_ne hnow]
      refine statusMirrored_withDeal (hm.status id (by omega)) ?_
      rw [hid]
      exact fun heq => hnow (toString_inj heq.symm)
  · rw [stores_withDeal, hm.shards id p i cid]
    by_cases hnow : id = s.market.dealCount
    · subst hnow
      simp [hdeals, Deal.allots, hallocs, assigned_iff hnodup, hannounced, hslot p]
    · rw [hdeals, Function.update_of_ne hnow, or_iff_left fun hsame => hnow hsame.1.symm]
  · rcases List.mem_append.mp hr with hr | hr
    · exact hm.known r hr hractive
    · obtain ⟨e, -, rfl⟩ := List.mem_map.mp hr
      exact ⟨_, _, shardRow_isActiveShard_iff.mpr ⟨rfl, rfl⟩⟩

end Creation

/-! ### In the small market -/

namespace SmallMarket

/-- Setting up takes no call of the marketplace. -/
theorem market_setup : (after []).market = deployed.market := by
  refine run_invariant (I := fun s : System => s.market = deployed.market)
    (C := fun _ (a : Action this) => ∀ c, a.call ≠ .market c) rfl ?_ _ (meets_of_forall _ ?_)
  · intro s a s' logs hI hC h
    unfold System.step at h
    split at h
    · next c hcall => exact absurd hcall (hC c)
    · simp only [bind_eq_ok, pure_eq_ok, Prod.exists, Prod.mk.injEq] at h
      obtain ⟨_, _, -, rfl, -⟩ := h
      exact hI
    · simp only [bind_eq_ok, pure_eq_ok, Prod.exists, Prod.mk.injEq] at h
      obtain ⟨_, _, -, rfl, -⟩ := h
      exact hI
  · intro a ha _ c hcall
    simp only [setup, List.append_nil, List.mem_append, List.mem_cons, List.mem_map, List.not_mem_nil,
      or_false] at ha
    obtain (rfl | rfl | rfl | rfl) | ⟨i, -, rfl⟩ := ha <;> cases hcall

/-- The database with the client's deal in it. -/
def mirror : Database :=
  Database.withDeal {}
    { dealId := toString (after []).market.dealCount, clientAddress := "client", fileCid := "QmTestFile",
      fileSizeGb := 10, totalCost := 1, providerPayment := 1, protocolFee := 0 }
    (after []).market.dealCount (announced created.2)

/-- The tables of the example mirror its market. -/
theorem mirror_mirrors : Mirrors mirror created.1.market := by
  have hempty : Mirrors {} (after []).market := by
    rw [market_setup]
    refine ⟨?_, ?_, ?_⟩
    · intro id hlt
      cases hlt
    · intro id p i cid
      refine iff_of_false ?_ ?_
      · rintro ⟨r, hr, -⟩
        cases hr
      · rintro ⟨hactive, -⟩
        cases hactive
    · intro r hr
      cases hr
  refine mirrors_created client.ne_this creation_eq hempty ?_ ?_ rfl rfl
  · rw [market_setup]
    exact fun _ => rfl
  · intro r hr
    cases hr

/-- The client cancels the deal at once. -/
def cancellation : Tx (System × List Log) := created.1.cancelDeal this ⟨client.addr, 0⟩ 0

theorem cancellation_goes_through : revertOf cancellation = none := by
  unfold cancellation created
  decide +kernel

@[irreducible] def cancelled : System × List Log := resultOf cancellation cancellation_goes_through

theorem cancellation_eq_ok : cancellation = .ok cancelled := by
  unfold cancelled
  exact eq_resultOf cancellation_goes_through

theorem cancellation_eq : created.1.cancelDeal this ⟨client.addr, 0⟩ 0 = .ok (cancelled.1, cancelled.2) :=
  cancellation_eq_ok

/-- The deal is cancelled in the contract only. -/
theorem cancelled_not_mirrored :
    created.1.marketStep this ⟨client.addr, 0⟩ (.cancelDeal 0) = .ok (cancelled.1, cancelled.2) ∧
      Mirrors mirror created.1.market ∧ ¬ Mirrors (handleAll ⟨0, 0⟩ mirror cancelled.2) cancelled.1.market := by
  refine ⟨cancellation_eq, mirror_mirrors, ?_⟩
  rw [cancelDeal_mirrors mirror_mirrors cancellation_eq]
  obtain ⟨_, -, hcount, -⟩ := createDeal_wrote client.ne_this creation_eq
  rw [hcount, dealCount_eq]
  exact fun hcovered => absurd hcovered.1 (by decide)

/-- The owner reports the shard of the first provider as lost. -/
def report : Tx (System × List Log) := created.1.reportLostShard this ⟨owner.addr, 0⟩ 0 (provider 0).addr

theorem report_goes_through : revertOf report = none := by
  unfold report created
  decide +kernel

@[irreducible] def reported : System × List Log := resultOf report report_goes_through

theorem report_eq_ok : report = .ok reported := by
  unfold reported
  exact eq_resultOf report_goes_through

theorem report_eq : created.1.marketStep this ⟨owner.addr, 0⟩ (.reportLostShard 0 (provider 0).addr) =
    .ok (reported.1, reported.2) := report_eq_ok

theorem enough_shards : MIN_PROVIDERS < (created.1.market.deals 0).activeShards := by
  unfold created
  decide +kernel

/-- With fourteen shards left, the database keeps up. -/
theorem reported_mirrored : Mirrors (handleAll ⟨0, 0⟩ mirror reported.2) reported.1.market := by
  refine (mirrors_iff ?_ report_eq mirror_mirrors ⟨0, 0⟩).mpr ⟨.inr enough_shards, ?_⟩
  · intro params h
    cases h
  · intro r hr his
    obtain ⟨e, -, rfl⟩ := List.mem_map.mp hr
    rw [← (shardRow_isActiveShard_iff.mp his).2]
    rfl

end SmallMarket

end Kyneto
