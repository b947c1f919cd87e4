import Kyneto.Kubo.Pinner
import Kyneto.ProviderDaemon
import Kyneto.RestApi.Creation

/-!
# The provider daemon: pins

Every minute the daemon pins the shards that it is assigned, and then unpins the shards of ended deals. Pins and Merkle
trees are kept by content, shards belong to deals, and the list of the deals of a provider ends after 20.

Before it pins, the daemon asks the node whether the content is pinned. To the node that is so as well where the content
is only a part of something else that is pinned, and then the daemon adds no pin of its own. So when the other content
is unpinned, both are gone.

`checkAssignments_iff` says when all shards that the provider has to store are pinned at the end of every cycle.

A cycle is one step: its requests see the same database. The requests to IPFS go through, so they are described by what
they do to the pins; the garbage collection does not touch what is pinned. Others may use the node between two cycles.
-/

namespace Kyneto

open Evm Sql Kubo

namespace ProviderDaemon

/-! ## Pins and trees -/

/-- The wallet of the daemon, when deals were created, what is stored under a content identifier, the library for trees,
how identifiers are read and spelled, and the node with its links. -/
structure DaemonEnv where
  address : String
  createdAt : String → Nat
  content : String → Bytes
  newMerkleTree : List Bytes32 → MerkleTree
  cidOf : String → Cid
  spell : Cid → String
  links : Links
  pinner : Pinner links

structure Daemon where
  pins : Pins := {}                                            -- of the node
  merkleTrees : String → Option ShardTree := fun _ => none

section Operations

variable (env : DaemonEnv) (daemon : Daemon)

/-- The tree of a shard, with its sectors. -/
def DaemonEnv.treeOf (cid : String) : ShardTree := buildMerkleTree env.newMerkleTree (env.content cid)

/-- `pin.ls` answers for what is pinned in any way, and fails otherwise. An answer that is spelled differently does not
count, and after an error the tree is built once more. -/
def ensurePinned (cid : String) : Daemon :=
  if env.pinner.checkIfPinned daemon.pins (env.cidOf cid) then
    { pins := if env.spell (env.cidOf cid) = cid then daemon.pins else daemon.pins.add (env.cidOf cid)
      merkleTrees :=
        if (daemon.merkleTrees cid).isSome then daemon.merkleTrees
        else Function.update daemon.merkleTrees cid (some (env.treeOf cid)) }
  else
    { pins := daemon.pins.add (env.cidOf cid)
      merkleTrees := Function.update daemon.merkleTrees cid (some (env.treeOf cid)) }

/-- A challenge is answered with the tree in memory. -/
def ensureTree (cid : String) : Daemon :=
  if (daemon.merkleTrees cid).isSome then daemon else ensurePinned env daemon cid

/-- That nothing is pinned under the identifier is fine. -/
def unpinAndCleanup (cid : String) : Daemon where
  pins :=
    match daemon.pins.rm (env.cidOf cid) true with
    | .ok pins => pins
    | .error _ => daemon.pins
  merkleTrees := Function.update daemon.merkleTrees cid none

/-! ## What the API answers -/

/-- The deals in which the provider has shards. -/
def providerDeals (db : Database) : List DealRow :=
  db.deals.filter fun d => ∃ s ∈ db.shards, s.dealId = d.dealId ∧ s.providerAddress.toLower = env.address.toLower

/-- The shards of a deal, joined with the providers. -/
def dealShards (db : Database) (dealId : String) : List ShardRow :=
  db.shards.filter fun s => s.dealId = dealId ∧ ∃ p ∈ db.providers, p.address = s.providerAddress

/-- What is listed in which order, before the limit: `GET /api/providers/:address` lists the deals of the provider, and
`GET /api/deals/:id` the shards of a deal. -/
structure Listing where
  deals : List DealRow
  shardsOf : String → List ShardRow

/-- The latest deals come first, and the shards of a deal by their index. Of two that are equal, either can be first. -/
def Listing.Of (listing : Listing) (db : Database) : Prop :=
  listing.deals.Perm (providerDeals env db) ∧
    listing.deals.Pairwise (fun a b => env.createdAt b.dealId ≤ env.createdAt a.dealId) ∧
    ∀ deal ∈ listing.deals.take 20, (listing.shardsOf deal.dealId).Perm (dealShards db deal.dealId) ∧
      (listing.shardsOf deal.dealId).Pairwise fun a b => a.shardIndex ≤ b.shardIndex

instance (listing : Listing) (db : Database) : Decidable (listing.Of env db) :=
  inferInstanceAs (Decidable (_ ∧ _ ∧ _))

/-- `GET /api/providers/:address/cleanup`: the inactive shards of the provider in deals that have ended. -/
def cleanupShards (db : Database) : List ShardRow :=
  db.shards.filter fun s => s.providerAddress.toLower = env.address.toLower ∧ s.active = false ∧
    ∃ d ∈ db.deals, d.dealId = s.dealId ∧ d.status ∈ ["cancelled", "completed", "failed"]

/-! ## A cycle -/

/-- The active shards among those that the daemon finds to be its own. -/
def assignedCIDs (listing : Listing) : List String :=
  (listing.deals.take 20).flatMap fun deal =>
    ((listing.shardsOf deal.dealId).filter fun s => s.providerAddress = env.address ∧ s.active = true).map
      ShardRow.shardCid

def endedCIDs (db : Database) : List String := (cleanupShards env db).map ShardRow.shardCid

def cleanupDeletedShards (db : Database) : Daemon := (endedCIDs env db).foldl (unpinAndCleanup env) daemon

def checkAssignments (db : Database) (listing : Listing) : Except String Daemon := do
  if ∃ p ∈ db.providers, p.address.toLower = env.address.toLower then
    return cleanupDeletedShards env ((assignedCIDs env listing).foldl (ensurePinned env) daemon) db
  else throw "Request failed with status code 404"

end Operations

/-! ## Messages -/

/-- The shards that the handler of `deal:cancelled` unpins. -/
def cancelledCIDs (address : String) (data : CancelledMessage) : Except String (List String) :=
  match data.providerAddresses with
  | none => throw "Cannot read properties of undefined (reading 'some')"
  | some providerAddresses =>
    if providerAddresses.any fun addr => addr.toLower = address.toLower then
      match data.shardCIDs with
      | none => throw "Cannot read properties of undefined (reading 'length')"
      | some shardCIDs => return shardCIDs
    else return []

def handleDealCancelled (env : DaemonEnv) (daemon : Daemon) (data : CancelledMessage) : Except String Daemon := do
  let shardCIDs ← cancelledCIDs env.address data
  return shardCIDs.foldl (unpinAndCleanup env) daemon

/-! ## Runs -/

/-- The database, and the daemon of one provider. -/
structure Storage where
  db : Database
  daemon : Daemon := {}

inductive StorageEvent where
  | writes (statement : Database → Query Database)
  | checks (listing : Listing)                                 -- a cycle of `checkAssignments`
  | hears (data : CancelledMessage)
  | proves (shard : ShardRow)                                  -- a challenge for a shard
  | others (pins : Pins → Pins)                                -- somebody else uses the node

/-- A statement that fails, a cycle without an answer and a message that is not understood change nothing. -/
def Storage.step (env : DaemonEnv) (s : Storage) (a : StorageEvent) : Tx (Storage × List Unit) :=
  match a with
  | .writes statement =>
    match statement s.db with
    | .ok db => .ok ({ s with db }, [])
    | .error _ => .error (.reason "the statement fails")
  | .checks listing =>
    if listing.Of env s.db then
      match checkAssignments env s.daemon s.db listing with
      | .ok daemon => .ok ({ s with daemon }, [])
      | .error e => .error (.reason e)
    else .error (.reason "the API lists something else")
  | .hears data =>
    match handleDealCancelled env s.daemon data with
    | .ok daemon => .ok ({ s with daemon }, [])
    | .error e => .error (.reason e)
  | .proves shard =>
    if shard ∈ dealShards s.db shard.dealId ∧ shard.providerAddress = env.address then
      .ok ({ s with daemon := ensureTree env s.daemon shard.shardCid }, [])
    else .error (.reason "no shard found for the deal assigned to this provider")
  | .others pins => .ok ({ s with daemon := { s.daemon with pins := pins s.daemon.pins } }, [])

/-! ## What is pinned -/

section Pinning

variable (env : DaemonEnv)

/-- `pin.ls` answers for the identifier, and spells it in the same way. -/
def Finds (pins : Pins) (cid : String) : Prop := pins.Has env.links (env.cidOf cid) ∧ env.spell (env.cidOf cid) = cid

/-- In its turn among the assigned shards, the content gets a pin of its own: it is not found, and either that is so for
its spelling, or nothing that comes before it and is not found either contains it. -/
def GetsPin (pins : Pins) (cids : List String) (c : Cid) : Prop :=
  ∃ before cid after, cids = before ++ cid :: after ∧ env.cidOf cid = c ∧ ¬ Finds env pins cid ∧
    (env.spell c ≠ cid ∨ ∀ other ∈ before, ¬ Finds env pins other → ¬ env.links.Within (env.cidOf other) c)

variable {env} {pins : Pins} {daemon : Daemon} {cid : String} {cids : List String} {c : Cid}

theorem not_getsPin_nil : ¬ GetsPin env pins [] c := by
  rintro ⟨before, cid, after, heq, -⟩
  simp at heq

/-- What is found does not change who gets a pin after it. -/
theorem getsPin_of_finds (hfinds : Finds env pins cid) :
    GetsPin env pins (cid :: cids) c ↔ GetsPin env pins cids c := by
  constructor
  · rintro ⟨before, x, after, heq, hx, hnot, hturn⟩
    cases before with
    | nil =>
      obtain ⟨rfl, -⟩ := List.cons_eq_cons.mp heq
      exact absurd hfinds hnot
    | cons y before =>
      obtain ⟨rfl, rfl⟩ := List.cons_eq_cons.mp heq
      exact ⟨before, x, after, rfl, hx, hnot, hturn.imp_right fun h other ho => h other (List.mem_cons_of_mem _ ho)⟩
  · rintro ⟨before, x, after, rfl, hx, hnot, hturn⟩
    refine ⟨cid :: before, x, after, rfl, hx, hnot, hturn.imp_right fun h other ho hother => ?_⟩
    rcases List.mem_cons.mp ho with rfl | ho
    · exact absurd hfinds hother
    · exact h other ho hother

theorem finds_add : Finds env (pins.add c) cid ↔
    (env.links.Within c (env.cidOf cid) ∨ pins.Has env.links (env.cidOf cid)) ∧ env.spell (env.cidOf cid) = cid := by
  rw [Finds, Pins.has_add]

/-- What is not found is pinned, and what it contains does not get a pin after it. -/
theorem getsPin_of_not_finds (hnot : ¬ Finds env pins cid) :
    GetsPin env pins (cid :: cids) c ↔ env.cidOf cid = c ∨ GetsPin env (pins.add (env.cidOf cid)) cids c := by
  constructor
  · rintro ⟨before, x, after, heq, hx, hlost, hturn⟩
    cases before with
    | nil =>
      obtain ⟨rfl, -⟩ := List.cons_eq_cons.mp heq
      exact Or.inl hx
    | cons y before =>
      obtain ⟨rfl, rfl⟩ := List.cons_eq_cons.mp heq
      right
      rcases hturn with hspelled | hturn
      · exact ⟨before, x, after, rfl, hx, fun hfinds => hspelled (hx ▸ hfinds.2), Or.inl hspelled⟩
      · refine ⟨before, x, after, rfl, hx, ?_, Or.inr fun other ho hother => ?_⟩
        · rw [finds_add]
          rintro ⟨hwithin | hhas, hspelled⟩
          · exact hturn cid List.mem_cons_self hnot (hx ▸ hwithin)
          · exact hlost ⟨hhas, hspelled⟩
        · refine hturn other (List.mem_cons_of_mem _ ho) fun hfinds => hother ?_
          exact finds_add.mpr ⟨Or.inr hfinds.1, hfinds.2⟩
  · rintro (rfl | ⟨before, x, after, rfl, hx, hlost, hturn⟩)
    · exact ⟨[], cid, cids, rfl, rfl, hnot, Or.inr fun _ ho => absurd ho List.not_mem_nil⟩
    · have hlost' : ¬ Finds env pins x := fun hfinds => hlost (finds_add.mpr ⟨Or.inr hfinds.1, hfinds.2⟩)
      refine ⟨cid :: before, x, after, rfl, hx, hlost', ?_⟩
      by_cases hspelled : env.spell c = x
      · right
        have houtside : ¬ env.links.Within (env.cidOf cid) c := by
          intro hwithin
          exact hlost (finds_add.mpr ⟨Or.inl (hx ▸ hwithin), hx ▸ hspelled⟩)
        intro other ho hother
        rcases List.mem_cons.mp ho with rfl | ho
        · exact houtside
        · -- if the first pin is why `other` is found now, then it does not contain what `other` contains
          intro hwithin
          have hfound : Finds env (pins.add (env.cidOf cid)) other := by
            by_contra hstill
            exact (hturn.resolve_left fun hne => hne hspelled) other ho hstill hwithin
          obtain ⟨hfirst | hhas, hother'⟩ := finds_add.mp hfound
          · exact houtside (hfirst.trans hwithin)
          · exact hother ⟨hhas, hother'⟩
      · exact Or.inl hspelled

/-- The daemon pins what the node does not list, and only that. -/
theorem pins_ensurePinned : (Finds env daemon.pins cid ∧ (ensurePinned env daemon cid).pins = daemon.pins) ∨
    ¬ Finds env daemon.pins cid ∧ (ensurePinned env daemon cid).pins = daemon.pins.add (env.cidOf cid) := by
  unfold ensurePinned Finds
  rw [← env.pinner.checkIfPinned_iff]
  split
  · next hpinned =>
    by_cases hspelled : env.spell (env.cidOf cid) = cid
    · exact Or.inl ⟨⟨hpinned, hspelled⟩, if_pos hspelled⟩
    · exact Or.inr ⟨fun hfinds => hspelled hfinds.2, if_neg hspelled⟩
  · next hpinned => exact Or.inr ⟨fun hfinds => hpinned hfinds.1, rfl⟩

/-- The pins after the assigned shards have had their turn. -/
theorem pins_ensureEach (cids : List String) (daemon : Daemon) :
    (∀ c, c ∈ (cids.foldl (ensurePinned env) daemon).pins.recursive ↔
      c ∈ daemon.pins.recursive ∨ GetsPin env daemon.pins cids c) ∧
    ∀ c, c ∈ (cids.foldl (ensurePinned env) daemon).pins.direct ↔
      c ∈ daemon.pins.direct ∧ ¬ GetsPin env daemon.pins cids c := by
  induction cids generalizing daemon with
  | nil =>
    exact ⟨fun c => (or_iff_left not_getsPin_nil).symm, fun c => (and_iff_left not_getsPin_nil).symm⟩
  | cons cid cids ih =>
    obtain ⟨hrecursive, hdirect⟩ := ih (ensurePinned env daemon cid)
    rw [List.foldl_cons]
    rcases @pins_ensurePinned env daemon cid with ⟨hfinds, hpins⟩ | ⟨hnot, hpins⟩
    · simp only [getsPin_of_finds hfinds]
      rw [hpins] at hrecursive hdirect
      exact ⟨hrecursive, hdirect⟩
    · rw [hpins] at hrecursive hdirect
      simp only [getsPin_of_not_finds hnot]
      constructor
      · intro c
        rw [hrecursive, Pins.mem_recursive_add, or_assoc, or_left_comm, eq_comm]
      · intro c
        rw [hdirect, Pins.mem_direct_add, not_or, and_assoc, ne_comm]

theorem pins_unpinAndCleanup : (unpinAndCleanup env daemon cid).pins =
    { recursive := daemon.pins.recursive.filter (· ≠ env.cidOf cid)
      direct := daemon.pins.direct.filter (· ≠ env.cidOf cid) } :=
  Pins.rm_filter daemon.pins (env.cidOf cid)

/-- The pins after the shards of ended deals have been unpinned. -/
theorem pins_unpinEach (cids : List String) (daemon : Daemon) :
    (∀ c, c ∈ (cids.foldl (unpinAndCleanup env) daemon).pins.recursive ↔
      c ∈ daemon.pins.recursive ∧ c ∉ cids.map env.cidOf) ∧
    ∀ c, c ∈ (cids.foldl (unpinAndCleanup env) daemon).pins.direct ↔
      c ∈ daemon.pins.direct ∧ c ∉ cids.map env.cidOf := by
  induction cids generalizing daemon with
  | nil => simp
  | cons cid cids ih =>
    obtain ⟨hrecursive, hdirect⟩ := ih (unpinAndCleanup env daemon cid)
    rw [pins_unpinAndCleanup] at hrecursive hdirect
    rw [List.foldl_cons]
    constructor
    · intro c
      rw [hrecursive, List.mem_filter, decide_eq_true_eq, and_assoc, List.map_cons, List.mem_cons, not_or]
    · intro c
      rw [hdirect, List.mem_filter, decide_eq_true_eq, and_assoc, List.map_cons, List.mem_cons, not_or]

end Pinning

/-! ## What is kept -/

section Kept

variable {env : DaemonEnv} {daemon : Daemon} {db : Database} {cid : String}

/-- The content is pinned, and its Merkle tree is in memory. -/
def Kept (env : DaemonEnv) (daemon : Daemon) (cid : String) : Prop :=
  daemon.pins.Has env.links (env.cidOf cid) ∧ daemon.merkleTrees cid = some (env.treeOf cid)

/-- A tree in memory is the tree of its content. -/
def Genuine (env : DaemonEnv) (daemon : Daemon) : Prop :=
  ∀ cid tree, daemon.merkleTrees cid = some tree → tree = env.treeOf cid

/-- The shard is active and assigned to the provider. -/
def Live (env : DaemonEnv) (db : Database) (cid : String) : Prop :=
  ∃ s ∈ db.shards, s.providerAddress = env.address ∧ s.active = true ∧ s.shardCid = cid

def KeepsLive (env : DaemonEnv) (s : Storage) : Prop := ∀ cid, Live env s.db cid → Kept env s.daemon cid

/-- A recursive pin of something that contains the content is left by the cleanup. It has been there or is added in the
cycle. -/
def StaysWithin (env : DaemonEnv) (pins : Pins) (assigned ended : List String) (c : Cid) : Prop :=
  ∃ r, (r ∈ pins.recursive ∨ GetsPin env pins assigned r) ∧ r ∉ ended.map env.cidOf ∧ env.links.Within r c

/-- A pin for the content is left by the cleanup: its own direct pin, or a recursive one of something that contains
it. -/
def StaysPinned (env : DaemonEnv) (pins : Pins) (assigned ended : List String) (c : Cid) : Prop :=
  c ∈ pins.direct ∧ c ∉ ended.map env.cidOf ∨ StaysWithin env pins assigned ended c

/-- No content of an active shard belongs to an inactive shard of an ended deal as well, its tree is in memory or it
belongs to an active shard of a deal in the list, and it stays pinned. -/
def Covered (env : DaemonEnv) (listing : Listing) (s : Storage) : Prop :=
  ∀ cid, Live env s.db cid →
    cid ∉ endedCIDs env s.db ∧
      (s.daemon.merkleTrees cid = some (env.treeOf cid) ∨ cid ∈ assignedCIDs env listing) ∧
      StaysPinned env s.daemon.pins (assignedCIDs env listing) (endedCIDs env s.db) (env.cidOf cid)

/-- A tree is built. -/
theorem trees_of_build {trees : String → Option ShardTree} (hgenuine : Genuine env ⟨daemon.pins, trees⟩) (c : String) :
    (Function.update trees cid (some (env.treeOf cid)) c = some (env.treeOf c) ↔
      c = cid ∨ trees c = some (env.treeOf c)) ∧
      ∀ pins, Genuine env ⟨pins, Function.update trees cid (some (env.treeOf cid))⟩ := by
  constructor
  · by_cases hc : c = cid
    · subst hc
      simp
    · simp [hc]
  · intro pins c tree htree
    by_cases hc : c = cid
    · subst hc
      simpa using htree.symm
    · simp only [Function.update_of_ne hc] at htree
      exact hgenuine c tree htree

/-- Afterwards the tree of the shard is there, and the other trees are as they were. -/
theorem trees_ensurePinned (hgenuine : Genuine env daemon) (c : String) :
    ((ensurePinned env daemon cid).merkleTrees c = some (env.treeOf c) ↔
      c = cid ∨ daemon.merkleTrees c = some (env.treeOf c)) ∧ Genuine env (ensurePinned env daemon cid) := by
  obtain ⟨hbuilt, hgenuine'⟩ := @trees_of_build env daemon cid _ hgenuine c
  unfold ensurePinned
  split
  · by_cases htree : (daemon.merkleTrees cid).isSome = true
    · -- the tree in memory is the right one
      simp only [if_pos htree]
      obtain ⟨tree, htree⟩ := Option.isSome_iff_exists.mp htree
      refine ⟨⟨Or.inr, ?_⟩, hgenuine⟩
      rintro (rfl | h)
      · exact htree.trans (congrArg some (hgenuine c tree htree))
      · exact h
    · simp only [if_neg htree]
      exact ⟨hbuilt, hgenuine' _⟩
  · exact ⟨hbuilt, hgenuine' _⟩

/-- Afterwards the tree of the shard is gone, and the other trees are as they were. -/
theorem trees_unpinAndCleanup (hgenuine : Genuine env daemon) (c : String) :
    ((unpinAndCleanup env daemon cid).merkleTrees c = some (env.treeOf c) ↔
      c ≠ cid ∧ daemon.merkleTrees c = some (env.treeOf c)) ∧ Genuine env (unpinAndCleanup env daemon cid) := by
  unfold unpinAndCleanup
  constructor
  · by_cases hc : c = cid
    · simp [hc]
    · simp [hc]
  · intro c tree htree
    by_cases hc : c = cid
    · subst hc
      simp at htree
    · simp only [Function.update_of_ne hc] at htree
      exact hgenuine c tree htree

theorem trees_ensureEach (cids : List String) (hgenuine : Genuine env daemon) :
    (∀ c, (cids.foldl (ensurePinned env) daemon).merkleTrees c = some (env.treeOf c) ↔
      c ∈ cids ∨ daemon.merkleTrees c = some (env.treeOf c)) ∧
      Genuine env (cids.foldl (ensurePinned env) daemon) := by
  induction cids generalizing daemon with
  | nil => exact ⟨fun c => by simp, hgenuine⟩
  | cons cid cids ih =>
    obtain ⟨htrees, hgenuine'⟩ := ih (trees_ensurePinned hgenuine cid).2
    refine ⟨fun c => ?_, hgenuine'⟩
    rw [List.foldl_cons, htrees, (trees_ensurePinned hgenuine c).1, List.mem_cons, ← or_assoc, or_comm (a := c ∈ cids)]

theorem trees_unpinEach (cids : List String) (hgenuine : Genuine env daemon) :
    (∀ c, (cids.foldl (unpinAndCleanup env) daemon).merkleTrees c = some (env.treeOf c) ↔
      c ∉ cids ∧ daemon.merkleTrees c = some (env.treeOf c)) ∧
      Genuine env (cids.foldl (unpinAndCleanup env) daemon) := by
  induction cids generalizing daemon with
  | nil => exact ⟨fun c => by simp, hgenuine⟩
  | cons cid cids ih =>
    obtain ⟨htrees, hgenuine'⟩ := ih (trees_unpinAndCleanup hgenuine cid).2
    refine ⟨fun c => ?_, hgenuine'⟩
    rw [List.foldl_cons, htrees, (trees_unpinAndCleanup hgenuine c).1, List.mem_cons, not_or, and_assoc, and_left_comm]

/-- The pins after a cycle. -/
theorem pins_checkAssignments {daemon' : Daemon} {listing : Listing}
    (h : checkAssignments env daemon db listing = .ok daemon') :
    (∀ c, c ∈ daemon'.pins.recursive ↔
      (c ∈ daemon.pins.recursive ∨ GetsPin env daemon.pins (assignedCIDs env listing) c) ∧
        c ∉ (endedCIDs env db).map env.cidOf) ∧
    ∀ c, c ∈ daemon'.pins.direct ↔
      (c ∈ daemon.pins.direct ∧ ¬ GetsPin env daemon.pins (assignedCIDs env listing) c) ∧
        c ∉ (endedCIDs env db).map env.cidOf := by
  unfold checkAssignments at h
  split at h
  · obtain rfl := pure_eq_ok.mp h
    obtain ⟨hadded, hdirect⟩ := @pins_ensureEach env (assignedCIDs env listing) daemon
    obtain ⟨hleft, hdirect'⟩ :=
      @pins_unpinEach env (endedCIDs env db) ((assignedCIDs env listing).foldl (ensurePinned env) daemon)
    unfold cleanupDeletedShards
    simp only [hleft, hdirect', hadded, hdirect, implies_true, and_self]
  · cases h

/-- What is under a recursive pin after a cycle. -/
theorem within_checkAssignments {daemon' : Daemon} {listing : Listing}
    (h : checkAssignments env daemon db listing = .ok daemon') (c : Cid) :
    (∃ r ∈ daemon'.pins.recursive, env.links.Within r c) ↔
      StaysWithin env daemon.pins (assignedCIDs env listing) (endedCIDs env db) c := by
  simp only [StaysWithin, (pins_checkAssignments h).1, and_assoc]

/-- What a cycle pins: what stays pinned. -/
theorem has_checkAssignments {daemon' : Daemon} {listing : Listing}
    (h : checkAssignments env daemon db listing = .ok daemon') (c : Cid) : daemon'.pins.Has env.links c ↔
      StaysPinned env daemon.pins (assignedCIDs env listing) (endedCIDs env db) c := by
  rw [Pins.Has, within_checkAssignments h, (pins_checkAssignments h).2, StaysPinned]
  constructor
  · rintro (⟨⟨hpin, -⟩, hstays⟩ | hwithin)
    · exact Or.inl ⟨hpin, hstays⟩
    · exact Or.inr hwithin
  · rintro (⟨hpin, hstays⟩ | hwithin)
    · -- a direct pin may have become a recursive one
      by_cases hgets : GetsPin env daemon.pins (assignedCIDs env listing) c
      · exact Or.inr ⟨c, Or.inr hgets, hstays, .refl⟩
      · exact Or.inl ⟨⟨hpin, hgets⟩, hstays⟩
    · exact Or.inr hwithin

/-- The trees after a cycle: of what the daemon finds assigned or had in memory, and does not clean up. -/
theorem trees_checkAssignments {daemon' : Daemon} {listing : Listing}
    (h : checkAssignments env daemon db listing = .ok daemon') (hgenuine : Genuine env daemon) :
    (∀ c, daemon'.merkleTrees c = some (env.treeOf c) ↔ c ∉ endedCIDs env db ∧
      (c ∈ assignedCIDs env listing ∨ daemon.merkleTrees c = some (env.treeOf c))) ∧ Genuine env daemon' := by
  unfold checkAssignments at h
  split at h
  · obtain rfl := pure_eq_ok.mp h
    obtain ⟨hbuilt, hgenuine'⟩ := trees_ensureEach (assignedCIDs env listing) hgenuine
    obtain ⟨hleft, hgenuine''⟩ := trees_unpinEach (endedCIDs env db) hgenuine'
    refine ⟨fun c => ?_, hgenuine''⟩
    rw [← hbuilt]
    exact hleft c
  · cases h

end Kept

/-! ## Runs -/

section Runs

variable {env : DaemonEnv} {s s' : Storage} {a : StorageEvent} {logs : List Unit} {listing : Listing}

/-- Every tree that the daemon keeps is the tree of its shard. -/
theorem genuine_step (h : Storage.step env s a = .ok (s', logs)) (hgenuine : Genuine env s.daemon) :
    Genuine env s'.daemon := by
  unfold Storage.step at h
  cases a with
  | writes statement =>
    simp only at h
    split at h
    · cases h
      exact hgenuine
    · cases h
  | checks listing =>
    simp only at h
    split at h
    · split at h
      · next daemon hdaemon =>
        cases h
        exact (trees_checkAssignments hdaemon hgenuine).2
      · cases h
    · cases h
  | hears data =>
    simp only at h
    split at h
    · next daemon hdaemon =>
      cases h
      unfold handleDealCancelled at hdaemon
      simp only [bind_eq_ok, pure_eq_ok] at hdaemon
      obtain ⟨cids, -, rfl⟩ := hdaemon
      exact (trees_unpinEach cids hgenuine).2
    · cases h
  | proves shard =>
    simp only at h
    split at h
    · cases h
      unfold ensureTree
      split
      · exact hgenuine
      · exact (trees_ensurePinned hgenuine shard.shardCid).2
    · cases h
  | others pins =>
    cases h
    exact hgenuine

/-- The API answers as soon as the provider is in the database. -/
theorem checks_succeeds (hlisting : listing.Of env s.db)
    (h : ∃ p ∈ s.db.providers, p.address.toLower = env.address.toLower) :
    ∃ s', Storage.step env s (.checks listing) = .ok (s', []) := by
  unfold Storage.step checkAssignments
  simp only [if_pos hlisting, if_pos h]
  exact ⟨_, rfl⟩

/-- A cycle keeps what the provider has to store exactly if all of it is covered. -/
theorem keepsLive_iff (h : Storage.step env s (.checks listing) = .ok (s', logs)) (hgenuine : Genuine env s.daemon) :
    KeepsLive env s' ↔ Covered env listing s := by
  unfold Storage.step at h
  simp only at h
  split at h
  · split at h
    · next daemon hdaemon =>
      cases h
      obtain ⟨htrees, -⟩ := trees_checkAssignments hdaemon hgenuine
      unfold KeepsLive Covered Kept
      refine forall_congr' fun cid => forall_congr' fun _ => ?_
      rw [htrees, has_checkAssignments hdaemon, or_comm, and_comm, and_assoc]
    · cases h
  · cases h

/-- **Cleanup does not unpin live data** in the cycles of a run exactly if before each of them all contents of active
shards of the provider are covered. -/
theorem checkAssignments_iff (env : DaemonEnv) (db : Database) (pins : Pins) (as : List StorageEvent) :
    (∀ e ∈ history (Storage.step env) ⟨db, { pins }⟩ as, ∀ listing, e.act = .checks listing →
        KeepsLive env e.post) ↔
      ∀ e ∈ history (Storage.step env) ⟨db, { pins }⟩ as, ∀ listing, e.act = .checks listing →
        Covered env listing e.pre := by
  have hgenuine : ∀ e ∈ history (Storage.step env) ⟨db, { pins }⟩ as, Genuine env e.pre.daemon := by
    have hinit : Genuine env { pins } := fun _ _ htree => by cases htree
    refine forall_history (I := fun s : Storage => Genuine env s.daemon) hinit ?_ as (meets_true _ as)
    intro s a s' logs hs _ hstep
    exact ⟨genuine_step hstep hs, hs⟩
  have hcycle : ∀ e ∈ history (Storage.step env) ⟨db, { pins }⟩ as, ∀ listing, e.act = .checks listing →
      (KeepsLive env e.post ↔ Covered env listing e.pre) := by
    intro e he listing hact
    have hok := history_ok he
    rw [hact] at hok
    exact keepsLive_iff hok (hgenuine e he)
  constructor
  · intro h e he listing hact
    exact (hcycle e he listing hact).mp (h e he listing hact)
  · intro h e he listing hact
    exact (hcycle e he listing hact).mpr (h e he listing hact)

end Runs

/-! ### Files of zeros -/

namespace SmallDaemon

/-- The block of a file of two equal chunks links to the block of a chunk twice. -/
def links : Links := fun _ hash => if hash = 1 then [.v1 rawCodec 2, .v1 rawCodec 2] else []

variable {r c d : Cid}

theorem links_of_leads (h : links.Leads r c) : links c.type c.hash = [] := by
  unfold Links.Leads links at h
  split at h
  · obtain rfl : c = .v1 rawCodec 2 := by simpa using h
    rfl
  · cases h

/-- In the example, a block is within a root if it is the root or its only leaf. -/
theorem within_iff : links.Within r c ↔ r = c ∨ links.Leads r c := by
  constructor
  · intro h
    induction h with
    | refl => exact Or.inl rfl
    | @tail d e _ hleads ih =>
      rcases ih with rfl | hfirst
      · exact Or.inr hleads
      · rw [Links.Leads, links_of_leads hfirst] at hleads
        cases hleads
  · rintro (rfl | h)
    · exact .refl
    · exact .single h

def pinner : Pinner links where
  checkIfPinned pins c := c ∈ pins.direct ∨ ∃ r ∈ pins.recursive, r = c ∨ c ∈ links r.type r.hash
  checkIfPinned_iff {pins c} := by
    rw [decide_eq_true_eq, Pins.Has]
    simp only [within_iff]
    rfl

def env : DaemonEnv where
  address := "0xpat"
  createdAt _ := 0
  content _ := []
  newMerkleTree _ := { getHexRoot := 0, getHexProof := fun _ => [] }
  cidOf cid := if cid = "bafy00" then .v1 dagProtobuf 1 else .v1 rawCodec 2
  spell c := if c = .v1 dagProtobuf 1 then "bafy00" else "bafy0"
  links
  pinner

def schema : DealSchema := .extended fun _ => ""

def api : ApiEnv := .full (fun _ => none) fun _ _ _ => true

def start : Storage := { db := { providers := [{ address := "0xpat" }] } }

/-- A deal with one shard. -/
def assignments (dealId shardCid : String) : List (Database → Query Database) :=
  [schema.insertDeal dealId "0xAlice" "Qm0" { fileSizeGb := 1, storageCost := 100, protocolFee := 3 },
    schema.insertShard { dealId, providerAddress := "0xpat", shardIndex := 0, shardCid }]

def assign (dealId shardCid : String) : List StorageEvent := (assignments dealId shardCid).map .writes

def cancel (dealId : String) : List StorageEvent := [.writes (api.cancelDeal dealId), .writes (api.dropShards dealId)]

/-- What the API lists after a run, in the order of the tables. -/
def listingAfter (as : List StorageEvent) : Listing :=
  let db := (run (Storage.step env) start as).db
  ⟨providerDeals env db, dealShards db⟩

/-- A cycle after a run. -/
def thenChecks (as : List StorageEvent) : List StorageEvent := as ++ [.checks (listingAfter as)]

/-- The file of two chunks is pinned first. A file of one of the chunks is found pinned then, and so it gets no pin of
its own; when the first deal is cancelled, nothing is pinned. -/
example :
    (run (Storage.step env) start (thenChecks
      (thenChecks (thenChecks (assign "1" "bafy00") ++ assign "2" "bafy0") ++ cancel "1"))).daemon.pins = {} := by
  decide +kernel

/-- The daemon pins the shards of two deals, which have the same content, and the first deal is cancelled. -/
def sharedContent : List StorageEvent := thenChecks (assign "1" "bafy0" ++ assign "2" "bafy0") ++ cancel "1"

/-- The first of the two deals is cancelled. -/
def oneDeal : Database := (run (Storage.step env) start sharedContent).db

/-- The second deal is active, and the next cycle unpins its shard. -/
theorem sharedContent_unpinned :
    ¬ ∀ e ∈ history (Storage.step env) start (thenChecks sharedContent),
      ∀ listing, e.act = .checks listing → KeepsLive env e.post := by
  have hstate : (listingAfter sharedContent).Of env oneDeal ∧
      (∃ p ∈ oneDeal.providers, p.address.toLower = env.address.toLower) ∧
      (∃ s ∈ oneDeal.shards, s.providerAddress = env.address ∧ s.active = true ∧ s.shardCid = "bafy0") ∧
      "bafy0" ∈ endedCIDs env oneDeal := by
    decide +kernel
  obtain ⟨hlisting, hprovider, hlive, hended⟩ := hstate
  obtain ⟨s', hstep⟩ := checks_succeeds (s := run (Storage.step env) start sharedContent) hlisting hprovider
  have hgenuine : Genuine env (run (Storage.step env) start sharedContent).daemon :=
    run_invariant (I := fun s => Genuine env s.daemon) (fun _ _ htree => by cases htree)
      (fun _ _ _ _ h _ hstep => genuine_step hstep h) sharedContent (meets_true _ _)
  intro hall
  have hlast := history_snoc_ok hstep ▸ List.mem_append_right _ (List.mem_singleton_self _)
  have hkeeps := hall _ hlast _ rfl
  exact ((keepsLive_iff hstep hgenuine).mp hkeeps "bafy0" hlive).1 hended

end SmallDaemon

end ProviderDaemon

end Kyneto
