import Kyneto.Kubo.Node
import Kyneto.ProviderDaemon.Pins

/-!
# The provider daemon: blocks

The pins of the daemon are the pins of its node. The node knows what is pinned, fetches the blocks of what the
daemon pins, and collects garbage after every unpin. Others use the node as well: they put and remove blocks, pin and
unpin what they like, and collect garbage at any time.

`storage_step` forgets the blocks, and what is left is a step of the daemon. `blocks_stored_iff` goes the other way: at
the end of a cycle the provider has all blocks of the shards that it has to store, where each of them stays under a
recursive pin. A direct pin is not enough. `pin.ls` finds it, so the daemon adds no pin of its own, and a collection
takes the blocks that the shard links to.
-/

namespace Kyneto

open Evm Sql Kubo

namespace ProviderDaemon

/-- What `pin.add` has to fetch, and whether a storage vault is configured. -/
structure NodeEnv extends DaemonEnv where
  fetched : Cid → List Multihash
  fetched_complete : ∀ c, Complete links (fetched c) c
  vault : Bool := false

/-- The database, the trees in the memory of the daemon, and its node. -/
structure DaemonNode where
  db : Database
  merkleTrees : String → Option ShardTree := fun _ => none
  repo : Repo

/-- The garbage collections after the unpins of one step. -/
abbrev Collections (links : Links) := Nat → (repo : Repo) → Collection links repo

inductive DaemonNodeEvent (links : Links) where
  | writes (statement : Database → Query Database)
  | checks (listing : Listing) (run : Collections links)
  | hears (data : CancelledMessage) (run : Collections links)
  | proves (shard : ShardRow)
  | node (e : NodeEvent links)                                 -- somebody else uses the node

namespace DaemonNode

variable (s : DaemonNode)

/-! ## Without the blocks -/

def daemon : Daemon := ⟨s.repo.toPins, s.merkleTrees⟩

def storage : Storage := ⟨s.db, s.daemon⟩

/-- What the daemon sees of an event. -/
def seen {links : Links} : DaemonNodeEvent links → StorageEvent
  | .writes statement => .writes statement
  | .checks listing _ => .checks listing
  | .hears data _ => .hears data
  | .proves shard => .proves shard
  | .node e => .others fun _ => (exec Repo.step s.repo e).toPins

/-! ## Steps -/

section Definitions

variable (env : NodeEnv)

/-- `pin.add` fetches the blocks and pins them, unless `pin.ls` has found the identifier. -/
def pinCommands (cid : String) : List (NodeEvent env.links) :=
  if env.pinner.checkIfPinned s.repo.toPins (env.cidOf cid) ∧ env.spell (env.cidOf cid) = cid then []
  else (env.fetched (env.cidOf cid)).map .puts ++ [.pins (env.cidOf cid) true]

/-- With a vault, an exception comes before the garbage collection: a vault has no `decreaseUsedGB`. -/
def unpinCommands (run : (repo : Repo) → Collection env.links repo) (cid : String) : List (NodeEvent env.links) :=
  .unpins (env.cidOf cid) true :: if env.vault then [] else [.collects run]

def ensurePinned (cid : String) : DaemonNode where
  db := s.db
  merkleTrees := (ProviderDaemon.ensurePinned env.toDaemonEnv s.daemon cid).merkleTrees
  repo := Evm.run Repo.step s.repo (s.pinCommands env cid)

def unpinAndCleanup (run : (repo : Repo) → Collection env.links repo) (cid : String) : DaemonNode where
  db := s.db
  merkleTrees := Function.update s.merkleTrees cid none
  repo := Evm.run Repo.step s.repo (unpinCommands env run cid)

def unpinEach (run : Collections env.links) (cids : List String) : DaemonNode :=
  cids.zipIdx.foldl (fun s (cid, i) => s.unpinAndCleanup env (run i) cid) s

def step (a : DaemonNodeEvent env.links) : Tx (DaemonNode × List GcResult) :=
  match a with
  | .writes statement =>
    match statement s.db with
    | .ok db => .ok ({ s with db }, [])
    | .error _ => .error (.reason "the statement fails")
  | .checks listing run =>
    if listing.Of env.toDaemonEnv s.db then
      if ∃ p ∈ s.db.providers, p.address.toLower = env.address.toLower then
        .ok (((assignedCIDs env.toDaemonEnv listing).foldl (ensurePinned · env) s).unpinEach env run
          (endedCIDs env.toDaemonEnv s.db), [])
      else .error (.reason "Request failed with status code 404")
    else .error (.reason "the API lists something else")
  | .hears data run =>
    match cancelledCIDs env.address data with
    | .ok shardCIDs => .ok (s.unpinEach env run shardCIDs, [])
    | .error e => .error (.reason e)
  | .proves shard =>
    if shard ∈ dealShards s.db shard.dealId ∧ shard.providerAddress = env.address then
      .ok (if (s.merkleTrees shard.shardCid).isSome then s else s.ensurePinned env shard.shardCid, [])
    else .error (.reason "no shard found for the deal assigned to this provider")
  | .node e => do
    let (repo, logs) ← s.repo.step e
    return ({ s with repo }, logs)

end Definitions

end DaemonNode

/-! ## A step of the daemon -/

section Refinement

variable {env : NodeEnv} {s s' : DaemonNode} {cid : String} {cids : List String} {logs : List GcResult}
  {run : (repo : Repo) → Collection env.links repo} {runs : Collections env.links}

/-- All that is put is there then, and nothing else has changed. -/
theorem run_puts {links : Links} (hashes : List Multihash) (repo : Repo) :
    Evm.run (@Repo.step links) repo (hashes.map .puts) =
      { repo with blocks := repo.blocks ++ hashes.filter fun hash => ¬ hash.isIdentity } := by
  induction hashes generalizing repo with
  | nil => simp
  | cons hash hashes ih =>
    have hput : exec (@Repo.step links) repo (.puts hash) =
      { repo with blocks := if hash.isIdentity then repo.blocks else repo.blocks ++ [hash] } := rfl
    rw [List.map_cons, run_cons, hput, ih]
    by_cases hidentity : hash.isIdentity = true <;> simp [hidentity]

/-- The commands for a new pin. -/
theorem run_pinAdd {links : Links} (hashes : List Multihash) (c : Cid) (repo : Repo) :
    Evm.run (@Repo.step links) repo (hashes.map .puts ++ [.pins c true]) =
      { repo with
        toPins := repo.toPins.add c, blocks := repo.blocks ++ hashes.filter fun hash => ¬ hash.isIdentity } := by
  rw [run_append, run_puts]
  rfl

/-- Its node does for the daemon what the daemon expects. -/
theorem daemon_ensurePinned :
    (s.ensurePinned env cid).daemon = ensurePinned env.toDaemonEnv s.daemon cid := by
  have hpins : (Evm.run Repo.step s.repo (s.pinCommands env cid)).toPins =
      (ensurePinned env.toDaemonEnv s.daemon cid).pins := by
    unfold DaemonNode.pinCommands ensurePinned DaemonNode.daemon
    by_cases hpinned : env.pinner.checkIfPinned s.repo.toPins (env.cidOf cid) = true
    · by_cases hspelled : env.spell (env.cidOf cid) = cid
      · simp [hpinned, hspelled]
      · simp [hpinned, hspelled, run_pinAdd]
    · simp [hpinned, run_pinAdd]
  unfold DaemonNode.ensurePinned
  rw [DaemonNode.daemon, hpins]

theorem daemon_ensureEach :
    (cids.foldl (DaemonNode.ensurePinned · env) s).daemon = cids.foldl (ensurePinned env.toDaemonEnv) s.daemon := by
  induction cids generalizing s with
  | nil => rfl
  | cons cid cids ih => rw [List.foldl_cons, List.foldl_cons, ih, daemon_ensurePinned]

/-- A removal that fails leaves the pins. -/
theorem exec_unpins {links : Links} (c : Cid) (repo : Repo) :
    exec (@Repo.step links) repo (.unpins c true) = { repo with
      toPins := { recursive := repo.recursive.filter (· ≠ c), direct := repo.direct.filter (· ≠ c) } } := by
  rw [← Pins.rm_filter repo.toPins c]
  cases hrm : repo.toPins.rm c true with
  | error e => exact exec_of_error (by simp only [Repo.step, hrm]; rfl)
  | ok pins => exact exec_of_ok (by simp only [Repo.step, hrm]; rfl)

theorem run_unpinCommands (repo : Repo) :
    (Evm.run Repo.step repo (DaemonNode.unpinCommands env run cid)).toPins =
      { recursive := repo.recursive.filter (· ≠ env.cidOf cid), direct := repo.direct.filter (· ≠ env.cidOf cid) } := by
  unfold DaemonNode.unpinCommands
  rw [run_cons, exec_unpins]
  split
  · rfl
  · rw [run_cons, run_nil]
    change (GarbageCollect (run _)).1.toPins = _
    rw [gc_pins]

theorem daemon_unpinAndCleanup :
    (s.unpinAndCleanup env run cid).daemon = unpinAndCleanup env.toDaemonEnv s.daemon cid := by
  unfold DaemonNode.unpinAndCleanup DaemonNode.daemon
  rw [run_unpinCommands]
  have hpins := @pins_unpinAndCleanup env.toDaemonEnv s.daemon cid
  exact congrArg (fun pins => Daemon.mk pins _) hpins.symm

theorem daemon_unpinEach :
    (s.unpinEach env runs cids).daemon = cids.foldl (unpinAndCleanup env.toDaemonEnv) s.daemon := by
  unfold DaemonNode.unpinEach
  generalize 0 = i
  induction cids generalizing s i with
  | nil => rfl
  | cons cid cids ih => rw [List.zipIdx_cons, List.foldl_cons, List.foldl_cons, ih, daemon_unpinAndCleanup]

@[simp] theorem db_ensureEach : (cids.foldl (DaemonNode.ensurePinned · env) s).db = s.db := by
  induction cids generalizing s with
  | nil => rfl
  | cons cid cids ih => exact ih

/-- What every unpin keeps is kept by all of them together. -/
theorem unpinEach_induction {P : DaemonNode → Prop} (hs : P s)
    (next : ∀ (s : DaemonNode) (run : (repo : Repo) → Collection env.links repo) (cid : String),
      P s → P (s.unpinAndCleanup env run cid)) : P (s.unpinEach env runs cids) := by
  unfold DaemonNode.unpinEach
  apply List.foldlRecOn
  · exact hs
  · rintro s hs ⟨cid, i⟩ -
    exact next s (runs i) cid hs

@[simp] theorem db_unpinEach : (s.unpinEach env runs cids).db = s.db := by
  apply unpinEach_induction (P := fun s' => s'.db = s.db) rfl
  intro s' run cid hs'
  exact hs'

/-- **A step of the daemon with its node is a step of the daemon** if the blocks are forgotten. -/
theorem storage_step {a : DaemonNodeEvent env.links} (h : s.step env a = .ok (s', logs)) :
    Storage.step env.toDaemonEnv s.storage (s.seen a) = .ok (s'.storage, []) := by
  cases a with
  | writes statement =>
    simp only [DaemonNode.step] at h
    split at h
    · next db hdb =>
      cases h
      simp only [DaemonNode.seen, Storage.step, DaemonNode.storage, hdb]
      rfl
    · cases h
  | checks listing run =>
    simp only [DaemonNode.step] at h
    split at h
    · next hlisting =>
      split at h
      · next hprovider =>
        cases h
        -- the cycle of the daemon is the same with the blocks and without
        have hchecks : checkAssignments env.toDaemonEnv s.daemon s.db listing =
            .ok (cleanupDeletedShards env.toDaemonEnv
              ((assignedCIDs env.toDaemonEnv listing).foldl (ensurePinned env.toDaemonEnv) s.daemon) s.db) :=
          if_pos hprovider
        simp only [DaemonNode.seen, Storage.step, DaemonNode.storage, if_pos hlisting, hchecks, db_unpinEach,
          db_ensureEach, daemon_unpinEach, daemon_ensureEach]
        rfl
      · cases h
    · cases h
  | hears data run =>
    simp only [DaemonNode.step] at h
    split at h
    · next cids hcids =>
      cases h
      simp only [DaemonNode.seen, Storage.step, DaemonNode.storage, handleDealCancelled, hcids, db_unpinEach,
        daemon_unpinEach]
      rfl
    · cases h
  | proves shard =>
    simp only [DaemonNode.step] at h
    split at h
    · next hshard =>
      cases h
      -- the tree is taken from memory, or built from the file
      have htree : ensureTree env.toDaemonEnv s.daemon shard.shardCid =
          (if (s.merkleTrees shard.shardCid).isSome then s else s.ensurePinned env shard.shardCid).daemon := by
        unfold ensureTree
        split
        · next hsome => exact congrArg DaemonNode.daemon (if_pos hsome).symm
        · next hnone => exact daemon_ensurePinned.symm.trans (congrArg DaemonNode.daemon (if_neg hnone).symm)
      have hdb :
          (if (s.merkleTrees shard.shardCid).isSome then s else s.ensurePinned env shard.shardCid).db = s.db := by
        split <;> rfl
      simp only [DaemonNode.seen, Storage.step, DaemonNode.storage, htree, hdb]
      exact if_pos hshard
    · cases h
  -- what others do to the node are events of the daemon that change its pins
  | node e =>
    simp only [DaemonNode.step, bind_eq_ok, pure_eq_ok, Prod.exists, Prod.mk.injEq] at h
    obtain ⟨repo, l, hnode, rfl, -⟩ := h
    simp only [DaemonNode.seen, exec_of_ok hnode]
    rfl

end Refinement

/-! ## Blocks -/

section Blocks

variable {env : NodeEnv} {s s' : DaemonNode} {cid : String} {cids : List String} {logs : List GcResult}
  {run : (repo : Repo) → Collection env.links repo} {runs : Collections env.links} {c d : Cid}

/-- What the pinned content contains is there with it. -/
theorem complete_of_within {links : Links} {blocks : List Multihash} (hwithin : links.Within c d)
    (h : Complete links blocks c) : Complete links blocks d := by
  induction hwithin with
  | refl => exact h
  | @tail d e _ hleads ih =>
    intro k hk
    refine ih k ?_
    -- the way to `k` goes from `d` over its link to `e`
    have hself : (linkGraph links).Reaches [d] (fun _ => False) e.toCidV1 :=
      ⟨e, .link (.root (List.mem_singleton_self d) id) hleads id, rfl⟩
    refine hk.mem_of_closed (S := (linkGraph links).Reaches [d] fun _ => False) ?_ ?_
    · intro r hr _
      exact List.mem_singleton.mp hr ▸ hself
    · rintro k ⟨n, hn, rfl⟩ -
      exact ⟨n, rfl, fun m hm _ => ⟨m, .link hn hm id, rfl⟩⟩

/-- What is pinned comes with its blocks. -/
theorem complete_ensurePinned (h : PinsComplete env.links s.repo) :
    PinsComplete env.links (s.ensurePinned env cid).repo := by
  unfold DaemonNode.ensurePinned DaemonNode.pinCommands
  split
  · exact h
  · rw [run_pinAdd]
    have hputs := pinsComplete_more (fun hash => List.mem_append_left
      ((env.fetched (env.cidOf cid)).filter fun hash => ¬ hash.isIdentity)) h
    refine (pinsComplete_add hputs).mpr ?_
    intro d hd
    rcases env.fetched_complete (env.cidOf cid) d hd with hfetched | hidentity
    · by_cases hidentity : d.hash.isIdentity = true
      · exact Or.inr hidentity
      · exact Or.inl (List.mem_append_right _ (List.mem_filter.mpr ⟨hfetched, decide_eq_true hidentity⟩))
    · exact Or.inr hidentity

/-- A collection takes nothing that is pinned after the unpin. -/
theorem complete_unpinAndCleanup (h : PinsComplete env.links s.repo) :
    PinsComplete env.links (s.unpinAndCleanup env run cid).repo := by
  have hunpin : PinsComplete env.links (exec (@Repo.step env.links) s.repo (.unpins (env.cidOf cid) true)) := by
    rw [exec_unpins]
    exact pinsComplete_fewer (fun _ => List.mem_of_mem_filter) (fun _ => List.mem_of_mem_filter) h
  unfold DaemonNode.unpinAndCleanup DaemonNode.unpinCommands
  rw [run_cons]
  split
  · exact hunpin
  · exact pinsComplete_gc _ hunpin

theorem complete_ensureEach (h : PinsComplete env.links s.repo) :
    PinsComplete env.links (cids.foldl (DaemonNode.ensurePinned · env) s).repo := by
  induction cids generalizing s with
  | nil => exact h
  | cons cid cids ih => exact ih (complete_ensurePinned h)

theorem complete_unpinEach (h : PinsComplete env.links s.repo) :
    PinsComplete env.links (s.unpinEach env runs cids).repo := by
  apply unpinEach_induction (P := fun s => PinsComplete env.links s.repo) h
  intro s run cid hs
  exact complete_unpinAndCleanup hs

/-- Others are careful. -/
def CarefulOthers (env : NodeEnv) (s : DaemonNode) : DaemonNodeEvent env.links → Prop
  | .node e => Careful env.links s.repo e
  | _ => True

/-- The daemon leaves the pins of its node complete, whatever it does. -/
theorem complete_step {a : DaemonNodeEvent env.links} (h : PinsComplete env.links s.repo)
    (hcareful : CarefulOthers env s a) (hstep : s.step env a = .ok (s', logs)) : PinsComplete env.links s'.repo := by
  cases a with
  | writes statement =>
    simp only [DaemonNode.step] at hstep
    split at hstep
    · cases hstep
      exact h
    · cases hstep
  | checks listing run =>
    simp only [DaemonNode.step] at hstep
    split at hstep
    · split at hstep
      · cases hstep
        exact complete_unpinEach (complete_ensureEach h)
      · cases hstep
    · cases hstep
  | hears data run =>
    simp only [DaemonNode.step] at hstep
    split at hstep
    · cases hstep
      exact complete_unpinEach h
    · cases hstep
  | proves shard =>
    simp only [DaemonNode.step] at hstep
    split at hstep
    · cases hstep
      split
      · exact h
      · exact complete_ensurePinned h
    · cases hstep
  | node e =>
    simp only [DaemonNode.step, bind_eq_ok, pure_eq_ok, Prod.exists, Prod.mk.injEq] at hstep
    obtain ⟨repo, l, hnode, rfl, -⟩ := hstep
    exact (pinsComplete_step h hnode).mpr hcareful

/-! ## Runs -/

/-- Every live shard is under a recursive pin, its tree is in memory, and all its blocks are there. -/
def StoresLive (env : NodeEnv) (s : DaemonNode) : Prop :=
  ∀ cid, Live env.toDaemonEnv s.db cid →
    s.merkleTrees cid = some (env.treeOf cid) ∧ (∃ r ∈ s.repo.recursive, env.links.Within r (env.cidOf cid)) ∧
      Complete env.links s.repo.blocks (env.cidOf cid)

/-- No content of a live shard belongs to an inactive shard of an ended deal as well, its tree is in memory or it
belongs to an active shard of a deal in the list, and it stays under a recursive pin. -/
def CoveredWithin (env : NodeEnv) (listing : Listing) (s : DaemonNode) : Prop :=
  ∀ cid, Live env.toDaemonEnv s.db cid →
    cid ∉ endedCIDs env.toDaemonEnv s.db ∧
      (s.merkleTrees cid = some (env.treeOf cid) ∨ cid ∈ assignedCIDs env.toDaemonEnv listing) ∧
      StaysWithin env.toDaemonEnv s.repo.toPins (assignedCIDs env.toDaemonEnv listing)
        (endedCIDs env.toDaemonEnv s.db) (env.cidOf cid)

/-- A cycle leaves all live shards stored exactly if all of them are covered. -/
theorem storesLive_iff {listing : Listing} {run : Collections env.links}
    (hstep : s.step env (.checks listing run) = .ok (s', logs)) (hgenuine : Genuine env.toDaemonEnv s.daemon)
    (hcomplete : PinsComplete env.links s'.repo) : StoresLive env s' ↔ CoveredWithin env listing s := by
  have hstorage := storage_step hstep
  simp only [DaemonNode.seen, Storage.step] at hstorage
  split at hstorage
  · split at hstorage
    · next daemon hdaemon =>
      have hpost := congrArg Prod.fst (Except.ok.inj hstorage)
      obtain rfl : daemon = s'.daemon := congrArg Storage.daemon hpost
      have hdb : s.db = s'.db := congrArg Storage.db hpost
      obtain ⟨htrees, -⟩ := trees_checkAssignments hdaemon hgenuine
      unfold StoresLive CoveredWithin
      rw [← hdb]
      refine forall_congr' fun cid => forall_congr' fun _ => ?_
      have hwithin := within_checkAssignments hdaemon (env.cidOf cid)
      have hblocks : (∃ r ∈ s'.repo.recursive, env.links.Within r (env.cidOf cid)) →
          Complete env.links s'.repo.blocks (env.cidOf cid) := by
        rintro ⟨r, hr, hrc⟩
        exact complete_of_within hrc (hcomplete.recursive r hr)
      calc _ ↔ s'.merkleTrees cid = some (env.treeOf cid) ∧
              ∃ r ∈ s'.repo.recursive, env.links.Within r (env.cidOf cid) :=
            and_congr_right fun _ => and_iff_left_of_imp hblocks
        _ ↔ _ := by
            refine (and_congr (htrees cid) hwithin).trans ?_
            rw [and_assoc, or_comm]
            rfl
    · cases hstorage
  · cases hstorage

/-- **The blocks of live shards are stored** at the end of the cycles of a run exactly if before each of them all live
shards are covered, whatever garbage is collected in between. -/
theorem blocks_stored_iff (env : NodeEnv) (db : Database) (repo : Repo) (hcomplete : PinsComplete env.links repo)
    (as : List (DaemonNodeEvent env.links))
    (hcareful : Meets (DaemonNode.step · env) (CarefulOthers env) { db, repo } as) :
    (∀ e ∈ history (DaemonNode.step · env) { db, repo } as, ∀ listing run, e.act = .checks listing run →
        StoresLive env e.post) ↔
      ∀ e ∈ history (DaemonNode.step · env) { db, repo } as, ∀ listing run, e.act = .checks listing run →
        CoveredWithin env listing e.pre := by
  have hcycle : ∀ e ∈ history (DaemonNode.step · env) { db, repo } as, ∀ listing run,
      e.act = .checks listing run → (StoresLive env e.post ↔ CoveredWithin env listing e.pre) := by
    refine forall_history (C := CarefulOthers env)
      (I := fun s => PinsComplete env.links s.repo ∧ Genuine env.toDaemonEnv s.daemon) ?_ ?_ as hcareful
    · exact ⟨hcomplete, fun _ _ htree => by cases htree⟩
    · rintro s a s' logs ⟨hcomplete, hgenuine⟩ hcareful hstep
      have hcomplete' := complete_step hcomplete hcareful hstep
      refine ⟨⟨hcomplete', genuine_step (storage_step hstep) hgenuine⟩, ?_⟩
      rintro listing run rfl
      exact storesLive_iff hstep hgenuine hcomplete'
  constructor
  · intro h e he listing run hact
    exact (hcycle e he listing run hact).mp (h e he listing run hact)
  · intro h e he listing run hact
    exact (hcycle e he listing run hact).mpr (h e he listing run hact)

end Blocks

/-! ### A shard and a garbage collection -/

namespace SmallDaemon

def nodeEnv : NodeEnv where
  toDaemonEnv := env
  fetched c := c.hash :: (links c.type c.hash).map Cid.hash
  fetched_complete c := by
    refine complete_of_closed (c.toCidV1 :: (links c.type c.hash).map Cid.toCidV1) List.mem_cons_self ?_
    intro d hd
    rcases List.mem_cons.mp hd with rfl | hd
    · refine ⟨by cases c <;> rfl, Or.inl (by simp), ?_⟩
      intro e he
      rw [Cid.type_toCidV1, Cid.hash_toCidV1] at he
      exact List.mem_cons_of_mem _ (List.mem_map_of_mem he)
    · obtain ⟨e, he, rfl⟩ := List.mem_map.mp hd
      refine ⟨by cases e <;> rfl, Or.inl ?_, ?_⟩
      · rw [Cid.hash_toCidV1]
        exact List.mem_cons_of_mem _ (List.mem_map_of_mem he)
      · -- the block of a chunk links to nothing
        intro k hk
        have hnil : env.links e.type e.hash = [] := links_of_leads he
        rw [Cid.type_toCidV1, Cid.hash_toCidV1, hnil] at hk
        cases hk

def healthy : Collections nodeEnv.links := fun _ repo =>
  .healthy _ repo [[.visits 0, .fetches 0, .visits 0, .fetches 0, .visits 0], [.visits 0, .fetches 0]]

/-- The shard is pinned, somebody puts another block and has the garbage collected, and the next cycle comes. -/
def collected : List (DaemonNodeEvent nodeEnv.links) :=
  (assignments "1" "bafy00").map .writes ++ [.checks (listingAfter (assign "1" "bafy00")) healthy, .node (.puts 7),
    .node (.collects (healthy 0)), .checks (listingAfter (assign "1" "bafy00")) healthy]

def nodeStart : DaemonNode := { db := start.db, repo := { blocks := [], filesRoot := .v0 0 } }

/-- The only content is assigned, and not pinned or pinned by the daemon. -/
def Listed (e : Entry DaemonNode (DaemonNodeEvent nodeEnv.links) GcResult) (listing : Listing) : Prop :=
  (∀ shard ∈ e.pre.db.shards, shard.shardCid = "bafy00") ∧ assignedCIDs env listing = ["bafy00"] ∧
    endedCIDs env e.pre.db = [] ∧ e.pre.repo.direct = [] ∧ e.pre.repo.recursive ⊆ [env.cidOf "bafy00"]

instance (e : Entry DaemonNode (DaemonNodeEvent nodeEnv.links) GcResult) (listing : Listing) :
    Decidable (Listed e listing) :=
  inferInstanceAs (Decidable (_ ∧ _ ∧ _ ∧ _ ∧ _))

/-- If the node lists what it pins, a covered shard is covered within the listing. -/
theorem coveredWithin_of_listed {e : Entry DaemonNode (DaemonNodeEvent nodeEnv.links) GcResult} {listing : Listing}
    (h : Listed e listing) : CoveredWithin nodeEnv listing e.pre := by
  obtain ⟨hshards, hassigned, hended, hdirect, hrecursive⟩ := h
  rintro cid ⟨shard, hshard, -, -, rfl⟩
  rw [hshards shard hshard]
  unfold StaysWithin
  simp only [nodeEnv, hended, hassigned, List.not_mem_nil, not_false_eq_true, true_and, List.mem_singleton_self,
    or_true, List.map_nil]
  refine ⟨env.cidOf "bafy00", ?_, .refl⟩
  by_cases hpin : env.cidOf "bafy00" ∈ e.pre.repo.recursive
  · exact Or.inl hpin
  · -- it is not found, and it comes first
    refine Or.inr ⟨[], "bafy00", [], rfl, rfl, ?_, Or.inr fun _ ho => absurd ho List.not_mem_nil⟩
    rintro ⟨hhas | ⟨r, hr, -⟩, -⟩
    · exact List.not_mem_nil (hdirect ▸ hhas)
    · exact hpin (List.mem_singleton.mp (hrecursive hr) ▸ hr)

theorem listed_collected : ((history (DaemonNode.step · nodeEnv) nodeStart collected).all fun e =>
    match e.act with
    | .checks listing _ => decide (Listed e listing)
    | _ => true) = true := by
  decide +kernel

/-- In the example everything goes through, and whatever is live is stored after each of the checks. -/
theorem blocks_stored_small :
    (history (DaemonNode.step · nodeEnv) nodeStart collected).length = collected.length ∧
      ∀ e ∈ history (DaemonNode.step · nodeEnv) nodeStart collected,
        ∀ listing run, e.act = .checks listing run → StoresLive nodeEnv e.post := by
  have hcomplete : PinsComplete nodeEnv.links nodeStart.repo :=
    ⟨fun _ hc => absurd hc List.not_mem_nil, fun _ hc => absurd hc List.not_mem_nil⟩
  have hcareful : Meets (DaemonNode.step · nodeEnv) (CarefulOthers nodeEnv) nodeStart collected := by
    refine meets_of_forall _ fun a ha s => ?_
    rcases List.mem_append.mp ha with ha | ha
    · obtain ⟨_, -, rfl⟩ := List.mem_map.mp ha
      trivial
    · fin_cases ha <;> trivial
  refine ⟨by decide +kernel, (blocks_stored_iff nodeEnv start.db nodeStart.repo hcomplete collected hcareful).mpr ?_⟩
  intro e he listing run hact
  have hlisted := List.all_eq_true.mp listed_collected e he
  rw [hact] at hlisted
  exact coveredWithin_of_listed (of_decide_eq_true hlisted)

end SmallDaemon

end ProviderDaemon

end Kyneto
