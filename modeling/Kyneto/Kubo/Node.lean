import Kyneto.Evm.Run
import Kyneto.Kubo.GarbageCollection

/-!
# The blocks of a node

Pins, the removal of single blocks and collections exclude one another by a lock, so they are the steps of a node.
Blocks can arrive at any time.

`pins_complete_iff` says when everything that is pinned is there in every state: as long as the pinner accepts only what
is there with all that it links to, and no block is removed under another identifier than the one that pins it.
`RmBlocks` asks whether an identifier is pinned, and deletes by the hash. A collection never does harm. With a hash that
is the block itself the store has nothing to do: such a block is neither put nor deleted.
-/

namespace Kyneto

namespace Kubo

open Evm

/-! ## Removing blocks -/

/-- A request to remove blocks, and what the libraries answer. A pinned identifier comes with a text that says how. -/
structure BlockRemoval where
  cids : List Cid
  force : Bool := false
  quiet : Bool := false
  checkIfPinned : List Cid → Except String (List (Cid × Option String))
  has : Multihash → Option String           -- the error, if there is one
  deleteBlock : Multihash → Option String

structure RemovedBlock where
  hash : Option Cid
  error : Option String := none
  deriving DecidableEq, Repr

section RmBlocks

variable (request : BlockRemoval)

/-- The identifiers that are not pinned, with a report for each of the others. -/
def FilterPinned : List Cid × List RemovedBlock :=
  match request.checkIfPinned request.cids with
  | .error text => ([], [⟨none, some ("pin check failed: " ++ text)⟩])
  | .ok res => ((res.filter fun r => r.2.isNone).map Prod.fst,
      (res.filter fun r => r.2.isSome).map fun r => ⟨some r.1, r.2⟩)

def removeEach (blocks : List Multihash) : List Cid → List Multihash × List RemovedBlock
  | [] => (blocks, [])
  | c :: cids =>
    match request.has c.hash with
    | some text =>
      let (blocks, out) := removeEach blocks cids
      (blocks, ⟨some c, some text⟩ :: out)
    | none =>
      if ¬ Available blocks c.hash ∧ ¬ request.force then
        let (blocks, out) := removeEach blocks cids
        (blocks, ⟨some c, some "ipld: could not find"⟩ :: out)
      else
        match request.deleteBlock c.hash with
        | some text =>
          let (blocks, out) := removeEach blocks cids
          (blocks, ⟨some c, some text⟩ :: out)
        | none =>
          let (blocks, out) := removeEach (if c.hash.isIdentity then blocks else blocks.filter (· ≠ c.hash)) cids
          (blocks, if request.quiet then out else ⟨some c, none⟩ :: out)

def RmBlocks (blocks : List Multihash) : List Multihash × List RemovedBlock :=
  let (stillOkay, pinned) := FilterPinned request
  let (blocks, out) := removeEach request blocks stillOkay
  (blocks, pinned ++ out)

/-- The request gets as far as deleting the block. -/
def Deletes (hash : Multihash) : Prop :=
  (∃ c ∈ (FilterPinned request).1, c.hash = hash) ∧ request.has hash = none ∧ request.deleteBlock hash = none ∧
    hash.isIdentity = false

/-- A block stays unless one of the identifiers has its hash and nothing stops the removal. -/
theorem mem_removeEach {hash : Multihash} (cids : List Cid) (blocks : List Multihash) :
    hash ∈ (removeEach request blocks cids).1 ↔ hash ∈ blocks ∧
      ¬ ((∃ c ∈ cids, c.hash = hash) ∧ request.has hash = none ∧ request.deleteBlock hash = none ∧
        hash.isIdentity = false) := by
  -- on the list of identifiers; the blocks are those that the earlier ones have left
  induction cids generalizing blocks with
  | nil => simp [removeEach]
  | cons c cids ih =>
    unfold removeEach
    by_cases hc : c.hash = hash
    · subst hc
      -- the lookup fails: the block is skipped
      split
      · next hhas => simp [ih, hhas]
      · next hhas =>
        split
        -- the block is not there, and was not there before
        · next hmissing =>
          have hnot : c.hash ∉ blocks := fun hmem => hmissing.1 (Or.inl hmem)
          simp [ih, hnot]
        · split
          · next hdelete => simp [ih, hdelete]
          -- a block that is its own hash is never deleted
          · next hdelete =>
            by_cases hidentity : c.hash.isIdentity = true
            · simp [ih, hidentity]
            · simp [ih, hhas, hdelete, hidentity]
    -- an identifier of another hash does nothing to this block
    · split
      · simp [ih, hc]
      · split
        · simp [ih, hc]
        · split
          · simp [ih, hc]
          · by_cases hidentity : c.hash.isIdentity = true <;> simp [ih, hc, Ne.symm hc, hidentity]

theorem mem_rmBlocks {hash : Multihash} {blocks : List Multihash} :
    hash ∈ (RmBlocks request blocks).1 ↔ hash ∈ blocks ∧ ¬ Deletes request hash :=
  mem_removeEach request _ blocks

end RmBlocks

/-! ## Steps -/

inductive NodeEvent (links : Links) where
  | puts (hash : Multihash)
  | pins (c : Cid) (recursive : Bool)
  | unpins (c : Cid) (recursive : Bool)
  | updates (src dst : Cid) (unpin : Bool)
  | setsFilesRoot (c : Cid)
  | collects (run : (repo : Repo) → Collection links repo)
  | removes (request : BlockRemoval)

def Repo.step {links : Links} (s : Repo) : NodeEvent links → Tx (Repo × List GcResult)
  | .puts hash => .ok ({ s with blocks := if hash.isIdentity then s.blocks else s.blocks ++ [hash] }, [])
  | .pins c true => .ok ({ s with toPins := s.toPins.add c }, [])
  | .pins c false => do
    let toPins ← s.toPins.addDirect c
    return ({ s with toPins }, [])
  | .unpins c recursive => do
    let toPins ← s.toPins.rm c recursive
    return ({ s with toPins }, [])
  | .updates src dst unpin => do
    let toPins ← s.toPins.update src dst unpin
    return ({ s with toPins }, [])
  | .setsFilesRoot c => .ok ({ s with filesRoot := c }, [])
  | .collects run => .ok (GarbageCollect (run s))
  | .removes request => .ok ({ s with blocks := (RmBlocks request s.blocks).1 }, [])

/-! ## Complete pins -/

/-- The block of an identifier is to be had with all that it links to. -/
def Complete (links : Links) (blocks : List Multihash) (c : Cid) : Prop :=
  ∀ d, (linkGraph links).Reaches [c] (fun _ => False) d → Available blocks d.hash

structure PinsComplete (links : Links) (s : Repo) : Prop where
  recursive : ∀ c ∈ s.recursive, Complete links s.blocks c
  direct : ∀ c ∈ s.direct, Available s.blocks c.hash

/-- The block belongs to what is pinned. -/
def Holds (links : Links) (s : Repo) (hash : Multihash) : Prop :=
  (∃ c, Pinned links s c ∧ c.hash = hash) ∨ ∃ c ∈ s.direct, c.hash = hash

/-- Pins are accepted for what is there, and no block of what is pinned is removed. -/
def Careful (links : Links) (s : Repo) : NodeEvent links → Prop
  | .pins c true => Complete links s.blocks c
  | .pins c false => Available s.blocks c.hash
  | .updates _ dst _ => Complete links s.blocks dst
  | .removes request => ∀ hash, Holds links s hash → ¬ Deletes request hash
  | _ => True

section Proofs

variable {links : Links} {s s' : Repo} {a : NodeEvent links} {logs : List GcResult} {c d : Cid} {hash : Multihash}

theorem pinned_of_mem (hc : c ∈ s.recursive) (hd : (linkGraph links).Reaches [c] (fun _ => False) d) :
    Pinned links s d :=
  hd.mono (fun _ hr => List.mem_singleton.mp hr ▸ hc) fun _ h => h

/-- What is pinned belongs to one of the pins. -/
theorem exists_pin_of_pinned (h : Pinned links s d) :
    ∃ c ∈ s.recursive, (linkGraph links).Reaches [c] (fun _ => False) d := by
  obtain ⟨n, hn, rfl⟩ := h
  induction hn with
  | @root n hr hn => exact ⟨n, hr, n, .root List.mem_cons_self hn, rfl⟩
  | @link m n _ hlink hn ih =>
    obtain ⟨c, hc, x, hx, hkey⟩ := ih
    obtain ⟨y, hy, hyn⟩ := Graph.exists_succ_of_key hkey.symm hlink
    exact ⟨c, hc, y, .link hx hy id, hyn⟩

/-- The pins are complete if what they hold is to be had. -/
theorem pinsComplete_iff : PinsComplete links s ↔ ∀ hash, Holds links s hash → Available s.blocks hash := by
  constructor
  · rintro ⟨hrecursive, hdirect⟩ hash (⟨d, hd, rfl⟩ | ⟨c, hc, rfl⟩)
    · obtain ⟨c, hc, hreach⟩ := exists_pin_of_pinned hd
      exact hrecursive c hc d hreach
    · exact hdirect c hc
  · intro h
    exact ⟨fun c hc d hd => h _ (Or.inl ⟨d, pinned_of_mem hc hd, rfl⟩), fun c hc => h _ (Or.inr ⟨c, hc, rfl⟩)⟩

theorem Holds.needed (h : Holds links s hash) : Needed links s hash := by
  rcases h with ⟨c, hc, rfl⟩ | ⟨c, hc, rfl⟩
  · exact ⟨c, Or.inl (Or.inl hc), rfl⟩
  · exact ⟨c.toCidV1, Or.inl (Or.inr (Or.inr ⟨c, hc, rfl⟩)), c.hash_toCidV1⟩

/-- A collection leaves the pins complete. -/
theorem pinsComplete_gc (run : Collection links s) (h : PinsComplete links s) :
    PinsComplete links (GarbageCollect run).1 := by
  rw [pinsComplete_iff] at h ⊢
  have hholds : ∀ hash, Holds links (GarbageCollect run).1 hash ↔ Holds links s hash := by
    intro hash
    rw [gc_pins run]
    rfl
  intro hash hhash
  rw [hholds] at hhash
  refine (h hash hhash).imp_left fun hblock => ?_
  exact mem_gc_of_needed run hblock hhash.needed

/-- More blocks leave the pins complete. -/
theorem pinsComplete_more {blocks : List Multihash} (hblocks : ∀ hash ∈ s.blocks, hash ∈ blocks)
    (h : PinsComplete links s) : PinsComplete links { s with blocks } where
  recursive c hc d hd := (h.recursive c hc d hd).imp_left (hblocks d.hash)
  direct c hc := (h.direct c hc).imp_left (hblocks c.hash)

theorem pinsComplete_fewer {pins : Pins} (hrecursive : ∀ c ∈ pins.recursive, c ∈ s.recursive)
    (hdirect : ∀ c ∈ pins.direct, c ∈ s.direct) (h : PinsComplete links s) :
    PinsComplete links { s with toPins := pins } :=
  ⟨fun c hc => h.recursive c (hrecursive c hc), fun c hc => h.direct c (hdirect c hc)⟩

/-- A new recursive pin has to be complete. -/
theorem pinsComplete_add (h : PinsComplete links s) :
    PinsComplete links { s with toPins := s.toPins.add c } ↔ Complete links s.blocks c := by
  constructor
  · intro h'
    exact h'.recursive c (Pins.mem_recursive_add.mpr (Or.inl rfl))
  · intro hc
    refine ⟨?_, fun d hd => h.direct d (Pins.mem_direct_add.mp hd).1⟩
    intro d hd
    rcases Pins.mem_recursive_add.mp hd with rfl | hd
    · exact hc
    · exact h.recursive d hd

/-- A step leaves the pins complete exactly if it is a careful one. -/
theorem pinsComplete_step (h : PinsComplete links s) (hstep : s.step a = .ok (s', logs)) :
    PinsComplete links s' ↔ Careful links s a := by
  cases a with
  | puts hash =>
    cases hstep
    -- more blocks cannot make a pin incomplete
    refine iff_of_true (pinsComplete_more (fun x hx => ?_) h) trivial
    split
    · exact hx
    · exact List.mem_append_left _ hx
  | pins c recursive =>
    cases recursive with
    -- the pinner has fetched all of the graph before it pins
    | true =>
      cases hstep
      exact pinsComplete_add h
    | false =>
      simp only [Repo.step, Pins.addDirect, bind_eq_ok, require_eq_ok, pure_eq_ok, Prod.mk.injEq, exists_const] at hstep
      obtain ⟨_, ⟨-, rfl⟩, rfl, -⟩ := hstep
      -- a direct pin needs its own block only
      constructor
      · intro h'
        exact h'.direct c List.mem_insert_self
      · intro hc
        refine ⟨h.recursive, ?_⟩
        intro d hd
        rcases List.mem_insert_iff.mp hd with rfl | hd
        · exact hc
        · exact h.direct d hd
  | unpins c recursive =>
    refine iff_of_true ?_ trivial
    simp only [Repo.step, bind_eq_ok, pure_eq_ok, Prod.mk.injEq] at hstep
    obtain ⟨pins, hrm, rfl, -⟩ := hstep
    obtain ⟨-, rfl⟩ := Pins.rm_eq_ok.mp hrm
    -- fewer pins need fewer blocks
    exact pinsComplete_fewer (fun _ => List.mem_of_mem_filter) (fun _ => List.mem_of_mem_filter) h
  | updates src dst unpin =>
    simp only [Repo.step, Pins.update, bind_eq_ok, require_eq_ok, pure_eq_ok, Prod.mk.injEq, exists_const] at hstep
    obtain ⟨pins, ⟨hsrc, hpins⟩, rfl, -⟩ := hstep
    split at hpins
    · next heq =>
      -- an update to the same identifier changes nothing, and that was pinned
      subst heq
      obtain rfl := pure_eq_ok.mp hpins
      exact iff_of_true h (h.recursive src hsrc)
    -- the new target has to be complete; the source is unpinned if the request says so
    · simp only [bind_eq_ok, require_eq_ok, pure_eq_ok, exists_const] at hpins
      obtain ⟨-, rfl⟩ := hpins
      constructor
      · intro h'
        exact h'.recursive dst List.mem_insert_self
      · intro hdst
        refine ⟨?_, h.direct⟩
        intro d hd
        rcases List.mem_insert_iff.mp hd with rfl | hd
        · exact hdst
        · refine h.recursive d ?_
          split at hd
          · exact List.mem_of_mem_filter hd
          · exact hd
  | setsFilesRoot c =>
    cases hstep
    exact iff_of_true ⟨h.recursive, h.direct⟩ trivial
  | collects run =>
    obtain rfl : s' = (GarbageCollect (run s)).1 := (congrArg Prod.fst (Except.ok.inj hstep)).symm
    -- a collection keeps what the pins need
    exact iff_of_true (pinsComplete_gc (run s) h) trivial
  | removes request =>
    cases hstep
    rw [pinsComplete_iff] at h ⊢
    -- hash by hash: what is pinned has to stay available
    refine forall_congr' fun hash => forall_congr' fun hholds => ?_
    change Available (RmBlocks request s.blocks).1 hash ↔ _
    rw [Available, mem_rmBlocks]
    -- a block that is its own hash is to be had all the same, and is not deleted
    rcases h hash hholds with hblock | hidentity
    · constructor
      · rintro (⟨-, hstays⟩ | hidentity) hdeletes
        · exact hstays hdeletes
        · exact Bool.false_ne_true (hdeletes.2.2.2.symm.trans hidentity)
      · intro hstays
        exact Or.inl ⟨hblock, hstays⟩
    · refine iff_of_true (Or.inr hidentity) ?_
      intro hdeletes
      exact Bool.false_ne_true (hdeletes.2.2.2.symm.trans hidentity)

/-- **What is pinned can be read**, in every state of a run, exactly if the pinner accepts only what is there, and no
request removes a block of what is pinned. -/
theorem pins_complete_iff (s : Repo) (h : PinsComplete links s) (as : List (NodeEvent links)) :
    Along Repo.step (PinsComplete links) s as ↔ Meets Repo.step (Careful links) s as :=
  along_iff_meets (I := fun _ => True) h trivial (fun _ _ _ _ _ _ => trivial)
    (fun _ _ _ _ _ hP hstep => pinsComplete_step hP hstep) as

/-- A list of identifiers that links do not lead out of has all that is linked from its members. -/
theorem complete_of_closed {blocks : List Multihash} (l : List Cid) (hc : c.toCidV1 ∈ l)
    (hlinks : ∀ d ∈ l, d.toCidV1 = d ∧ Available blocks d.hash ∧ ∀ e ∈ links d.type d.hash, e.toCidV1 ∈ l) :
    Complete links blocks c := by
  intro d hd
  refine (hlinks d ?_).2.1
  refine hd.mem_of_closed (S := (· ∈ l)) ?_ ?_
  · intro r hr _
    exact List.mem_singleton.mp hr ▸ hc
  · intro k hk _
    exact ⟨k, (hlinks k hk).1, fun e he _ => (hlinks k hk).2.2 e he⟩

end Proofs

/-! ### A block under two identifiers -/

namespace SmallRepo

theorem repo_complete : PinsComplete links repo where
  recursive c hc := by
    obtain rfl := List.mem_singleton.mp hc
    exact complete_of_closed [.v1 dagProtobuf 1, .v1 rawCodec 2] (by decide) (by decide)
  direct c hc := absurd hc List.not_mem_nil

/-- The second node of the pinned file, under an identifier that is not pinned. -/
def removal : BlockRemoval where
  cids := [.v1 dagProtobuf 2]
  checkIfPinned cids := .ok (cids.map fun c => (c, none))
  has _ := none
  deleteBlock _ := none

theorem repo_holds : Holds links repo 2 :=
  Or.inl ⟨.v1 rawCodec 2, ⟨.v1 rawCodec 2, .link (.root List.mem_cons_self id) List.mem_cons_self id, rfl⟩,
    rfl⟩

/-- The pinner is right that nothing pins this identifier, and the pinned file is not complete any more. -/
theorem pins_incomplete_small :
    ¬ Along (@Repo.step links) (PinsComplete links) repo [.removes removal] := by
  rw [pins_complete_iff repo repo_complete]
  intro hmeets
  exact hmeets.1 ⟨_, rfl⟩ 2 repo_holds ⟨⟨.v1 dagProtobuf 2, List.mem_cons_self, rfl⟩, rfl, rfl, rfl⟩

end SmallRepo

end Kubo

end Kyneto
