import Kyneto.Graph.Walk
import Kyneto.Kubo.Pinner

/-!
# Garbage collection

The node keeps blocks by their hash, and a collection removes those that nobody needs. It marks what is pinned with all
that it links to, the tree of the files API as far as it is there, what is pinned directly and what the pinner uses
itself, and then it goes through the blocks and deletes what is not marked. The links of a block are fetched from the
node itself. If some cannot be had, nothing is deleted.

`gc_deletes_unneeded` says that no collection deletes a block that is needed, whatever fails and whenever it is
canceled. `gc_leaves_needed` says what a collection leaves that runs through. Of what the pinner itself uses, that is
not all: what a direct pin hides is not marked, and `Internal` says so. The pinner, the block store, the check of
identifiers and the walk over a graph are libraries; the laws of `Fetching` and `Collection` are what they promise.
-/

namespace Kyneto

namespace Kubo

/-! ## The repository of a node -/

structure Repo extends Pins where
  blocks : List Multihash
  internal : List Cid := []
  filesRoot : Cid

/-- The store has the block, or reads it off the hash. -/
def Available (blocks : List Multihash) (hash : Multihash) : Prop := hash ∈ blocks ∨ hash.isIdentity = true

instance (blocks : List Multihash) (hash : Multihash) : Decidable (Available blocks hash) :=
  inferInstanceAs (Decidable (hash ∈ blocks ∨ hash.isIdentity = true))

inductive FetchError where
  | notFound
  | failed (text : String)
  deriving DecidableEq, Repr

/-- The links that the node gets from itself. -/
structure Fetching (links : Links) (blocks : List Multihash) where
  fetch : Codec → Multihash → Except FetchError (List Cid)
  eq_links : ∀ {codec hash l}, fetch codec hash = .ok l → l = links codec hash
  available : ∀ {codec hash l}, fetch codec hash = .ok l → l ≠ [] → Available blocks hash
  notFound : ∀ {codec hash}, fetch codec hash = .error .notFound → ¬ Available blocks hash

/-- A stream of pins, which can break off. -/
abbrev PinStream := List (Except String Cid)

/-- Without an error, the stream has the pins. -/
def PinStream.Of (pins : List Cid) (stream : PinStream) : Prop :=
  (∀ c, .ok c ∈ stream → c ∈ pins) ∧ ((∀ e, .error e ∉ stream) → ∀ c ∈ pins, .ok c ∈ stream)

/-- What the libraries answer during a collection, and when it is canceled. -/
structure Collection (links : Links) (repo : Repo) where
  fetching : Fetching links repo.blocks
  validateCid : Cid → Option String
  recursiveKeys : PinStream
  directKeys : PinStream
  internalPins : PinStream
  recursiveKeys_of : recursiveKeys.Of repo.recursive
  directKeys_of : directKeys.Of repo.direct
  internalPins_of : internalPins.Of repo.internal
  schedule : List (List WalkEvent)          -- what the workers do in each walk, until it is canceled
  allKeys : Except String (List Multihash)
  allKeys_of : ∀ {keys}, allKeys = .ok keys → ∀ hash, hash ∈ keys ↔ hash ∈ repo.blocks
  deleteBlock : Multihash → Option String   -- the error, if there is one
  canceledAfter : Option Nat := none        -- how many keys the sweep has come to
  collectGarbage : Option String := none

inductive GcError where
  | canceled
  | pins (text : String)
  | invalidCid (text : String)
  | allKeys (text : String)
  | collectGarbage (text : String)
  | cannotFetchAllLinks                     -- garbage collection aborted: could not retrieve some links
  | cannotDeleteSomeBlocks                  -- garbage collection incomplete: could not delete some blocks
  deriving DecidableEq, Repr

inductive GcResult where
  | keyRemoved (hash : Multihash)
  | cannotFetchLinks (c : Cid) (e : FetchError)
  | cannotDeleteBlock (hash : Multihash) (text : String)
  | error (e : GcError)
  deriving DecidableEq, Repr

/-! ## Marking -/

structure Marking where
  gcs : List Cid := []
  errors : Bool := false
  output : List GcResult := []
  schedule : List (List WalkEvent)

section Definitions

variable {links : Links} {repo : Repo} (run : Collection links repo)

/-- The links of `c`, where an error is only noted. -/
def Collection.getLinks (c : Cid) : Except GcError (List Cid) :=
  match run.validateCid c with
  | some text => .error (.invalidCid text)
  | none =>
    match run.fetching.fetch c.type c.hash with
    | .ok l => .ok l
    | .error _ => .ok []

/-- What is noted about a node whose links were asked for. `ErrNotFound` is fine where the best effort is enough. -/
def Collection.noted (bestEffort : Bool) (c : Cid) : Option GcResult :=
  match run.fetching.fetch c.type c.hash with
  | .ok _ => none
  | .error e => if bestEffort ∧ e = .notFound then none else some (.cannotFetchLinks c e)

/-- Walks over what each root links to, and adds it to the set. -/
def Descendants (bestEffort : Bool) (m : Marking) : PinStream → Marking × Option GcError
  | [] => (m, none)
  | .error text :: _ => (m, some (.pins text))
  | .ok root :: roots =>
    let (w, refused) := Walk.run Cid.toCidV1 run.getLinks { set := m.gcs, todo := [root] } (m.schedule.headD [])
    let notes := w.fetched.filterMap (run.noted bestEffort)
    let m : Marking := ⟨w.set, m.errors || !notes.isEmpty, m.output ++ notes, m.schedule.tail⟩
    match refused with
    | some e => (m, some e)
    | none => if w.Done then Descendants bestEffort m roots else (m, some .canceled)

def Collection.mark (bestEffort : Bool) (m : Marking) (roots : PinStream) : Marking :=
  match Descendants run bestEffort m roots with
  | (m, none) => m
  | (m, some e) => { m with errors := true, output := m.output ++ [.error e] }

/-- Directly pinned blocks are marked without what they link to. -/
def addDirect (gcs : List Cid) : PinStream → Except GcError (List Cid)
  | [] => .ok gcs
  | .error text :: _ => .error (.pins text)
  | .ok c :: keys => addDirect (c.toCidV1 :: gcs) keys

def ColoredSet (bestEffortRoots : List Cid) : Except GcError (List Cid) × List GcResult :=
  let m := run.mark false { schedule := run.schedule } run.recursiveKeys
  let m := run.mark true m (bestEffortRoots.map .ok)
  match addDirect m.gcs run.directKeys with
  | .error e => (.error e, m.output)
  | .ok gcs =>
    let m := run.mark false { m with gcs } run.internalPins
    if m.errors then (.error .cannotFetchAllLinks, m.output) else (.ok m.gcs, m.output)

/-! ## Sweeping -/

/-- Deletes the keys that are not in the set, as far as that goes through. With a hash that is the block itself, the
store does nothing. -/
def sweep (gcs : List Cid) (blocks : List Multihash) : List Multihash → List Multihash × List GcResult
  | [] => (blocks, [])
  | k :: keys =>
    if .v1 rawCodec k ∈ gcs.map Cid.toRawCid then sweep gcs blocks keys
    else
      match run.deleteBlock k with
      | some text =>
        let (blocks, output) := sweep gcs blocks keys
        (blocks, .cannotDeleteBlock k text :: output)
      | none =>
        let (blocks, output) := sweep gcs (if k.isIdentity then blocks else blocks.filter (· ≠ k)) keys
        (blocks, .keyRemoved k :: output)

/-- How a collection ends that was not canceled. -/
def Collection.closing (output : List GcResult) : List GcResult :=
  (if ∃ r ∈ output, r matches .cannotDeleteBlock _ _ then [.error .cannotDeleteSomeBlocks] else []) ++
    (run.collectGarbage.map fun text => .error (.collectGarbage text)).toList

def GC (bestEffortRoots : List Cid) : Repo × List GcResult :=
  match ColoredSet run bestEffortRoots with
  | (.error e, output) => (repo, output ++ [.error e])
  | (.ok gcs, output) =>
    match run.allKeys with
    | .error text => (repo, output ++ [.error (.allKeys text)])
    | .ok keys =>
      match run.canceledAfter with
      | some n =>
        let (blocks, swept) := sweep run gcs repo.blocks (keys.take n)
        ({ repo with blocks }, output ++ swept)
      | none =>
        let (blocks, swept) := sweep run gcs repo.blocks keys
        ({ repo with blocks }, output ++ swept ++ run.closing swept)

/-- The files API needs what is there of its tree. -/
def BestEffortRoots (repo : Repo) : List Cid := [repo.filesRoot]

def GarbageCollect : Repo × List GcResult := GC run (BestEffortRoots repo)

end Definitions

/-! ## What is needed -/

section Needed

variable (links : Links) (repo : Repo)

/-- All that is linked. -/
def linkGraph : Graph Cid Cid where
  key := Cid.toCidV1
  succ c := links c.type c.hash
  succ_congr {m n} h := by
    rw [← m.type_toCidV1, ← m.hash_toCidV1, h, n.type_toCidV1, n.hash_toCidV1]

/-- What is linked from the blocks that are to be had. -/
def localGraph (blocks : List Multihash) : Graph Cid Cid where
  key := Cid.toCidV1
  succ c := if Available blocks c.hash then links c.type c.hash else []
  succ_congr {m n} h := by
    rw [← m.type_toCidV1, ← m.hash_toCidV1, h, n.type_toCidV1, n.hash_toCidV1]

/-- Pinned, or linked from what is pinned. -/
def Pinned (c : Cid) : Prop := (linkGraph links).Reaches repo.recursive (fun _ => False) c

/-- Part of the tree of the files API that is there, up to the first block that is not. -/
def Filed (c : Cid) : Prop := (localGraph links repo.blocks).Reaches (BestEffortRoots repo) (fun _ => False) c

def DirectlyPinned (c : Cid) : Prop := ∃ d ∈ repo.direct, d.toCidV1 = c

/-- Needed without the pinner's own pins. -/
def Wanted (c : Cid) : Prop := Pinned links repo c ∨ Filed links repo c ∨ DirectlyPinned repo c

/-- Linked from a pin of the pinner, on a way that does not pass through what is marked for another reason. A direct
pin on the way hides what it links to. -/
def Internal (c : Cid) : Prop := (linkGraph links).Reaches repo.internal (Wanted links repo) c

/-- The block of a needed identifier, whatever its codec is. -/
def Needed (hash : Multihash) : Prop := ∃ c, (Wanted links repo c ∨ Internal links repo c) ∧ c.hash = hash

end Needed

/-! ## What is marked -/

section Marked

variable {links : Links} {repo : Repo} {run : Collection links repo} {bestEffort : Bool} {m m' : Marking}
  {stream : PinStream} {k : Cid}

/-- The pins of a stream. -/
def PinStream.pins (stream : PinStream) : List Cid := stream.filterMap Except.toOption

/-- The pins of a stream are what it delivers without an error. -/
theorem PinStream.mem_pins {c : Cid} : c ∈ stream.pins ↔ .ok c ∈ stream := by
  unfold PinStream.pins
  rw [List.mem_filterMap]
  constructor
  · rintro ⟨r, hr, hc⟩
    cases r with
    | error e => cases hc
    | ok d =>
      cases hc
      exact hr
  · intro h
    exact ⟨_, h, rfl⟩

theorem PinStream.of_map (pins : List Cid) : PinStream.Of pins (pins.map .ok) := by
  constructor
  · intro c h
    obtain ⟨d, hd, hdc⟩ := List.mem_map.mp h
    exact Except.ok.inj hdc ▸ hd
  · intro _ c h
    exact List.mem_map_of_mem h

theorem PinStream.pins_iff {pins : List Cid} {c : Cid} (h : stream.Of pins) (hok : ∀ e, .error e ∉ stream) :
    c ∈ stream.pins ↔ c ∈ pins := by
  rw [PinStream.mem_pins]
  exact ⟨h.1 c, h.2 hok c⟩

/-- What a walk finds linked: nothing where the links cannot be had. -/
def fetchGraph (run : Collection links repo) : Graph Cid Cid where
  key := Cid.toCidV1
  succ c := (run.fetching.fetch c.type c.hash).toOption.getD []
  succ_congr {m n} h := by
    rw [← m.type_toCidV1, ← m.hash_toCidV1, h, n.type_toCidV1, n.hash_toCidV1]

/-- What the marking is to follow. -/
def markGraph (links : Links) (repo : Repo) (bestEffort : Bool) : Graph Cid Cid :=
  if bestEffort then localGraph links repo.blocks else linkGraph links

theorem markGraph_key : (markGraph links repo bestEffort).key = Cid.toCidV1 := by
  unfold markGraph
  split <;> rfl

/-- Links that are fetched are the links of the graph. -/
theorem getLinks_eq {c : Cid} {l : List Cid} (h : run.getLinks c = .ok l) : l = (fetchGraph run).succ c := by
  unfold Collection.getLinks at h
  split at h
  · cases h
  · split at h
    · next l' hl =>
      cases h
      simp [fetchGraph, hl, Except.toOption]
    · next e he =>
      cases h
      simp [fetchGraph, he, Except.toOption]

theorem noted_eq_none {c : Cid} :
    run.noted bestEffort c = none ↔
      ∀ e, run.fetching.fetch c.type c.hash = .error e → bestEffort = true ∧ e = .notFound := by
  unfold Collection.noted
  split
  · next hl => simp [hl]
  · next e he => simp [he]

/-- Where nothing is noted, the links are those that are to follow. -/
theorem markGraph_succ_of_not_noted {c : Cid} (h : run.noted bestEffort c = none) :
    (markGraph links repo bestEffort).succ c = (fetchGraph run).succ c := by
  rw [noted_eq_none] at h
  unfold fetchGraph markGraph
  dsimp only
  cases hfetch : run.fetching.fetch c.type c.hash with
  | ok l =>
    obtain rfl := run.fetching.eq_links hfetch
    split
    · show (if Available repo.blocks c.hash then links c.type c.hash else []) = links c.type c.hash
      split
      · rfl
      · next hmissing =>
        by_contra hne
        exact hmissing (run.fetching.available hfetch (Ne.symm hne))
    · rfl
  | error e =>
    obtain ⟨rfl, rfl⟩ := h e hfetch
    exact if_neg (run.fetching.notFound hfetch)

/-- A walk that comes to its end and notes nothing adds what it is to follow. -/
theorem mem_walk {root : Cid} {es : List WalkEvent} {w : Walk Cid Cid} {gcs : List Cid}
    (hw : Walk.run Cid.toCidV1 run.getLinks { set := gcs, todo := [root] } es = (w, none)) (hdone : w.Done)
    (hnotes : w.fetched.filterMap (run.noted bestEffort) = []) :
    k ∈ w.set ↔ k ∈ gcs ∨ (markGraph links repo bestEffort).Reaches [root] (· ∈ gcs) k := by
  have hunder : w.Under (fetchGraph run) gcs [root] := by
    have h := Walk.under_run (g := fetchGraph run) (fun _ _ => getLinks_eq) es (Walk.under_start _ gcs [root])
    change (Walk.run Cid.toCidV1 run.getLinks { set := gcs, todo := [root] } es).1.Under _ _ _ at h
    rwa [hw] at h
  rw [Walk.mem_set_of_done hunder hdone]
  refine or_congr_right (Graph.reaches_of_agree markGraph_key ?_).symm
  intro c hc
  obtain ⟨d, hd, hkey⟩ := Walk.fetched_of_done hunder hdone ⟨c, hc, rfl⟩
  have hnoted : run.noted bestEffort d = none := List.filterMap_eq_nil_iff.mp hnotes d hd
  have htype : d.type = c.type := by
    rw [← d.type_toCidV1, ← c.type_toCidV1]
    exact congrArg Cid.type hkey
  have hhash : d.hash = c.hash := by
    rw [← d.hash_toCidV1, ← c.hash_toCidV1]
    exact congrArg Cid.hash hkey
  refine markGraph_succ_of_not_noted ?_
  rw [noted_eq_none, htype, hhash] at hnoted
  exact noted_eq_none.mpr hnoted

/-- The streams go through, and nothing is noted. -/
theorem descendants_spec (h : Descendants run bestEffort m stream = (m', none)) (herrors : m'.errors = false) :
    m.errors = false ∧ (∀ e, .error e ∉ stream) ∧
      ∀ k, k ∈ m'.gcs ↔ k ∈ m.gcs ∨ (markGraph links repo bestEffort).Reaches stream.pins (· ∈ m.gcs) k := by
  induction stream generalizing m with
  | nil =>
    cases h
    refine ⟨herrors, fun _ => List.not_mem_nil, fun k => (or_iff_left ?_).symm⟩
    rintro ⟨n, hn, -⟩
    induction hn with
    | root hr => cases hr
    | link _ _ _ ih => exact ih
  | cons pin stream ih =>
    cases pin with
    | error e => cases h
    | ok root =>
      unfold Descendants at h
      dsimp only at h
      split at h
      · cases h
      · next hrefused =>
        split at h
        · next hdone =>
          obtain ⟨hflag, hstream, hmem⟩ := ih h
          rw [Bool.or_eq_false_iff, Bool.not_eq_false', List.isEmpty_iff] at hflag
          refine ⟨hflag.1, ?_, ?_⟩
          · intro e he
            rcases List.mem_cons.mp he with he | he
            · cases he
            · exact hstream e he
          · intro k
            have hwalk := fun k => mem_walk (k := k) (Prod.ext rfl hrefused) hdone hflag.2
            rw [hmem, hwalk, or_assoc]
            refine or_congr_right ?_
            change _ ↔ (markGraph links repo bestEffort).Reaches ([root] ++ PinStream.pins stream) _ k
            rw [Graph.reaches_append]
            exact or_congr_right (Graph.reaches_congr (fun _ => Iff.rfl) hwalk)
        · cases h

/-- A marking without errors adds what its roots reach, and only that. -/
theorem mark_spec (herrors : (run.mark bestEffort m stream).errors = false) :
    m.errors = false ∧ (∀ e, .error e ∉ stream) ∧ ∀ k, k ∈ (run.mark bestEffort m stream).gcs ↔
      k ∈ m.gcs ∨ (markGraph links repo bestEffort).Reaches stream.pins (· ∈ m.gcs) k := by
  unfold Collection.mark at herrors ⊢
  split
  · next m' hm' =>
    rw [hm'] at herrors
    exact descendants_spec hm' herrors
  · next m' e hm' =>
    rw [hm'] at herrors
    cases herrors

/-- Direct pins are added as they are, without what they link to. -/
theorem addDirect_spec {gcs gcs' : List Cid} (h : addDirect gcs stream = .ok gcs') :
    (∀ e, .error e ∉ stream) ∧ ∀ k, k ∈ gcs' ↔ k ∈ gcs ∨ ∃ d ∈ PinStream.pins stream, d.toCidV1 = k := by
  induction stream generalizing gcs with
  | nil =>
    cases h
    exact ⟨fun _ => List.not_mem_nil, fun k => by simp [PinStream.pins]⟩
  | cons pin stream ih =>
    cases pin with
    | error e => cases h
    | ok c =>
      obtain ⟨hstream, hmem⟩ := ih h
      refine ⟨?_, ?_⟩
      · intro e he
        rcases List.mem_cons.mp he with he | he
        · cases he
        · exact hstream e he
      · intro k
        have hcons : PinStream.pins (.ok c :: stream) = c :: PinStream.pins stream := rfl
        rw [hmem, hcons, List.mem_cons, List.exists_mem_cons_iff, ← or_assoc, or_comm (a := k = c.toCidV1), eq_comm]

/-- Links do not lead out of what is pinned. -/
theorem pinned_closed {n d : Cid} (hn : Pinned links repo n.toCidV1) (hd : d ∈ (localGraph links repo.blocks).succ n) :
    Pinned links repo d.toCidV1 := by
  obtain ⟨x, hx, hkey⟩ := hn
  have hlink : d ∈ (linkGraph links).succ n := by
    change d ∈ (if Available repo.blocks n.hash then links n.type n.hash else []) at hd
    split at hd
    · exact hd
    · cases hd
  obtain ⟨y, hy, hyd⟩ := Graph.exists_succ_of_key (g := linkGraph links) hkey.symm hlink
  exact ⟨y, .link hx hy id, hyd⟩

/-- **What is marked**, if the marking goes through: all that is needed. -/
theorem coloredSet_spec {gcs : List Cid} {output : List GcResult}
    (h : ColoredSet run (BestEffortRoots repo) = (.ok gcs, output)) :
    ∀ k, k ∈ gcs ↔ Wanted links repo k ∨ Internal links repo k := by
  unfold ColoredSet at h
  dsimp only at h
  split at h
  · cases h
  · next direct hdirect =>
    split at h
    · cases h
    · next herrors =>
      cases h
      obtain ⟨hfiled, hinternalOk, hinternal⟩ := mark_spec (Bool.eq_false_iff.mpr herrors)
      obtain ⟨hrec, -, hfile⟩ := mark_spec hfiled
      obtain ⟨-, hrecOk, hrecursive⟩ := mark_spec hrec
      obtain ⟨hdirectOk, hadded⟩ := addDirect_spec hdirect
      -- what each part of the marking has put into the set
      have hpinned : ∀ k, k ∈ (run.mark false { schedule := run.schedule } run.recursiveKeys).gcs ↔
          Pinned links repo k := by
        intro k
        rw [hrecursive, or_iff_right List.not_mem_nil]
        exact Graph.reaches_congr (fun r => PinStream.pins_iff run.recursiveKeys_of hrecOk)
          fun k => ⟨fun h => List.not_mem_nil h, False.elim⟩
      have hfiles : ∀ k, k ∈ (run.mark true (run.mark false { schedule := run.schedule } run.recursiveKeys)
          ((BestEffortRoots repo).map .ok)).gcs ↔ Pinned links repo k ∨ Filed links repo k := by
        intro k
        rw [hfile, hpinned]
        have hsame : (markGraph links repo true).Reaches (PinStream.pins ((BestEffortRoots repo).map .ok))
            (· ∈ (run.mark false { schedule := run.schedule } run.recursiveKeys).gcs) k ↔
            (localGraph links repo.blocks).Reaches (BestEffortRoots repo) (Pinned links repo) k :=
          Graph.reaches_congr (fun _ => Iff.rfl) hpinned
        rw [hsame]
        refine Graph.or_reaches_of_closed (fun n hn d hd => pinned_closed hn hd) ?_
        rintro k ⟨n, -, hk⟩
        exact ⟨n, hk⟩
      have hwanted : ∀ k, k ∈ direct ↔ Wanted links repo k := by
        intro k
        rw [hadded, hfiles, or_assoc]
        refine or_congr_right (or_congr_right (exists_congr fun d => ?_))
        rw [PinStream.pins_iff run.directKeys_of hdirectOk]
      intro k
      rw [hinternal, hwanted]
      exact or_congr_right (Graph.reaches_congr (fun r => PinStream.pins_iff run.internalPins_of hinternalOk) hwanted)

end Marked

/-! ## What is deleted -/

section Swept

variable {links : Links} {repo : Repo} {run : Collection links repo} {gcs : List Cid} {blocks keys : List Multihash}
  {hash : Multihash}

theorem mem_rawCids : Cid.v1 rawCodec hash ∈ gcs.map Cid.toRawCid ↔ ∃ c ∈ gcs, c.hash = hash := by
  simp [Cid.toRawCid]

/-- A block stays if it is marked, if the sweep does not come to it or if it is not deleted. -/
theorem mem_sweep (gcs : List Cid) (blocks keys : List Multihash) :
    hash ∈ (sweep run gcs blocks keys).1 ↔ hash ∈ blocks ∧
      ((∃ c ∈ gcs, c.hash = hash) ∨ hash ∉ keys ∨ run.deleteBlock hash ≠ none ∨ hash.isIdentity = true) := by
  induction keys generalizing blocks with
  | nil => simp [sweep]
  | cons k keys ih =>
    unfold sweep
    by_cases hk : hash = k
    · subst hk
      split
      · next hmarked => simp [ih, mem_rawCids.mp hmarked]
      · next hmarked =>
        rw [mem_rawCids] at hmarked
        split
        · next hdelete => simp [ih, hdelete]
        · next hdelete =>
          by_cases hidentity : hash.isIdentity = true
          · simp [ih, hidentity]
          · simp [ih, hdelete, hmarked, hidentity]
    · split
      · simp [ih, hk]
      · split
        · simp [ih, hk]
        · by_cases hidentity : k.isIdentity = true <;> simp [ih, hk, hidentity]

/-- A block that cannot be deleted is reported. -/
theorem cannotDelete_mem_sweep (blocks : List Multihash) (hkey : hash ∈ keys) (hmarked : ¬ ∃ c ∈ gcs, c.hash = hash)
    {text : String} (hdelete : run.deleteBlock hash = some text) :
    .cannotDeleteBlock hash text ∈ (sweep run gcs blocks keys).2 := by
  induction keys generalizing blocks with
  | nil => cases hkey
  | cons k keys ih =>
    unfold sweep
    by_cases hk : hash = k
    · subst hk
      split
      · next hraw => exact absurd (mem_rawCids.mp hraw) hmarked
      · rw [hdelete]
        exact List.mem_cons_self
    · have hrest := fun blocks => ih blocks (List.mem_of_ne_of_mem hk hkey)
      split
      · exact hrest blocks
      · split
        · exact List.mem_cons_of_mem _ (hrest blocks)
        · exact List.mem_cons_of_mem _ (hrest _)

theorem error_mem_closing {output : List GcResult} {text : String} (h : .cannotDeleteBlock hash text ∈ output) :
    .error .cannotDeleteSomeBlocks ∈ run.closing output := by
  unfold Collection.closing
  rw [if_pos ⟨_, h, rfl⟩]
  exact List.mem_append_left _ List.mem_cons_self

/-- A block that is needed stays. -/
theorem mem_gc_of_needed (run : Collection links repo) (hblock : hash ∈ repo.blocks) (h : Needed links repo hash) :
    hash ∈ (GarbageCollect run).1.blocks := by
  obtain ⟨c, hc, rfl⟩ := h
  unfold GarbageCollect GC
  split
  · exact hblock
  · next gcs output hcolored =>
    have hmarked : ∃ d ∈ gcs, d.hash = c.hash := ⟨c, (coloredSet_spec hcolored c).mpr hc, rfl⟩
    split
    · exact hblock
    · split <;> exact (mem_sweep _ _ _).mpr ⟨hblock, Or.inl hmarked⟩

/-- The store does not delete a block that is its own hash. -/
theorem mem_gc_of_identity (run : Collection links repo) (hblock : hash ∈ repo.blocks)
    (hidentity : hash.isIdentity = true) : hash ∈ (GarbageCollect run).1.blocks := by
  unfold GarbageCollect GC
  split
  · exact hblock
  · split
    · exact hblock
    · split <;> exact (mem_sweep _ _ _).mpr ⟨hblock, Or.inr (Or.inr (Or.inr hidentity))⟩

/-- **No collection deletes a block that is needed**, whatever fails, in whatever order the workers walk, and whenever
it is canceled. -/
theorem gc_deletes_unneeded (run : Collection links repo) (hash : Multihash) :
    hash ∈ repo.blocks → hash ∉ (GarbageCollect run).1.blocks → ¬ Needed links repo hash := by
  intro hblock hdeleted hneeded
  exact hdeleted (mem_gc_of_needed run hblock hneeded)

theorem gc_blocks_subset (run : Collection links repo) (hash : Multihash)
    (h : hash ∈ (GarbageCollect run).1.blocks) : hash ∈ repo.blocks := by
  unfold GarbageCollect GC at h
  split at h
  · exact h
  · split at h
    · exact h
    · split at h <;> exact ((mem_sweep _ _ _).mp h).1

/-- Nothing but the blocks changes. -/
theorem gc_pins (run : Collection links repo) :
    (GarbageCollect run).1 = { repo with blocks := (GarbageCollect run).1.blocks } := by
  unfold GarbageCollect GC
  split
  · rfl
  · split
    · rfl
    · split <;> rfl

/-- What stays is needed, if the collection was not canceled and reports no error, or it is a block that cannot be
deleted. -/
theorem needed_of_mem_gc (run : Collection links repo) (hcanceled : run.canceledAfter = none)
    (herror : ∀ e, .error e ∉ (GarbageCollect run).2) (h : hash ∈ (GarbageCollect run).1.blocks) :
    Needed links repo hash ∨ hash.isIdentity = true := by
  unfold GarbageCollect GC at herror h
  split at herror
  · exact absurd (List.mem_append_right _ List.mem_cons_self) (herror _)
  · next gcs output hcolored =>
    have hneeded : (∃ c ∈ gcs, c.hash = hash) → Needed links repo hash := by
      rintro ⟨c, hc, hhash⟩
      exact ⟨c, (coloredSet_spec hcolored c).mp hc, hhash⟩
    split at herror
    · exact absurd (List.mem_append_right _ List.mem_cons_self) (herror _)
    · next keys hkeys =>
      rw [hcanceled] at herror
      simp only [hcolored, hkeys, hcanceled, mem_sweep] at h
      obtain ⟨hblock, hmarked | hmissed | hdelete | hidentity⟩ := h
      · exact Or.inl (hneeded hmarked)
      · exact absurd ((run.allKeys_of hkeys hash).mpr hblock) hmissed
      · left
        by_contra hunneeded
        obtain ⟨text, hdelete⟩ := Option.ne_none_iff_exists'.mp hdelete
        have hkey := (run.allKeys_of hkeys hash).mpr hblock
        have hreported : .error .cannotDeleteSomeBlocks ∈ run.closing (sweep run gcs repo.blocks keys).2 :=
          error_mem_closing
            (cannotDelete_mem_sweep repo.blocks hkey (fun hmarked => hunneeded (hneeded hmarked)) hdelete)
        exact herror _ (List.mem_append_right _ hreported)
      · exact Or.inr hidentity

/-- **What a collection leaves** that is not canceled and reports no error: the needed blocks, and no others but those
that the store does not delete. -/
theorem gc_leaves_needed (run : Collection links repo) (hcanceled : run.canceledAfter = none)
    (herror : ∀ e, .error e ∉ (GarbageCollect run).2) (hash : Multihash) :
    hash ∈ (GarbageCollect run).1.blocks ↔
      hash ∈ repo.blocks ∧ (Needed links repo hash ∨ hash.isIdentity = true) := by
  constructor
  · intro h
    exact ⟨gc_blocks_subset run hash h, needed_of_mem_gc run hcanceled herror h⟩
  · rintro ⟨hblock, hneeded | hidentity⟩
    · exact mem_gc_of_needed run hblock hneeded
    · exact mem_gc_of_identity run hblock hidentity

/-- A collection does not change what is needed. -/
theorem needed_gc (run : Collection links repo) :
    Needed links (GarbageCollect run).1 hash ↔ Needed links repo hash := by
  rw [gc_pins run]
  have hfiled : ∀ k, Filed links { repo with blocks := (GarbageCollect run).1.blocks } k ↔ Filed links repo k := by
    intro k
    refine Graph.reaches_of_agree (g := localGraph links repo.blocks) rfl ?_
    intro c hc
    have hneeded : Needed links repo c.hash :=
      ⟨c.toCidV1, Or.inl (Or.inr (Or.inl ⟨c, hc, rfl⟩)), c.hash_toCidV1⟩
    have hblock : Available (GarbageCollect run).1.blocks c.hash ↔ Available repo.blocks c.hash := by
      refine or_congr_left ⟨gc_blocks_subset run c.hash, ?_⟩
      intro hblock
      exact mem_gc_of_needed run hblock hneeded
    show (if Available (GarbageCollect run).1.blocks c.hash then links c.type c.hash else []) =
      if Available repo.blocks c.hash then links c.type c.hash else []
    rw [if_congr hblock rfl rfl]
  have hwanted : ∀ k, Wanted links { repo with blocks := (GarbageCollect run).1.blocks } k ↔ Wanted links repo k :=
    fun k => or_congr_right (or_congr_left (hfiled k))
  refine exists_congr fun c => and_congr_left fun _ => or_congr (hwanted c) ?_
  exact Graph.reaches_congr (fun _ => Iff.rfl) hwanted

/-- **A second collection finds nothing to delete**, after one that was not canceled and reports no error. -/
theorem gc_again (run : Collection links repo) (hcanceled : run.canceledAfter = none)
    (herror : ∀ e, .error e ∉ (GarbageCollect run).2) (again : Collection links (GarbageCollect run).1)
    (hash : Multihash) : hash ∈ (GarbageCollect again).1.blocks ↔ hash ∈ (GarbageCollect run).1.blocks := by
  constructor
  · exact gc_blocks_subset again hash
  · intro hblock
    rcases needed_of_mem_gc run hcanceled herror hblock with hneeded | hidentity
    · exact mem_gc_of_needed again hblock ((needed_gc run).mpr hneeded)
    · exact mem_gc_of_identity again hblock hidentity

end Swept

/-! ### A node that works -/

/-- Nothing fails, and every worker goes to the end. -/
def Collection.healthy (links : Links) (repo : Repo) (schedule : List (List WalkEvent)) : Collection links repo where
  fetching := {
    fetch codec hash := if Available repo.blocks hash then .ok (links codec hash) else .error .notFound
    eq_links h := by
      split at h
      · exact (Except.ok.inj h).symm
      · cases h
    available h _ := by
      split at h
      · next hblock => exact hblock
      · cases h
    notFound h := by
      split at h
      · cases h
      · next hblock => exact hblock }
  validateCid _ := none
  recursiveKeys := repo.recursive.map .ok
  directKeys := repo.direct.map .ok
  internalPins := repo.internal.map .ok
  recursiveKeys_of := PinStream.of_map repo.recursive
  directKeys_of := PinStream.of_map repo.direct
  internalPins_of := PinStream.of_map repo.internal
  schedule
  allKeys := .ok repo.blocks
  allKeys_of h _ := by rw [Except.ok.inj h]
  deleteBlock _ := none

namespace SmallRepo

/-- Block 1 links to block 2, and block 3 to block 4. -/
def links : Links := fun _ hash => if hash = 1 then [.v1 rawCodec 2] else if hash = 3 then [.v1 rawCodec 4] else []

/-- The first file is pinned, the second one is not any more. -/
def repo : Repo := { blocks := [1, 2, 3, 4, 5], recursive := [.v0 1], filesRoot := .v1 dagProtobuf 5 }

/-- The pinned file has two nodes, and the directory of the files API is empty. -/
def collection : Collection links repo :=
  .healthy links repo [[.visits 0, .fetches 0, .visits 0, .fetches 0], [.visits 0, .fetches 0]]

theorem collection_output : (GarbageCollect collection).2 = [.keyRemoved 3, .keyRemoved 4] := by decide

theorem collection_error (e : GcError) : .error e ∉ (GarbageCollect collection).2 := by
  rw [collection_output]
  simp

theorem gc_deletes_unneeded_small : ¬ Needed links repo 3 :=
  gc_deletes_unneeded collection 3 (by decide) (by decide)

theorem gc_leaves_needed_small :
    1 ∈ (GarbageCollect collection).1.blocks ↔
      1 ∈ repo.blocks ∧ (Needed links repo 1 ∨ (1 : Multihash).isIdentity = true) :=
  gc_leaves_needed collection rfl collection_error 1

theorem gc_again_small :
    2 ∈ (GarbageCollect (Collection.healthy links (GarbageCollect collection).1 collection.schedule)).1.blocks ↔
      2 ∈ (GarbageCollect collection).1.blocks :=
  gc_again collection rfl collection_error (.healthy links _ _) 2

end SmallRepo

end Kubo

end Kyneto
