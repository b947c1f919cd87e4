import Kyneto.Evm.Run
import Kyneto.Sql.Table
import Kyneto.Workers
import Mathlib.Data.List.Perm.Subperm

/-!
# The indexer

For every block the indexer selects the latest deals, adds them to IPFS together with the number of the block, and
writes the content identifier it gets to `system_config`. The event emitter starts the handler of a block whether or not
the one before has ended, and the last to write decides what is published.

The table `system_config` is not in the schema: it is there or not, with whatever rows. So `newestPublished_iff` asks
for two things, the row and that the last update is the one for the highest block.
-/

namespace Kyneto

open Evm Sql

/-! ## `processBlock` -/

/-- The document that is added to IPFS. -/
structure Metadata (ρ : Type) where
  lastBlock : Nat
  deals : List ρ
  updatedAt : Nat
  deriving DecidableEq, Repr

/-- A row of `system_config`. -/
structure ConfigRow where
  key : String
  value : String
  deriving DecidableEq, Repr

def LATEST_METADATA_CID : String := "latest_metadata_cid"

/-- Where a handler is. -/
inductive BlockPhase (ρ : Type) where
  | selecting
  | adding (metadata : Metadata ρ)
  | updating (metadata : Metadata ρ)
  | finished (metadata : Metadata ρ)
  | failed
  deriving DecidableEq, Repr

structure BlockHandler (ρ : Type) where
  blockNumber : Nat
  phase : BlockPhase ρ := .selecting
  deriving DecidableEq, Repr

/-- The tables that the indexer uses, and all handlers it has started. A missing `system_config` is `none`. -/
structure Indexer (ρ : Type) where
  deals : List ρ := []
  systemConfig : Option (List ConfigRow) := none
  handlers : List (BlockHandler ρ) := []
  deriving DecidableEq, Repr

/-- The column `created_at`, and the content identifier of a document. -/
structure IndexerEnv (ρ : Type) where
  createdAt : ρ → Nat
  cid : Metadata ρ → String

inductive IndexerEvent (ρ : Type) where
  | dealsChange (deals : List ρ)
  | block (blockNumber : Nat)
  | selects (i : Nat) (rows : List ρ) (now : Nat)
  | adds (i : Nat)
  | updates (i : Nat)
  | updatesUnseen (i : Nat)   -- the update takes effect, and the handler gets an error
  | fails (i : Nat)

section Definitions

variable {ρ : Type} (env : IndexerEnv ρ)

/-- `SELECT * FROM deals ORDER BY created_at DESC LIMIT 1000` -/
def SelectsLatest [DecidableEq ρ] (table rows : List ρ) : Prop :=
  rows.Subperm table ∧ rows.length = min 1000 table.length ∧
    rows.Pairwise (fun row older => env.createdAt older ≤ env.createdAt row) ∧
      ∀ row ∈ rows, ∀ left ∈ table.diff rows, env.createdAt left ≤ env.createdAt row

instance [DecidableEq ρ] (table rows : List ρ) : Decidable (SelectsLatest env table rows) :=
  inferInstanceAs (Decidable (_ ∧ _ ∧ _ ∧ _))

/-- `UPDATE system_config SET value = $1 WHERE key = $2` -/
def publish (cid : String) (table : List ConfigRow) : List ConfigRow :=
  update (fun r => r.key = LATEST_METADATA_CID) (fun r => { r with value := cid }) table

namespace Indexer

def disabled : Tx (Indexer ρ × List (Metadata ρ)) := .error (.reason "event not enabled")

def setPhase (s : Indexer ρ) (i blockNumber : Nat) (phase : BlockPhase ρ) : Indexer ρ :=
  { s with handlers := s.handlers.set i ⟨blockNumber, phase⟩ }

/-- The update of a handler, after which it is in `phase`. The step reports what is published. -/
def updateConfig (s : Indexer ρ) (i blockNumber : Nat) (metadata : Metadata ρ) (phase : BlockPhase ρ) :
    Indexer ρ × List (Metadata ρ) :=
  match s.systemConfig with
  | some table =>
    ({ s.setPhase i blockNumber phase with systemConfig := some (publish (env.cid metadata) table) }, [metadata])
  | none => (s.setPhase i blockNumber .failed, [])

def step [DecidableEq ρ] (s : Indexer ρ) : IndexerEvent ρ → Tx (Indexer ρ × List (Metadata ρ))
  | .dealsChange deals => .ok ({ s with deals }, [])
  | .block blockNumber => .ok ({ s with handlers := s.handlers ++ [{ blockNumber }] }, [])
  | .selects i rows now =>
    match s.handlers[i]? with
    | some ⟨blockNumber, .selecting⟩ =>
      if SelectsLatest env s.deals rows then
        .ok (s.setPhase i blockNumber (.adding { lastBlock := blockNumber, deals := rows, updatedAt := now }), [])
      else disabled
    | _ => disabled
  | .adds i =>
    match s.handlers[i]? with
    | some ⟨blockNumber, .adding metadata⟩ => .ok (s.setPhase i blockNumber (.updating metadata), [])
    | _ => disabled
  | .updates i =>
    match s.handlers[i]? with
    | some ⟨blockNumber, .updating metadata⟩ => .ok (s.updateConfig env i blockNumber metadata (.finished metadata))
    | _ => disabled
  | .updatesUnseen i =>
    match s.handlers[i]? with
    | some ⟨blockNumber, .updating metadata⟩ => .ok (s.updateConfig env i blockNumber metadata .failed)
    | _ => disabled
  | .fails i =>
    match s.handlers[i]? with
    | some ⟨blockNumber, .selecting⟩ | some ⟨blockNumber, .adding _⟩ | some ⟨blockNumber, .updating _⟩ =>
      .ok (s.setPhase i blockNumber .failed, [])
    | _ => disabled

/-- `system_config.latest_metadata_cid` -/
def latestMetadataCid (s : Indexer ρ) : Option String :=
  s.systemConfig.bind fun table => (table.find? fun r => r.key = LATEST_METADATA_CID).map ConfigRow.value

end Indexer

end Definitions

/-! ## What is published -/

section Claim

variable {ρ : Type}

abbrev IndexerEntry (ρ : Type) := Entry (Indexer ρ) (IndexerEvent ρ) (Metadata ρ)

/-- The documents that were written to `system_config`, oldest first. -/
def publications (hist : List (IndexerEntry ρ)) : List (Metadata ρ) := hist.flatMap Entry.logs

/-- All handlers have finished without error, and there has been one. -/
def AllFinished (s : Indexer ρ) : Prop := s.handlers ≠ [] ∧ ∀ h ∈ s.handlers, ∃ metadata, h.phase = .finished metadata

/-- Wherever all handlers have finished, the document for the highest block is the one that is published. -/
def NewestPublished (env : IndexerEnv ρ) (s : Indexer ρ) : Prop :=
  AllFinished s → ∃ h ∈ s.handlers, (∀ h' ∈ s.handlers, h'.blockNumber ≤ h.blockNumber) ∧
    ∃ metadata, h.phase = .finished metadata ∧ metadata.lastBlock = h.blockNumber ∧
      s.latestMetadataCid = some (env.cid metadata)

/-- `system_config` has the row that the update is about. -/
def HasIndexRow (config : Option (List ConfigRow)) : Prop :=
  ∃ table, config = some table ∧ ∃ r ∈ table, r.key = LATEST_METADATA_CID

/-- The last update is the one of a handler for the highest block. -/
def LastIsNewest (s : Indexer ρ) (hist : List (IndexerEntry ρ)) : Prop :=
  ∃ metadata, (publications hist).getLast? = some metadata ∧ ∀ h ∈ s.handlers, h.blockNumber ≤ metadata.lastBlock

/-- The updates are those of one block after the other. -/
def UpdatesInOrder (hist : List (IndexerEntry ρ)) : Prop :=
  (publications hist).Pairwise fun earlier later => earlier.lastBlock ≤ later.lastBlock

/-- Documents for different blocks have different identifiers, among those that were added. -/
def NoCollision (env : IndexerEnv ρ) (hist : List (IndexerEntry ρ)) : Prop :=
  ∀ m ∈ publications hist, ∀ m' ∈ publications hist, env.cid m = env.cid m' → m.lastBlock = m'.lastBlock

end Claim

/-! ## The table -/

section Config

variable {cid : String} {table : List ConfigRow}

/-- If there is a row for the index, it has the new identifier afterwards. -/
theorem find?_publish_of_mem (h : ∃ r ∈ table, r.key = LATEST_METADATA_CID) :
    ((publish cid table).find? fun r => r.key = LATEST_METADATA_CID).map ConfigRow.value = some cid := by
  induction table with
  | nil =>
    obtain ⟨r, hr, -⟩ := h
    cases hr
  | cons r table ih =>
    by_cases hkey : r.key = LATEST_METADATA_CID
    · simp [publish, update, hkey]
    · have hrest : ∃ r ∈ table, r.key = LATEST_METADATA_CID := by
        obtain ⟨r', hr', hkey'⟩ := h
        rcases List.mem_cons.mp hr' with rfl | hr'
        · exact absurd hkey' hkey
        · exact ⟨r', hr', hkey'⟩
      have hcons : publish cid (r :: table) = r :: publish cid table := by simp [publish, update, hkey]
      rw [hcons, List.find?_cons_of_neg (by simpa using hkey)]
      exact ih hrest

theorem hasIndexRow_publish : HasIndexRow (some (publish cid table)) ↔ HasIndexRow (some table) := by
  have hkeys : (publish cid table).map ConfigRow.key = table.map ConfigRow.key := map_update fun _ => rfl
  have hiff : ∀ table : List ConfigRow, HasIndexRow (some table) ↔ LATEST_METADATA_CID ∈ table.map ConfigRow.key := by
    intro table
    simp [HasIndexRow]
  rw [hiff, hiff, hkeys]

theorem hasIndexRow_of_latest {ρ : Type} {s : Indexer ρ} (h : s.latestMetadataCid = some cid) :
    HasIndexRow s.systemConfig := by
  unfold Indexer.latestMetadataCid at h
  obtain ⟨table, htable, hfind⟩ := Option.bind_eq_some_iff.mp h
  obtain ⟨r, hr, -⟩ := Option.map_eq_some_iff.mp hfind
  exact ⟨table, htable, r, List.mem_of_find?_eq_some hr, by simpa using List.find?_some hr⟩

end Config

/-! ## The invariant -/

section Invariant

variable {ρ : Type} {env : IndexerEnv ρ} {s s' : Indexer ρ} {pubs logs : List (Metadata ρ)}

/-- The document that a handler has. -/
def BlockPhase.metadata : BlockPhase ρ → Option (Metadata ρ)
  | .adding metadata | .updating metadata | .finished metadata => some metadata
  | .selecting | .failed => none

/-- Every finished handler has published its document, and every document that was published is that of a handler that
has ended. -/
structure IndexTracked (handlers : List (BlockHandler ρ)) (pubs : List (Metadata ρ)) : Prop where
  numbered : ∀ h ∈ handlers, ∀ metadata, h.phase.metadata = some metadata → metadata.lastBlock = h.blockNumber
  published : ∀ h ∈ handlers, ∀ metadata, h.phase = .finished metadata → metadata ∈ pubs
  owned : ∀ metadata ∈ pubs, ∃ h ∈ handlers, h.phase = .finished metadata ∨ h.phase = .failed

/-- And the table says which was the last. -/
structure Indexer.Valid (env : IndexerEnv ρ) (s : Indexer ρ) (pubs : List (Metadata ρ)) : Prop where
  tracked : IndexTracked s.handlers pubs
  latest : HasIndexRow s.systemConfig → ∀ metadata, pubs.getLast? = some metadata →
    s.latestMetadataCid = some (env.cid metadata)

section Handlers

variable {handlers : List (BlockHandler ρ)} {i b : Nat} {old new : BlockPhase ρ}

/-- A handler that starts has published nothing yet. -/
theorem IndexTracked.starts (h : IndexTracked handlers pubs) (b : Nat) :
    IndexTracked (handlers ++ [{ blockNumber := b }]) pubs where
  numbered h' hh' metadata hphase := by
    rcases List.mem_append.mp hh' with hh' | hh'
    · exact h.numbered h' hh' metadata hphase
    · obtain rfl := List.mem_singleton.mp hh'
      cases hphase
  published h' hh' metadata hphase := by
    rcases List.mem_append.mp hh' with hh' | hh'
    · exact h.published h' hh' metadata hphase
    · obtain rfl := List.mem_singleton.mp hh'
      cases hphase
  owned metadata hmem := by
    obtain ⟨h', hh', hends⟩ := h.owned metadata hmem
    exact ⟨h', List.mem_append_left _ hh', hends⟩

/-- A handler that has not ended goes on, and publishes `more` if it ends with that. -/
theorem IndexTracked.set (h : IndexTracked handlers pubs) (hi : handlers[i]? = some ⟨b, old⟩)
    (hfinished : ∀ metadata, old ≠ .finished metadata) (hfailed : old ≠ .failed)
    (hnumber : ∀ metadata, new.metadata = some metadata → metadata.lastBlock = b) (more : List (Metadata ρ))
    (hlive : ∀ metadata, new = .finished metadata → metadata ∈ pubs ++ more)
    (hmore : ∀ metadata ∈ more, new = .finished metadata ∨ new = .failed) :
    IndexTracked (handlers.set i ⟨b, new⟩) (pubs ++ more) where
  numbered h' hh' metadata hphase := by
    rcases List.mem_or_eq_of_mem_set hh' with hh' | rfl
    · exact h.numbered h' hh' metadata hphase
    · exact hnumber metadata hphase
  published h' hh' metadata hphase := by
    rcases List.mem_or_eq_of_mem_set hh' with hh' | rfl
    · exact List.mem_append_left _ (h.published h' hh' metadata hphase)
    · exact hlive metadata hphase
  owned metadata hmem := by
    rcases List.mem_append.mp hmem with hmem | hmem
    · obtain ⟨h', hh', hends⟩ := h.owned metadata hmem
      refine ⟨h', mem_set_of_ne hi hh' ?_, hends⟩
      rintro rfl
      rcases hends with hends | hends
      · exact hfinished metadata hends
      · exact hfailed hends
    · exact ⟨_, mem_set_of_getElem? hi _, hmore metadata hmem⟩

end Handlers

section Steps

variable {i b : Nat} {old new : BlockPhase ρ} {metadata : Metadata ρ}

theorem Indexer.Valid.number (h : s.Valid env pubs) (hi : s.handlers[i]? = some ⟨b, old⟩)
    (hold : old.metadata = some metadata) : metadata.lastBlock = b :=
  h.tracked.numbered _ (List.mem_of_getElem? hi) metadata hold

/-- A handler goes on without an update. -/
theorem Indexer.Valid.goesOn (h : s.Valid env pubs) (hi : s.handlers[i]? = some ⟨b, old⟩)
    (hfinished : ∀ metadata, old ≠ .finished metadata) (hfailed : old ≠ .failed)
    (hnumber : ∀ metadata, new.metadata = some metadata → metadata.lastBlock = b)
    (hlive : ∀ metadata, new ≠ .finished metadata) : (s.setPhase i b new).Valid env (pubs ++ []) where
  tracked := h.tracked.set hi hfinished hfailed hnumber [] (fun metadata heq => absurd heq (hlive metadata)) nofun
  latest := by
    rw [List.append_nil]
    exact h.latest

/-- The update of a handler, whether it learns of it or not. -/
theorem Indexer.Valid.updates (h : s.Valid env pubs) (hi : s.handlers[i]? = some ⟨b, .updating metadata⟩)
    (hnew : new = .finished metadata ∨ new = .failed) :
    (s.updateConfig env i b metadata new).1.Valid env (pubs ++ (s.updateConfig env i b metadata new).2) := by
  unfold Indexer.updateConfig
  split
  · next table htable =>
    constructor
    · apply h.tracked.set hi nofun nofun
      · intro m hm
        rcases hnew with rfl | rfl
        · obtain rfl := Option.some.inj hm
          exact h.number hi rfl
        · cases hm
      · intro m hm
        rcases hnew with rfl | rfl
        · obtain rfl := BlockPhase.finished.inj hm
          exact List.mem_append_right _ (List.mem_singleton_self _)
        · cases hm
      · intro m hm
        obtain rfl := List.mem_singleton.mp hm
        exact hnew
    · intro hrow m hm
      obtain rfl : metadata = m := by simpa using hm
      obtain ⟨table', htable', hkey⟩ := hasIndexRow_publish.mp hrow
      obtain rfl := Option.some.inj htable'
      exact find?_publish_of_mem hkey
  · exact h.goesOn hi nofun nofun nofun nofun

/-- A step of a handler keeps the order of what is published. -/
theorem valid_indexerStep [DecidableEq ρ] {a : IndexerEvent ρ} (h : s.Valid env pubs)
    (hstep : s.step env a = .ok (s', logs)) : s'.Valid env (pubs ++ logs) := by
  cases a with
  | dealsChange deals =>
    obtain ⟨rfl, rfl⟩ := Prod.mk.inj (Except.ok.inj hstep)
    rw [List.append_nil]
    exact ⟨h.tracked, h.latest⟩
  | block b =>
    obtain ⟨rfl, rfl⟩ := Prod.mk.inj (Except.ok.inj hstep)
    rw [List.append_nil]
    exact ⟨h.tracked.starts b, h.latest⟩
  | selects i rows now =>
    simp only [Indexer.step] at hstep
    split at hstep
    · next b hi =>
      split at hstep
      -- the handler goes on, and has published nothing yet
      · obtain ⟨rfl, rfl⟩ := Prod.mk.inj (Except.ok.inj hstep)
        refine h.goesOn hi nofun nofun ?_ ?_
        · rintro _ ⟨⟩
          rfl
        · nofun
      · cases hstep
    · cases hstep
  | adds i =>
    simp only [Indexer.step] at hstep
    split at hstep
    · next b metadata hi =>
      obtain ⟨rfl, rfl⟩ := Prod.mk.inj (Except.ok.inj hstep)
      refine h.goesOn hi nofun nofun ?_ ?_
      -- the index is that of the block it was started for
      · rintro _ ⟨⟩
        exact h.number hi rfl
      · nofun
    · cases hstep
  | updates i =>
    simp only [Indexer.step] at hstep
    split at hstep
    · next b metadata hi =>
      obtain ⟨rfl, rfl⟩ := Prod.mk.inj (Except.ok.inj hstep)
      -- the UPDATE publishes, whether its answer arrives or not
      exact h.updates hi (Or.inl rfl)
    · cases hstep
  | updatesUnseen i =>
    simp only [Indexer.step] at hstep
    split at hstep
    · next b metadata hi =>
      obtain ⟨rfl, rfl⟩ := Prod.mk.inj (Except.ok.inj hstep)
      exact h.updates hi (Or.inr rfl)
    · cases hstep
  -- a handler that fails publishes nothing
  | fails i =>
    simp only [Indexer.step] at hstep
    split at hstep
    · next b hi =>
      obtain ⟨rfl, rfl⟩ := Prod.mk.inj (Except.ok.inj hstep)
      exact h.goesOn hi nofun nofun nofun nofun
    · next b metadata hi =>
      obtain ⟨rfl, rfl⟩ := Prod.mk.inj (Except.ok.inj hstep)
      exact h.goesOn hi nofun nofun nofun nofun
    · next b metadata hi =>
      obtain ⟨rfl, rfl⟩ := Prod.mk.inj (Except.ok.inj hstep)
      exact h.goesOn hi nofun nofun nofun nofun
    · cases hstep

/-- No step adds or removes the row. -/
theorem hasIndexRow_step [DecidableEq ρ] {a : IndexerEvent ρ} (hstep : s.step env a = .ok (s', logs)) :
    HasIndexRow s'.systemConfig ↔ HasIndexRow s.systemConfig := by
  have hupdate : ∀ i b metadata phase, HasIndexRow (s.updateConfig env i b metadata phase).1.systemConfig ↔
      HasIndexRow s.systemConfig := by
    intro i b metadata phase
    unfold Indexer.updateConfig
    split
    · next table htable =>
      rw [htable]
      exact hasIndexRow_publish
    · exact Iff.rfl
  cases a with
  | dealsChange deals | block b =>
    obtain ⟨rfl, -⟩ := Prod.mk.inj (Except.ok.inj hstep)
    exact Iff.rfl
  | selects i rows now =>
    simp only [Indexer.step] at hstep
    split at hstep
    · split at hstep
      · obtain ⟨rfl, -⟩ := Prod.mk.inj (Except.ok.inj hstep)
        exact Iff.rfl
      · cases hstep
    · cases hstep
  | adds i =>
    simp only [Indexer.step] at hstep
    split at hstep
    · obtain ⟨rfl, -⟩ := Prod.mk.inj (Except.ok.inj hstep)
      exact Iff.rfl
    · cases hstep
  | updates i | updatesUnseen i =>
    simp only [Indexer.step] at hstep
    split at hstep
    · obtain ⟨rfl, -⟩ := Prod.mk.inj (Except.ok.inj hstep)
      apply hupdate
    · cases hstep
  | fails i =>
    simp only [Indexer.step] at hstep
    split at hstep
    · obtain ⟨rfl, -⟩ := Prod.mk.inj (Except.ok.inj hstep)
      exact Iff.rfl
    · obtain ⟨rfl, -⟩ := Prod.mk.inj (Except.ok.inj hstep)
      exact Iff.rfl
    · obtain ⟨rfl, -⟩ := Prod.mk.inj (Except.ok.inj hstep)
      exact Iff.rfl
    · cases hstep

end Steps

end Invariant

/-! ## Runs -/

section Runs

variable {ρ : Type} (env : IndexerEnv ρ) (deals : List ρ) (config : Option (List ConfigRow))

theorem publications_snoc (hist : List (IndexerEntry ρ)) (e : IndexerEntry ρ) :
    publications (hist ++ [e]) = publications hist ++ e.logs := by
  simp [publications]

theorem valid_indexerRun [DecidableEq ρ] (as : List (IndexerEvent ρ)) :
    (run (Indexer.step env) { deals, systemConfig := config } as).Valid env
        (publications (history (Indexer.step env) { deals, systemConfig := config } as)) ∧
      (HasIndexRow (run (Indexer.step env) { deals, systemConfig := config } as).systemConfig ↔
        HasIndexRow config) := by
  refine run_induction (P := fun (s : Indexer ρ) hist => s.Valid env (publications hist) ∧
    (HasIndexRow s.systemConfig ↔ HasIndexRow config)) ?_ ?_ as (meets_true _ as)
  · exact ⟨⟨⟨nofun, nofun, nofun⟩, nofun⟩, Iff.rfl⟩
  · intro s hist a s' logs h _ hstep
    rw [publications_snoc]
    exact ⟨valid_indexerStep h.1 hstep, (hasIndexRow_step hstep).trans h.2⟩

/-- Whatever is in order is in order up to any state on the way. -/
theorem UpdatesInOrder.before [DecidableEq ρ] {s : Indexer ρ} {as bs : List (IndexerEvent ρ)}
    (h : UpdatesInOrder (history (Indexer.step env) s as)) (hbs : bs <+: as) :
    UpdatesInOrder (history (Indexer.step env) s bs) := by
  obtain ⟨cs, rfl⟩ := hbs
  unfold UpdatesInOrder publications at h
  rw [history_append, List.flatMap_append, List.pairwise_append] at h
  exact h.1

theorem le_lastPublication {hist : List (IndexerEntry ρ)} {last metadata : Metadata ρ} (h : UpdatesInOrder hist)
    (hlast : (publications hist).getLast? = some last) (hmem : metadata ∈ publications hist) :
    metadata.lastBlock ≤ last.lastBlock := by
  unfold UpdatesInOrder at h
  rw [← List.dropLast_append_getLast? last hlast] at h hmem
  rcases List.mem_append.mp hmem with hmem | hmem
  · exact (List.pairwise_append.mp h).2.2 metadata hmem last (List.mem_singleton_self last)
  · obtain rfl := List.mem_singleton.mp hmem
    exact Nat.le_refl _

/-- Once all handlers have finished, the last update is that of one of them. -/
theorem lastPublication_of_allFinished {s : Indexer ρ} {pubs : List (Metadata ρ)} (h : s.Valid env pubs)
    (hfinished : AllFinished s) : ∃ last, pubs.getLast? = some last ∧
      ∃ handler ∈ s.handlers, handler.phase = .finished last ∧ last.lastBlock = handler.blockNumber := by
  obtain ⟨hne, hall⟩ := hfinished
  obtain ⟨first, hfirst⟩ := List.exists_mem_of_ne_nil _ hne
  obtain ⟨metadata, hphase⟩ := hall first hfirst
  have hpubs := h.tracked.published first hfirst metadata hphase
  have hlast := List.getLast?_eq_some_getLast (List.ne_nil_of_mem hpubs)
  generalize pubs.getLast (List.ne_nil_of_mem hpubs) = last at hlast
  refine ⟨last, hlast, ?_⟩
  obtain ⟨handler, hhandler, hends⟩ := h.tracked.owned last (List.mem_of_getLast? hlast)
  obtain ⟨own, hown⟩ := hall handler hhandler
  rcases hends with hends | hends
  · exact ⟨handler, hhandler, hends, h.tracked.numbered handler hhandler last (by rw [hends]; rfl)⟩
  · rw [hends] at hown
    cases hown

theorem newestPublished_of_lastIsNewest {s : Indexer ρ} {hist : List (IndexerEntry ρ)}
    (h : s.Valid env (publications hist)) (hrow : HasIndexRow s.systemConfig)
    (hnewest : AllFinished s → LastIsNewest s hist) : NewestPublished env s := by
  intro hfinished
  obtain ⟨last, hlast, handler, hhandler, hphase, hnumber⟩ := lastPublication_of_allFinished env h hfinished
  obtain ⟨metadata, hmetadata, hmax⟩ := hnewest hfinished
  obtain rfl := Option.some.inj (hmetadata.symm.trans hlast)
  refine ⟨handler, hhandler, ?_, metadata, hphase, hnumber, h.latest hrow metadata hlast⟩
  rw [← hnumber]
  exact hmax

/-- **What is published when all is done.** It is the document for the highest block exactly if the table has the row
and the last update was the one for that block; so it is in every state of a run in which the updates come in the order
of the blocks. -/
theorem newestPublished_iff [DecidableEq ρ] (as : List (IndexerEvent ρ)) :
    (NoCollision env (history (Indexer.step env) { deals, systemConfig := config } as) →
      (NewestPublished env (run (Indexer.step env) { deals, systemConfig := config } as) ↔
        (AllFinished (run (Indexer.step env) { deals, systemConfig := config } as) → HasIndexRow config ∧
          LastIsNewest (run (Indexer.step env) { deals, systemConfig := config } as)
            (history (Indexer.step env) { deals, systemConfig := config } as)))) ∧
    (HasIndexRow config → UpdatesInOrder (history (Indexer.step env) { deals, systemConfig := config } as) →
      ∀ bs, bs <+: as → NewestPublished env (run (Indexer.step env) { deals, systemConfig := config } bs)) := by
  constructor
  · intro hcollision
    obtain ⟨hvalid, hrow⟩ := valid_indexerRun env deals config as
    constructor
    · intro hpublished hfinished
      obtain ⟨last, hlast, handler, hhandler, hphase, hnumber⟩ := lastPublication_of_allFinished env hvalid hfinished
      obtain ⟨newest, hnewest, hmax, metadata, hends, hblock, hcid⟩ := hpublished hfinished
      have hconfig := hasIndexRow_of_latest hcid
      refine ⟨hrow.mp hconfig, last, hlast, ?_⟩
      -- the table has the identifier of both, so they are for one block
      have hsame : env.cid last = env.cid metadata :=
        Option.some.inj ((hvalid.latest hconfig last hlast).symm.trans hcid)
      rw [hcollision last (List.mem_of_getLast? hlast) metadata (hvalid.tracked.published newest hnewest metadata hends)
        hsame, hblock]
      exact hmax
    · intro hcondition hfinished
      obtain ⟨hconfig, hnewest⟩ := hcondition hfinished
      exact newestPublished_of_lastIsNewest env hvalid (hrow.mpr hconfig) (fun _ => hnewest) hfinished
  · intro hconfig horder bs hbs
    obtain ⟨hvalid, hrow⟩ := valid_indexerRun env deals config bs
    apply newestPublished_of_lastIsNewest env hvalid (hrow.mpr hconfig)
    intro hfinished
    obtain ⟨last, hlast, -⟩ := lastPublication_of_allFinished env hvalid hfinished
    refine ⟨last, hlast, fun handler hhandler => ?_⟩
    obtain ⟨metadata, hphase⟩ := hfinished.2 handler hhandler
    have hmem := hvalid.tracked.published handler hhandler metadata hphase
    rw [← hvalid.tracked.numbered handler hhandler metadata (by rw [hphase]; rfl)]
    exact le_lastPublication (horder.before env hbs) hlast hmem

end Runs

namespace SmallIndex

/-- Two deals, and identifiers that name the block. -/
def env : IndexerEnv Nat where
  createdAt := id
  cid metadata := toString metadata.lastBlock

def config : Option (List ConfigRow) := some [⟨LATEST_METADATA_CID, ""⟩]

/-- Two blocks come in order, and so do their updates. -/
def oneByOne : List (IndexerEvent Nat) :=
  [.block 1, .selects 0 [20, 10] 0, .adds 0, .updates 0, .block 2, .selects 1 [20, 10] 0, .adds 1, .updates 1]

/-- The second handler overtakes the first, which waits for IPFS. -/
def overtaken : List (IndexerEvent Nat) :=
  [.block 1, .selects 0 [20, 10] 0, .block 2, .selects 1 [20, 10] 0, .adds 1, .updates 1, .adds 0, .updates 0]

/-- If the handlers take turns, the row has the newest index. -/
theorem oneByOne_published :
    (NewestPublished env (run (Indexer.step env) { deals := [10, 20], systemConfig := config } oneByOne) ↔
        (AllFinished (run (Indexer.step env) { deals := [10, 20], systemConfig := config } oneByOne) →
          HasIndexRow config ∧ LastIsNewest
            (run (Indexer.step env) { deals := [10, 20], systemConfig := config } oneByOne)
            (history (Indexer.step env) { deals := [10, 20], systemConfig := config } oneByOne))) ∧
      NewestPublished env (run (Indexer.step env) { deals := [10, 20], systemConfig := config } oneByOne) := by
  constructor
  · apply (newestPublished_iff env [10, 20] config oneByOne).1
    unfold NoCollision
    decide
  · apply (newestPublished_iff env [10, 20] config oneByOne).2
    · exact ⟨_, rfl, ⟨LATEST_METADATA_CID, ""⟩, List.mem_singleton_self _, rfl⟩
    · unfold UpdatesInOrder
      decide
    · exact List.prefix_refl _

theorem overtaken_handlers :
    (run (Indexer.step env) { deals := [10, 20], systemConfig := config } overtaken).handlers =
      [⟨1, .finished ⟨1, [20, 10], 0⟩⟩, ⟨2, .finished ⟨2, [20, 10], 0⟩⟩] := by
  decide

/-- All handlers have finished, and the document for block 1 is the one that is published. -/
theorem overtaken_notNewest :
    AllFinished (run (Indexer.step env) { deals := [10, 20], systemConfig := config } overtaken) ∧
      (run (Indexer.step env) { deals := [10, 20], systemConfig := config } overtaken).latestMetadataCid = some "1" ∧
      ¬ NewestPublished env (run (Indexer.step env) { deals := [10, 20], systemConfig := config } overtaken) := by
  have hfinished : AllFinished (run (Indexer.step env) { deals := [10, 20], systemConfig := config } overtaken) := by
    constructor
    · rw [overtaken_handlers]
      exact List.cons_ne_nil _ _
    · rw [overtaken_handlers]
      intro h hh
      rcases List.mem_pair.mp hh with rfl | rfl
      · exact ⟨_, rfl⟩
      · exact ⟨_, rfl⟩
  have hlatest : (run (Indexer.step env) { deals := [10, 20], systemConfig := config } overtaken).latestMetadataCid =
      some "1" := by decide
  refine ⟨hfinished, hlatest, ?_⟩
  intro hpublished
  obtain ⟨h, hh, hmax, metadata, hphase, hnumber, hcid⟩ := hpublished hfinished
  rw [overtaken_handlers] at hh hmax
  rcases List.mem_pair.mp hh with rfl | rfl
  · exact absurd (hmax ⟨2, .finished ⟨2, [20, 10], 0⟩⟩ (List.mem_cons_of_mem _ (List.mem_singleton_self _))) (by decide)
  · obtain rfl := BlockPhase.finished.inj hphase
    rw [hlatest] at hcid
    exact absurd hcid (by decide)

end SmallIndex

end Kyneto
