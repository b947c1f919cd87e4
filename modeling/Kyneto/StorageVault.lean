import Kyneto.Evm.Run
import Kyneto.Js.Number

/-!
# The storage vault of a provider

`StorageVaultManager` keeps one file of the pledged size. At each start of the daemon `ensureVaultExists` creates it,
extends it, or keeps it if it is large enough, and then writes the pledged size into a metadata file. Whether the disk
has room is asked before a creation only. So what a provider pledges is backed by disk exactly if no start extends the
vault beyond the free space (`vault_backed_iff`); all the while the vault does not shrink, and of what the metadata says
nothing is missing, except for a file that was not made by the daemon and ends in the last half of a GB.

Any file operation may fail, and each call is told which do. A call that fails returns `false` and leaves behind what
it has done so far.
-/

namespace Kyneto

open Evm Js

/-- `1024 * 1024 * 1024`. -/
def bytesPerGB : Nat := 2 ^ 30

/-- What there is at the vault's path. -/
structure Volume where
  vaultPath : Bool := false
  vaultFile : Option Nat := none  -- the size of `vault.img` in bytes
  dataDir : Bool := false
  metadata : Option Nat := none   -- `capacityGB` in `vault-metadata.json`
  deriving DecidableEq, Repr

/-- The size of the vault, nothing if there is none. -/
def Volume.size (v : Volume) : Nat := v.vaultFile.getD 0

inductive FileOperation where
  | mkdirVaultPath | statSync | truncateSync | openSync | writeSync | closeSync | mkdirDataDir | writeFileSync
  deriving DecidableEq, Repr

/-- What `df` prints: nothing that can be had, no number, or a number of GB. -/
inductive DfOutput where
  | failed
  | noNumber
  | gigabytes (n : Nat)
  deriving DecidableEq, Repr

/-- A start of the daemon: the pledged capacity it was configured with, and how the disk answers. -/
structure Restart where
  capacityGB : Nat
  df : DfOutput
  statfs : Option Nat := none           -- the available bytes, asked for if `df` fails
  faults : FileOperation → Bool := fun _ => false
  positive : 0 < capacityGB
  isNumber : IsNumber capacityGB        -- `parseInt` returns a number

namespace Restart

variable (r : Restart)

/-! ## `StorageVaultManager` -/

def sizeBytes : Nat := r.capacityGB * bytesPerGB

def getAvailableDiskSpace : Nat :=
  match r.df with
  | .gigabytes n => n
  | .noNumber => 0
  | .failed =>
    match r.statfs with
    | some availableBytes => availableBytes / bytesPerGB
    | none => MAX_SAFE_INTEGER

/-- A file operation: an exception leaves the volume as it was. -/
def attempt (op : FileOperation) (v done : Volume) : Except Volume Volume :=
  if r.faults op then .error v else .ok done

/-- `Math.round(stats.size / (1024 * 1024 * 1024))`. -/
def existingCapacityGB (size : Nat) : Nat := (toNumber size + bytesPerGB / 2) / bytesPerGB

def extendVaultFile (v : Volume) : Except Volume Volume :=
  r.attempt .truncateSync v { v with vaultFile := some (toNumber r.sizeBytes) }

/-- One byte is written at the end of what is to be the file. -/
def createSparseFile (v : Volume) : Except Volume Volume := do
  let v ← r.attempt .openSync v { v with vaultFile := some 0 }
  let v ← r.attempt .writeSync v { v with vaultFile := some (toNumber (r.sizeBytes - 1) + 1) }
  r.attempt .closeSync v v

def makeVaultPath (v : Volume) : Except Volume Volume :=
  if v.vaultPath then .ok v else r.attempt .mkdirVaultPath v { v with vaultPath := true }

def prepareVaultFile (v : Volume) : Except Volume Volume :=
  match v.vaultFile with
  | some size => do
    let v ← r.attempt .statSync v v
    if existingCapacityGB size < r.capacityGB then r.extendVaultFile v else .ok v
  | none => if r.getAvailableDiskSpace < r.capacityGB then .error v else r.createSparseFile v

def makeDataDir (v : Volume) : Except Volume Volume :=
  if v.dataDir then .ok v else r.attempt .mkdirDataDir v { v with dataDir := true }

def writeMetadata (v : Volume) : Except Volume Volume :=
  r.attempt .writeFileSync v { v with metadata := some r.capacityGB }

/-- The body of the `try`: an exception and `return false` alike end it with the volume as it is then. -/
def tryInitialize (v : Volume) : Except Volume Volume := do
  let v ← r.makeVaultPath v
  let v ← r.prepareVaultFile v
  let v ← r.makeDataDir v
  r.writeMetadata v

def ensureVaultExists (v : Volume) : Volume × Bool :=
  match r.tryInitialize v with
  | .ok v' => (v', true)
  | .error v' => (v', false)

/-! ## What a call does -/

/-- The size of the vault after a call that returns `true`. -/
def newSize : Option Nat → Nat
  | some size => if existingCapacityGB size < r.capacityGB then toNumber r.sizeBytes else size
  | none => toNumber (r.sizeBytes - 1) + 1

/-- The operations on the vault file, as long as none of them fails. -/
def fileOperations : Option Nat → List FileOperation
  | some size => .statSync :: if existingCapacityGB size < r.capacityGB then [.truncateSync] else []
  | none => [.openSync, .writeSync, .closeSync]

/-- All file operations of a call. -/
def operations (v : Volume) : List FileOperation :=
  (if v.vaultPath then [] else [.mkdirVaultPath]) ++ r.fileOperations v.vaultFile ++
    (if v.dataDir then [] else [.mkdirDataDir]) ++ [.writeFileSync]

/-- The vault as the call leaves it if it returns `true`. -/
def ready (v : Volume) : Volume where
  vaultPath := true
  vaultFile := some (r.newSize v.vaultFile)
  dataDir := true
  metadata := some r.capacityGB

variable {r : Restart} {v v' done : Volume} {op : FileOperation}

@[simp] theorem attempt_eq_ok : r.attempt op v done = .ok v' ↔ r.faults op = false ∧ v' = done := by
  unfold attempt
  cases r.faults op <;> simp [eq_comm]

@[simp] theorem attempt_eq_error : r.attempt op v done = .error v' ↔ r.faults op = true ∧ v' = v := by
  unfold attempt
  cases r.faults op <;> simp [eq_comm]

theorem makeVaultPath_eq_ok : r.makeVaultPath v = .ok v' ↔
    (∀ op ∈ if v.vaultPath then [] else [FileOperation.mkdirVaultPath], r.faults op = false) ∧
      v' = { v with vaultPath := true } := by
  obtain ⟨vaultPath, vaultFile, dataDir, metadata⟩ := v
  cases vaultPath with
  | true => simpa [makeVaultPath] using eq_comm
  | false => simp [makeVaultPath]

theorem makeDataDir_eq_ok : r.makeDataDir v = .ok v' ↔
    (∀ op ∈ if v.dataDir then [] else [FileOperation.mkdirDataDir], r.faults op = false) ∧
      v' = { v with dataDir := true } := by
  obtain ⟨vaultPath, vaultFile, dataDir, metadata⟩ := v
  cases dataDir with
  | true => simpa [makeDataDir] using eq_comm
  | false => simp [makeDataDir]

/-- When the file of the vault is prepared, and what its size is then. -/
theorem prepareVaultFile_eq_ok : r.prepareVaultFile v = .ok v' ↔
    (∀ op ∈ r.fileOperations v.vaultFile, r.faults op = false) ∧
      (v.vaultFile = none → r.capacityGB ≤ r.getAvailableDiskSpace) ∧
      v' = { v with vaultFile := some (r.newSize v.vaultFile) } := by
  obtain ⟨vaultPath, vaultFile, dataDir, metadata⟩ := v
  cases vaultFile with
  | none =>
    by_cases hspace : r.getAvailableDiskSpace < r.capacityGB
    · simp [prepareVaultFile, hspace]
    · have hle := Nat.le_of_not_lt hspace
      simp [prepareVaultFile, createSparseFile, bind_eq_ok, hspace, hle, fileOperations, newSize, and_assoc]
  | some size =>
    by_cases hextend : existingCapacityGB size < r.capacityGB
    · simp [prepareVaultFile, extendVaultFile, bind_eq_ok, hextend, fileOperations, newSize, and_assoc]
    · simp [prepareVaultFile, bind_eq_ok, hextend, fileOperations, newSize]

theorem writeMetadata_eq_ok : r.writeMetadata v = .ok v' ↔
    r.faults .writeFileSync = false ∧ v' = { v with metadata := some r.capacityGB } :=
  attempt_eq_ok

/-- **When a call returns `true`, and what it leaves.** -/
theorem tryInitialize_eq_ok : r.tryInitialize v = .ok v' ↔
    (∀ op ∈ r.operations v, r.faults op = false) ∧
      (v.vaultFile = none → r.capacityGB ≤ r.getAvailableDiskSpace) ∧ v' = r.ready v := by
  simp only [tryInitialize, bind_eq_ok, makeVaultPath_eq_ok, prepareVaultFile_eq_ok, makeDataDir_eq_ok,
    writeMetadata_eq_ok, operations, List.forall_mem_append, List.forall_mem_singleton]
  constructor
  · rintro ⟨_, ⟨hvault, rfl⟩, _, ⟨hfile, hspace, rfl⟩, _, ⟨hdata, rfl⟩, hmetadata, rfl⟩
    exact ⟨⟨⟨⟨hvault, hfile⟩, hdata⟩, hmetadata⟩, hspace, rfl⟩
  · rintro ⟨⟨⟨⟨hvault, hfile⟩, hdata⟩, hmetadata⟩, hspace, rfl⟩
    exact ⟨_, ⟨hvault, rfl⟩, _, ⟨hfile, hspace, rfl⟩, _, ⟨hdata, rfl⟩, hmetadata, rfl⟩

/-! ## Sizes -/

theorem isNumber_sizeBytes (r : Restart) : IsNumber r.sizeBytes := r.isNumber.mul_two_pow 30

/-- A file that is extended is shorter than what it is extended to, for all the rounding. -/
theorem size_le_sizeBytes {size : Nat} (h : existingCapacityGB size < r.capacityGB) : size ≤ r.sizeBytes := by
  by_contra hlarger
  have hround := le_toNumber r.isNumber_sizeBytes (Nat.le_of_not_le hlarger)
  unfold existingCapacityGB at h
  unfold sizeBytes bytesPerGB at *
  omega

theorem sizeBytes_le_create (r : Restart) : r.sizeBytes ≤ toNumber (r.sizeBytes - 1) + 1 :=
  le_toNumber_pred r.isNumber_sizeBytes (Nat.dvd_mul_left_of_dvd (by decide) r.capacityGB)

/-- The vault never shrinks. -/
theorem size_le_newSize (r : Restart) (v : Volume) : v.size ≤ r.newSize v.vaultFile := by
  unfold Volume.size newSize
  cases v.vaultFile with
  | none => exact Nat.zero_le _
  | some size =>
    simp only [Option.getD_some]
    split
    · next hextend =>
      rw [toNumber_of_isNumber r.isNumber_sizeBytes]
      exact size_le_sizeBytes hextend
    · exact Nat.le_refl size

/-- The vault has not shrunk, and the metadata is the same. -/
structure Kept (v v' : Volume) : Prop where
  size : v.size ≤ v'.size
  metadata : v'.metadata = v.metadata

theorem Kept.refl (v : Volume) : Kept v v := ⟨Nat.le_refl _, rfl⟩

theorem Kept.trans {v v' v'' : Volume} (h : Kept v v') (h' : Kept v' v'') : Kept v v'' :=
  ⟨h.size.trans h'.size, h'.metadata.trans h.metadata⟩

theorem attempt_error_kept (h : r.attempt op v done = .error v') : Kept v v' := by
  obtain ⟨-, rfl⟩ := attempt_eq_error.mp h
  exact Kept.refl _

/-- A preparation that fails does not shrink the vault. -/
theorem prepareVaultFile_error_kept (h : r.prepareVaultFile v = .error v') : Kept v v' := by
  unfold prepareVaultFile at h
  split at h
  · rcases bind_eq_error.mp h with hstat | ⟨v₁, hstat, hrest⟩
    · exact attempt_error_kept hstat
    · obtain ⟨-, rfl⟩ := attempt_eq_ok.mp hstat
      split at hrest
      · exact attempt_error_kept hrest
      · cases hrest
  · next hnone =>
    -- whatever is left of a new file, there was none
    have hkept : ∀ file, Kept v { v with vaultFile := file } := by
      intro file
      refine ⟨?_, rfl⟩
      rw [Volume.size, hnone]
      exact Nat.zero_le _
    split at h
    · cases h
      exact Kept.refl v
    · rcases bind_eq_error.mp h with hopen | ⟨v₁, hopen, hcreate⟩
      · exact attempt_error_kept hopen
      · obtain ⟨-, rfl⟩ := attempt_eq_ok.mp hopen
        rcases bind_eq_error.mp hcreate with hwrite | ⟨v₂, hwrite, hclose⟩
        · exact (hkept _).trans (attempt_error_kept hwrite)
        · obtain ⟨-, rfl⟩ := attempt_eq_ok.mp hwrite
          exact (hkept _).trans (attempt_error_kept hclose)

theorem makeVaultPath_error_kept (h : r.makeVaultPath v = .error v') : Kept v v' := by
  unfold makeVaultPath at h
  split at h
  · cases h
  · exact attempt_error_kept h

theorem makeDataDir_error_kept (h : r.makeDataDir v = .error v') : Kept v v' := by
  unfold makeDataDir at h
  split at h
  · cases h
  · exact attempt_error_kept h

/-- A call that returns `false` has neither shrunk the vault nor written metadata. -/
theorem tryInitialize_error_kept (h : r.tryInitialize v = .error v') : Kept v v' := by
  rcases bind_eq_error.mp h with hvault | ⟨v₁, hvault, hrest⟩
  · exact makeVaultPath_error_kept hvault
  · obtain ⟨-, rfl⟩ := makeVaultPath_eq_ok.mp hvault
    have hkept₁ : Kept v { v with vaultPath := true } := ⟨Nat.le_refl _, rfl⟩
    rcases bind_eq_error.mp hrest with hfile | ⟨v₂, hfile, hrest⟩
    · exact hkept₁.trans (prepareVaultFile_error_kept hfile)
    · obtain ⟨-, -, rfl⟩ := prepareVaultFile_eq_ok.mp hfile
      have hkept₂ : Kept v { v with vaultPath := true, vaultFile := some (r.newSize v.vaultFile) } :=
        ⟨r.size_le_newSize v, rfl⟩
      rcases bind_eq_error.mp hrest with hdata | ⟨v₃, hdata, hmetadata⟩
      · exact hkept₂.trans (makeDataDir_error_kept hdata)
      · obtain ⟨-, rfl⟩ := makeDataDir_eq_ok.mp hdata
        have hkept₃ : Kept v { v with vaultPath := true, vaultFile := some (r.newSize v.vaultFile), dataDir := true } :=
          ⟨r.size_le_newSize v, rfl⟩
        exact hkept₃.trans (attempt_error_kept hmetadata)

end Restart

/-! ## Restarts -/

/-- A restart, with what it returned as its log. -/
def Volume.restart (v : Volume) (r : Restart) : Tx (Volume × List Bool) :=
  .ok ((r.ensureVaultExists v).1, [(r.ensureVaultExists v).2])

/-- The metadata promises no more than the vault file has. -/
def Volume.Honest (v : Volume) : Prop := ∀ capacityGB ∈ v.metadata, capacityGB * bytesPerGB ≤ v.size

instance (v : Volume) : Decidable v.Honest :=
  inferInstanceAs (Decidable (∀ capacityGB ∈ v.metadata, capacityGB * bytesPerGB ≤ v.size))

/-- By what `df` reports, the volume has room for what the call is to add to the vault, if anything. -/
def HasRoom (v : Volume) (r : Restart) : Prop :=
  ∀ n, r.df = .gigabytes n → r.sizeBytes - v.size ≤ n * bytesPerGB

instance (v : Volume) (r : Restart) : Decidable (HasRoom v r) :=
  match h : r.df with
  | .gigabytes n =>
    decidable_of_iff (r.sizeBytes - v.size ≤ n * bytesPerGB)
      ⟨fun hle _ hn => DfOutput.gigabytes.inj (h.symm.trans hn) ▸ hle, fun hroom => hroom n h⟩
  | .noNumber | .failed => isTrue fun _ hn => nomatch h.symm.trans hn

/-- What a restart is to guarantee. -/
structure Backed (e : Entry Volume Restart Bool) : Prop where
  room : true ∈ e.logs → HasRoom e.pre e.act
  grows : e.pre.size ≤ e.post.size
  honest : e.post.Honest

/-- The restart finds no vault, or fails, or asks for no more than the vault has, or for an extension that there is
room for. -/
def WithinSpace (v : Volume) (r : Restart) : Prop :=
  v.vaultFile = none ∨ (∃ op ∈ r.operations v, r.faults op = true) ∨ r.sizeBytes ≤ v.size ∨
    (∃ size ∈ v.vaultFile, Restart.existingCapacityGB size < r.capacityGB) ∧ HasRoom v r

instance (v : Volume) (r : Restart) : Decidable (WithinSpace v r) := by
  unfold WithinSpace
  infer_instance

section Restarts

variable {r : Restart} {v v' : Volume} {logs : List Bool}

/-- A restart either keeps the vault and the metadata, or leaves a vault that is ready. -/
theorem restart_cases (h : v.restart r = .ok (v', logs)) :
    (r.tryInitialize v = .error v' ∧ logs = [false]) ∨ (r.tryInitialize v = .ok v' ∧ logs = [true]) := by
  unfold Volume.restart Restart.ensureVaultExists at h
  cases hcall : r.tryInitialize v with
  | error v₁ =>
    rw [hcall] at h
    obtain ⟨rfl, rfl⟩ := Prod.mk.inj (Except.ok.inj h)
    exact Or.inl ⟨rfl, rfl⟩
  | ok v₁ =>
    rw [hcall] at h
    obtain ⟨rfl, rfl⟩ := Prod.mk.inj (Except.ok.inj h)
    exact Or.inr ⟨rfl, rfl⟩

/-- A call that returns `false` does no harm, and something failed or there is no vault. -/
theorem withinSpace_of_error (h : r.tryInitialize v = .error v') : WithinSpace v r := by
  unfold WithinSpace
  by_contra hnot
  obtain ⟨hfile, hfaults, -⟩ := by simpa only [not_or] using hnot
  have hnone : ∀ op ∈ r.operations v, r.faults op = false := by
    intro op hop
    cases hfault : r.faults op with
    | false => rfl
    | true => exact absurd ⟨op, hop, hfault⟩ hfaults
  have hok := Restart.tryInitialize_eq_ok.mpr ⟨hnone, fun hempty => absurd hempty hfile, rfl⟩
  rw [h] at hok
  cases hok

theorem backed_of_kept (hhonest : v.Honest) (h : Restart.Kept v v') : Backed ⟨v, r, [false], v'⟩ where
  room hreturned := by cases List.mem_singleton.mp hreturned
  grows := h.size
  honest := by
    intro capacityGB hcapacity
    rw [h.metadata] at hcapacity
    exact (hhonest capacityGB hcapacity).trans h.size

/-- Of a call that returns `true`: it is right exactly if there is room, and the file holds what the metadata say. -/
theorem backed_ready_iff : Backed ⟨v, r, [true], r.ready v⟩ ↔
    HasRoom v r ∧ r.sizeBytes ≤ r.newSize v.vaultFile := by
  constructor
  · intro h
    exact ⟨h.room (List.mem_singleton_self true), h.honest r.capacityGB rfl⟩
  · rintro ⟨hroom, hsize⟩
    refine ⟨fun _ => hroom, r.size_le_newSize v, ?_⟩
    intro capacityGB hcapacity
    obtain rfl := Option.some.inj hcapacity
    exact hsize

/-- The vault has room for what it promises exactly if it was extended within the free space. -/
theorem restart_backed_iff (hhonest : v.Honest) (h : v.restart r = .ok (v', logs)) :
    Backed ⟨v, r, logs, v'⟩ ↔ WithinSpace v r := by
  rcases restart_cases h with ⟨hcall, rfl⟩ | ⟨hcall, rfl⟩
  · exact iff_of_true (backed_of_kept hhonest (Restart.tryInitialize_error_kept hcall)) (withinSpace_of_error hcall)
  · obtain ⟨hfaults, hspace, rfl⟩ := Restart.tryInitialize_eq_ok.mp hcall
    have hnofault : ¬ ∃ op ∈ r.operations v, r.faults op = true := by
      rintro ⟨op, hop, hfault⟩
      rw [hfaults op hop] at hfault
      cases hfault
    rw [backed_ready_iff, WithinSpace]
    cases hfile : v.vaultFile with
    | none =>
      refine iff_of_true ⟨?_, r.sizeBytes_le_create⟩ (Or.inl rfl)
      intro n hn
      have hle := hspace hfile
      rw [Restart.getAvailableDiskSpace, hn] at hle
      exact (Nat.sub_le _ _).trans (Nat.mul_le_mul_right _ hle)
    | some size =>
      have hsize : v.size = size := by rw [Volume.size, hfile, Option.getD_some]
      have hnothing : r.sizeBytes ≤ size → HasRoom v r := by
        intro hle n _
        rw [hsize, Nat.sub_eq_zero_of_le hle]
        exact Nat.zero_le _
      simp only [Restart.newSize, hsize, hnofault, false_or, reduceCtorEq, Option.mem_def, Option.some.injEq,
        exists_eq_left']
      by_cases hextend : Restart.existingCapacityGB size < r.capacityGB
      · simp only [hextend, if_true, true_and, toNumber_of_isNumber r.isNumber_sizeBytes, Nat.le_refl, and_true]
        exact ⟨Or.inr, fun hor => hor.elim hnothing id⟩
      · simp only [hextend, if_false, false_and, or_false]
        exact ⟨And.right, fun hle => ⟨hnothing hle, hle⟩⟩

end Restarts

namespace SmallDisk

/-- Ten GB are pledged, with twenty free. -/
def tenGB : Restart := { capacityGB := 10, df := .gigabytes 20, positive := by decide, isNumber := by decide }

/-- Five more are pledged, with ten free. -/
def fifteenGB : Restart := { capacityGB := 15, df := .gigabytes 10, positive := by decide, isNumber := by decide }

/-- A hundred are pledged, with ten free. -/
def hundredGB : Restart := { capacityGB := 100, df := .gigabytes 10, positive := by decide, isNumber := by decide }

end SmallDisk

end Kyneto
