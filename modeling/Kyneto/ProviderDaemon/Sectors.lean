import Kyneto.Coding.Blocks
import Kyneto.ProviderDaemon

/-!
# The sectors of a shard

`buildMerkleTree` makes sectors in three steps: a loop slices the shard, the last slice is copied into a buffer of
zeros, and a second loop adds dummy sectors up to ten. The loops of the source stand here; `sectorsOf_eq` says that
they compute the sectors the daemon is modelled with. Sectors are blocks of one buffer, the shard filled up with
zeros, so that what the library knows of blocks says where each byte is.
-/

namespace Kyneto

open Evm Coding

namespace ProviderDaemon

/-! ## The loops -/

/-- The slicing loop from the byte `i` on; `subarray` takes a start and an end. -/
def sliceFrom (data : Bytes) (i : Nat) : List Bytes :=
  if i < data.length then
    (data.take (min (i + SECTOR_SIZE) data.length)).drop i :: sliceFrom data (i + SECTOR_SIZE)
  else []
termination_by data.length - i
decreasing_by
  unfold SECTOR_SIZE
  omega

/-- The last sector is copied into a new buffer, if it is short. -/
def padLastSector (sectors : List Bytes) : List Bytes :=
  match sectors.getLast? with
  | none => sectors
  | some lastSector =>
    if lastSector.length < SECTOR_SIZE then
      sectors.set (sectors.length - 1) (copyInto zeroSector lastSector 0)
    else sectors

/-- The loop that pushes dummy sectors. -/
def fillUp (sectors : List Bytes) : List Bytes :=
  if sectors.length < 10 then fillUp (sectors ++ [zeroSector]) else sectors
termination_by 10 - sectors.length
decreasing_by
  rw [List.length_append, List.length_singleton]
  omega

def sectorsOf (data : Bytes) : List Bytes := fillUp (padLastSector (sliceFrom data 0))

section Loops

variable {data : Bytes} {sectors : List Bytes}

theorem length_splitSectors : (splitSectors data).length = data.length ⌈/⌉ SECTOR_SIZE := by
  rw [splitSectors, List.length_map, List.length_range, Nat.ceilDiv_eq_add_pred_div]
  rfl

theorem lt_count_iff {k : Nat} : k < data.length ⌈/⌉ SECTOR_SIZE ↔ k * SECTOR_SIZE < data.length := by
  rw [Nat.ceilDiv_eq_add_pred_div]
  unfold SECTOR_SIZE
  omega

/-- One slice is a block of the shard, a shorter one at the end. -/
theorem slice_eq (k : Nat) :
    (data.take (min (k * SECTOR_SIZE + SECTOR_SIZE) data.length)).drop (k * SECTOR_SIZE) =
      block SECTOR_SIZE k data := by
  rw [block, List.drop_take, List.take_eq_take_iff, List.length_drop]
  omega

/-- What the loop does from the sector `k` on. The induction is on the number of sectors that are left. -/
theorem sliceFrom_eq (k : Nat) :
    sliceFrom data (k * SECTOR_SIZE) = ((List.range (data.length ⌈/⌉ SECTOR_SIZE)).drop k).map
      fun i => block SECTOR_SIZE i data := by
  induction hleft : data.length ⌈/⌉ SECTOR_SIZE - k generalizing k with
  | zero =>
    have hend : ¬ k * SECTOR_SIZE < data.length := by
      rw [← lt_count_iff]
      omega
    have hnone : (List.range (data.length ⌈/⌉ SECTOR_SIZE)).drop k = [] := by
      rw [List.drop_eq_nil_iff, List.length_range]
      omega
    rw [sliceFrom, if_neg hend, hnone, List.map_nil]
  | succ n ih =>
    have hk : k < data.length ⌈/⌉ SECTOR_SIZE := by omega
    have hfirst : (List.range (data.length ⌈/⌉ SECTOR_SIZE)).drop k =
        k :: (List.range (data.length ⌈/⌉ SECTOR_SIZE)).drop (k + 1) := by
      rw [List.drop_eq_getElem_cons (by rwa [List.length_range]), List.getElem_range]
    have hnext : k * SECTOR_SIZE + SECTOR_SIZE = (k + 1) * SECTOR_SIZE := (Nat.succ_mul k SECTOR_SIZE).symm
    rw [sliceFrom, if_pos (lt_count_iff.mp hk), hfirst, List.map_cons, slice_eq, hnext, ih (k + 1) (by omega)]

theorem sliceFrom_zero : sliceFrom data 0 = splitSectors data := by
  have h := @sliceFrom_eq data 0
  rw [Nat.zero_mul, List.drop_zero, Nat.ceilDiv_eq_add_pred_div] at h
  exact h

/-- The padding of the source fills up the last sector, and no other. -/
theorem padLastSector_eq : padLastSector sectors = padLast sectors := by
  unfold padLastSector padLast
  induction sectors using List.reverseRecOn with
  | nil => rfl
  | append_singleton before last _ =>
    rw [List.getLast?_concat, List.dropLast_concat, List.length_append, List.length_singleton, Nat.add_sub_cancel]
    simp only
    split
    · next hshort =>
      have hcopy : copyInto zeroSector last 0 = last ++ List.replicate (SECTOR_SIZE - last.length) 0 := by
        rw [copyInto, zeroSector, List.length_replicate, List.take_zero, List.nil_append, Nat.sub_zero, Nat.zero_add,
          List.take_of_length_le (Nat.le_of_lt hshort), List.drop_replicate]
      rw [hcopy, List.set_append_right _ _ (Nat.le_refl _), Nat.sub_self]
      rfl
    · rfl

/-- Sectors are added until there are ten. -/
theorem fillUp_eq : fillUp sectors = addDummies sectors := by
  induction hleft : 10 - sectors.length generalizing sectors with
  | zero =>
    rw [fillUp, if_neg (by omega), addDummies, hleft, List.replicate_zero, List.append_nil]
  | succ n ih =>
    have hlength : (sectors ++ [zeroSector]).length = sectors.length + 1 := List.length_append
    rw [fillUp, if_pos (by omega), ih (by omega), addDummies, addDummies, hleft, hlength, List.replicate_succ,
      List.append_assoc, List.singleton_append]
    congr 3
    omega

/-- **The loops make the sectors of the model.** -/
theorem sectorsOf_eq (data : Bytes) : sectorsOf data = buildSectors data := by
  rw [sectorsOf, fillUp_eq, padLastSector_eq, sliceFrom_zero]
  rfl

end Loops

/-! ## What the sectors hold -/

section Sectors

variable {data : Bytes} {sectors : List Bytes}

theorem flatten_splitSectors : (splitSectors data).flatten = data := by
  have hblocks := flatten_blocks SECTOR_SIZE ((data.length + (SECTOR_SIZE - 1)) / SECTOR_SIZE) data
  rw [List.take_of_length_le] at hblocks
  · exact hblocks
  · unfold SECTOR_SIZE
    omega

theorem length_padLast : (padLast sectors).length = sectors.length := by
  unfold padLast
  induction sectors using List.reverseRecOn with
  | nil => rfl
  | append_singleton before last _ =>
    rw [List.getLast?_concat, List.dropLast_concat]
    simp only
    split <;> simp

/-- Padding adds zeros at the end. -/
theorem flatten_padLast : ∃ k, (padLast sectors).flatten = sectors.flatten ++ List.replicate k 0 := by
  unfold padLast
  induction sectors using List.reverseRecOn with
  | nil => exact ⟨0, rfl⟩
  | append_singleton before last _ =>
    rw [List.getLast?_concat, List.dropLast_concat]
    simp only
    split
    · exact ⟨SECTOR_SIZE - last.length, by simp⟩
    · exact ⟨0, by simp⟩

theorem flatten_addDummies :
    (addDummies sectors).flatten = sectors.flatten ++ List.replicate ((10 - sectors.length) * SECTOR_SIZE) 0 := by
  rw [addDummies, List.flatten_append, zeroSector, List.flatten_replicate_replicate]

theorem flatten_buildSectors : ∃ k, (buildSectors data).flatten = data ++ List.replicate k 0 := by
  obtain ⟨k, hk⟩ := @flatten_padLast (splitSectors data)
  refine ⟨k + (10 - (padLast (splitSectors data)).length) * SECTOR_SIZE, ?_⟩
  rw [buildSectors, flatten_addDummies, hk, flatten_splitSectors, List.append_assoc, List.replicate_append_replicate]

theorem length_buildSectors : (buildSectors data).length = max 10 (data.length ⌈/⌉ SECTOR_SIZE) := by
  rw [buildSectors, addDummies, List.length_append, List.length_replicate, length_padLast, length_splitSectors]
  omega

/-- The byte `i` of the shard is in the sector `i / SECTOR_SIZE`. -/
theorem getElem?_buildSectors {i : Nat} (h : i < data.length) :
    ((buildSectors data)[i / SECTOR_SIZE]?).bind (fun sector => sector[i % SECTOR_SIZE]?) = data[i]? := by
  obtain ⟨k, hk⟩ := @flatten_buildSectors data
  rw [← getElem?_flatten (by decide) fun _ => length_of_mem_buildSectors, hk, List.getElem?_append_left h]

/-- **The sector split.** The sectors that are stored, and hashed into the leaves, are whole, as many as there have to
be, and hold the shard followed by zeros; any index modulo their number selects one of them. -/
theorem buildMerkleTree_sectors (newMerkleTree : List Bytes32 → MerkleTree) (data : Bytes) :
    ∃ sectors, buildMerkleTree newMerkleTree data = ⟨newMerkleTree (sectors.map keccak256), sectors⟩ ∧
      sectors = sectorsOf data ∧ (∀ sector ∈ sectors, sector.length = SECTOR_SIZE) ∧
      sectors.length = max 10 (data.length ⌈/⌉ SECTOR_SIZE) ∧
      (∃ k, sectors.flatten = data ++ List.replicate k 0) ∧
      (∀ index, ∃ sector ∈ sectors, challengedSector sectors (.number index) = .ok sector) ∧
      ∀ i, i < data.length →
        ∃ sector, sectors[i / SECTOR_SIZE]? = some sector ∧ sector[i % SECTOR_SIZE]? = data[i]? := by
  refine ⟨buildSectors data, rfl, (sectorsOf_eq data).symm, fun _ => length_of_mem_buildSectors, length_buildSectors,
    flatten_buildSectors, ?_, ?_⟩
  · intro index
    have hten := ten_le_length_buildSectors data
    exact ⟨_, List.get_mem _ _, challengedSector_number (by omega) index⟩
  · intro i hi
    have hbyte := getElem?_buildSectors hi
    rw [List.getElem?_eq_getElem hi] at hbyte ⊢
    exact Option.bind_eq_some_iff.mp hbyte

end Sectors

end ProviderDaemon

end Kyneto
