import Kyneto.Evm.Keccak
import Kyneto.Coding.ReedSolomon

/-!
# `ShardManager`: operations

Erasure coding of files. A file is cut into ten data shards, padded with zeros at the end, and a Reed–Solomon
module computes five parity shards. Any ten of the fifteen shards give the data shards back, and with them
all others.

The module is a library of its own, and IPFS is a service. Both are parameters here: the module with what its
documentation promises (`SystematicMds`), IPFS with what is stored in it. There is a module that keeps the
promise (`galoisErasure`).
-/

namespace Kyneto

open Evm Coding

def DATA_SHARDS : Nat := 10

def PARITY_SHARDS : Nat := 5

def TOTAL_SHARDS : Nat := 15

/-- A Reed–Solomon module. Both functions work on a buffer in place: they return a result code, 0 for
success, and what the buffer holds afterwards. -/
structure ReedSolomonErasure where
  encode : Bytes → Nat → Nat → Nat × Bytes
  reconstruct : Bytes → Nat → Nat → List Bool → Nat × Bytes

/-- What the module promises: it encodes every buffer of non-empty shards, leaving the data shards as they
are, and it restores a codeword from any shards of it, if they are at least as many as the data shards. -/
structure SystematicMds (rs : ReedSolomonErasure) (dataShards parityShards : Nat) : Prop where
  encode_ok : ∀ size buf, 0 < size → buf.length = (dataShards + parityShards) * size →
    (rs.encode buf dataShards parityShards).1 = 0
  encode_length : ∀ size buf, buf.length = (dataShards + parityShards) * size →
    (rs.encode buf dataShards parityShards).1 = 0 →
      (rs.encode buf dataShards parityShards).2.length = buf.length
  encode_data : ∀ size buf, buf.length = (dataShards + parityShards) * size →
    (rs.encode buf dataShards parityShards).1 = 0 →
      ∀ i < dataShards, block size i (rs.encode buf dataShards parityShards).2 = block size i buf
  reconstruct : ∀ size buf damaged available, buf.length = (dataShards + parityShards) * size →
    (rs.encode buf dataShards parityShards).1 = 0 → damaged.length = buf.length →
    available.length = dataShards + parityShards → dataShards ≤ available.count true →
    (∀ i, available[i]? = some true →
      block size i damaged = block size i (rs.encode buf dataShards parityShards).2) →
    rs.reconstruct damaged dataShards parityShards available =
      (0, (rs.encode buf dataShards parityShards).2)

/-- What an IPFS node does with contents and their identifiers. -/
structure Ipfs (Cid : Type) where
  cat : Cid → Except String Bytes
  add : Bytes → Except String Cid

/-! ## Operations -/

section Operations

variable {Cid : Type} (rs : ReedSolomonErasure) (ipfs : Ipfs Cid)

/-- `Math.ceil(length / DATA_SHARDS)`. -/
def shardSizeOf (length : Nat) : Nat := (length + (DATA_SHARDS - 1)) / DATA_SHARDS

def applyErasureCoding (data : Bytes) : Except String (List Bytes) :=
  let shardSize := shardSizeOf data.length
  -- the parity shards, and what is missing of the last data shards, are zero
  let contiguousBuffer := copyInto (List.replicate (shardSize * TOTAL_SHARDS) 0) data 0
  let (result, contiguousBuffer) := rs.encode contiguousBuffer DATA_SHARDS PARITY_SHARDS
  if result ≠ 0 then
    throw ("Reed-Solomon encoding failed with error code: " ++ toString result)
  else
    return (List.range TOTAL_SHARDS).map fun i => block shardSize i contiguousBuffer

/-- The shards are a sparse array: those that are missing are `none`. -/
def reconstructFromShards (shards : Nat → Option Bytes) (availableIndices : List Nat) :
    Except String Bytes :=
  if (availableIndices.filter (· < DATA_SHARDS)).length = DATA_SHARDS then
    return ((List.range DATA_SHARDS).filterMap shards).flatten
  else
    match availableIndices.head?.bind shards with
    | none => throw "Cannot read properties of undefined (reading 'length')"
    | some first =>
      let shardSize := first.length
      let contiguousBuffer := fill shardSize shards (List.replicate (shardSize * TOTAL_SHARDS) 0)
        (List.range TOTAL_SHARDS)
      let shardsAvailable := (List.range TOTAL_SHARDS).map fun i => (shards i).isSome
      let (result, contiguousBuffer) :=
        rs.reconstruct contiguousBuffer DATA_SHARDS PARITY_SHARDS shardsAvailable
      if result ≠ 0 then
        throw ("Reed-Solomon reconstruction failed with error code: " ++ toString result)
      else
        return ((List.range DATA_SHARDS).map fun i => block shardSize i contiguousBuffer).flatten

/-- Fetch contents into their places. A content without a place is fetched all the same. -/
def download (shards : Nat → Option Bytes) : List (Cid × Option Nat) → Except String (Nat → Option Bytes)
  | [] => return shards
  | (cid, place) :: rest => do
    let content ← ipfs.cat cid
    match place with
    | some i => download (Function.update shards i (some content)) rest
    | none => download shards rest

def reconstructFile (shardCIDs : List Cid) (shardIndices : List Nat) : Except String Cid :=
  if shardCIDs.length < DATA_SHARDS then
    throw ("Insufficient shards: need at least " ++ toString DATA_SHARDS ++ ", have " ++
      toString shardCIDs.length)
  else do
    let shards ← download ipfs (fun _ => none) (shardCIDs.mapIdx fun i cid => (cid, shardIndices[i]?))
    let reconstructedData ← reconstructFromShards rs shards shardIndices
    ipfs.add reconstructedData

/-- Past the last shard there is nothing to return. -/
def reconstructShard (availableShards : List (Cid × Nat)) (targetShardIndex : Nat) :
    Except String (Option Bytes) :=
  if availableShards.length < DATA_SHARDS then
    throw ("Need at least " ++ toString DATA_SHARDS ++ " shards to reconstruct")
  else do
    let shards ← download ipfs (fun _ => none) (availableShards.map fun shard => (shard.1, some shard.2))
    let reconstructedData ← reconstructFromShards rs shards (availableShards.map Prod.snd)
    let allShards ← applyErasureCoding rs reconstructedData
    return allShards[targetShardIndex]?

end Operations

/-! ## A Reed–Solomon module

Over the field with 256 elements. The point of shard `i` is the field element of byte `i`. -/

section Galois

variable {dataShards parityShards size : Nat}

/-- Bytes as elements of the field. -/
noncomputable def byteCode : BitVec 8 ≃ GaloisField 2 8 :=
  BitVec.equivFin.toEquiv.trans (Finite.equivFinOfCardEq (GaloisField.card 2 8 (by decide))).symm

noncomputable def shardPoint (i : Nat) : GaloisField 2 8 := byteCode (BitVec.ofNat 8 i)

/-- The shards that are marked as available. -/
def availableShards (available : List Bool) : Finset Nat :=
  (Finset.range available.length).filter fun i => available[i]? = some true

noncomputable def galoisErasure : ReedSolomonErasure where
  encode buf dataShards parityShards :=
    let total := dataShards + parityShards
    if 0 < buf.length ∧ total ∣ buf.length ∧ total ≤ 256 then
      (0, extendBuffer byteCode shardPoint (Finset.range dataShards) (buf.length / total) total buf)
    else (1, buf)
  reconstruct buf dataShards parityShards available :=
    let total := dataShards + parityShards
    if 0 < buf.length ∧ total ∣ buf.length ∧ total ≤ 256 ∧ available.length = total ∧
        dataShards ≤ (availableShards available).card then
      (0, extendBuffer byteCode shardPoint (availableShards available) (buf.length / total) total buf)
    else (1, buf)

theorem shardPoint_injOn {known : Finset Nat} (h : ∀ i ∈ known, i < 256) :
    Set.InjOn shardPoint known := by
  intro i hi j hj heq
  have hbytes : BitVec.ofNat 8 i = BitVec.ofNat 8 j := byteCode.injective heq
  have hi' := h i hi
  have hj' := h j hj
  have hnat := congrArg BitVec.toNat hbytes
  rwa [BitVec.toNat_ofNat, BitVec.toNat_ofNat, Nat.mod_eq_of_lt hi', Nat.mod_eq_of_lt hj'] at hnat

/-- The set has as many elements as there are marks. -/
theorem card_availableShards (available : List Bool) :
    (availableShards available).card = available.count true := by
  induction available using List.reverseRecOn with
  | nil => rfl
  | append_singleton available flag ih =>
    have hold : (Finset.range available.length).filter
        (fun i => (available ++ [flag])[i]? = some true) = availableShards available := by
      apply Finset.filter_congr
      intro i hi
      rw [List.getElem?_append_left (Finset.mem_range.mp hi)]
    rw [availableShards, List.length_append, List.length_singleton, Finset.range_add_one,
      Finset.filter_insert, hold, List.count_append, ← ih]
    cases flag with
    | false => simp
    | true => simp [availableShards]

/-- The buffers of an encoding. -/
theorem galoisErasure_encode (hpos : 0 < size) (htotal : 0 < dataShards + parityShards)
    (hle : dataShards + parityShards ≤ 256) {buf : Bytes}
    (hlen : buf.length = (dataShards + parityShards) * size) :
    galoisErasure.encode buf dataShards parityShards =
      (0, extendBuffer byteCode shardPoint (Finset.range dataShards) size (dataShards + parityShards)
        buf) := by
  have hbuf : 0 < buf.length := by
    rw [hlen]
    exact Nat.mul_pos htotal hpos
  have hdiv : buf.length / (dataShards + parityShards) = size := by
    rw [hlen, Nat.mul_div_cancel_left _ htotal]
  show (if 0 < buf.length ∧ dataShards + parityShards ∣ buf.length ∧ dataShards + parityShards ≤ 256 then
    _ else _) = _
  rw [if_pos ⟨hbuf, hlen ▸ Nat.dvd_mul_right _ _, hle⟩, hdiv]

/-- **The module keeps its promise.** -/
theorem galoisErasure_systematicMds (htotal : 0 < dataShards + parityShards)
    (hle : dataShards + parityShards ≤ 256) :
    SystematicMds galoisErasure dataShards parityShards := by
  have hdata : Set.InjOn shardPoint (Finset.range dataShards) :=
    shardPoint_injOn fun i hi => by
      have := Finset.mem_range.mp hi
      omega
  have hnonempty : ∀ size buf, buf.length = (dataShards + parityShards) * size →
      (galoisErasure.encode buf dataShards parityShards).1 = 0 → 0 < size := by
    intro size buf hlen hok
    by_contra hzero
    obtain rfl : size = 0 := by omega
    rw [Nat.mul_zero] at hlen
    simp [galoisErasure, hlen] at hok
  constructor
  · intro size buf hpos hlen
    rw [galoisErasure_encode hpos htotal hle hlen]
  · intro size buf hlen hok
    rw [galoisErasure_encode (hnonempty size buf hlen hok) htotal hle hlen]
    rw [length_extendBuffer, hlen]
  · intro size buf hlen hok i hi
    rw [galoisErasure_encode (hnonempty size buf hlen hok) htotal hle hlen]
    exact block_extendBuffer hlen hdata (by omega) (Finset.mem_range.mpr hi)
  · intro size buf damaged available hlen hok hdamaged havailable henough hsame
    have hpos := hnonempty size buf hlen hok
    rw [galoisErasure_encode hpos htotal hle hlen] at hsame ⊢
    rw [← card_availableShards] at henough
    rw [hlen] at hdamaged
    have hbuf : 0 < damaged.length := by
      rw [hdamaged]
      exact Nat.mul_pos htotal hpos
    have hdiv : damaged.length / (dataShards + parityShards) = size := by
      rw [hdamaged, Nat.mul_div_cancel_left _ htotal]
    have hmem : ∀ i ∈ availableShards available,
        i < dataShards + parityShards ∧ available[i]? = some true := by
      intro i hi
      obtain ⟨hlt, hflag⟩ := Finset.mem_filter.mp hi
      exact ⟨havailable ▸ Finset.mem_range.mp hlt, hflag⟩
    show (if 0 < damaged.length ∧ dataShards + parityShards ∣ damaged.length ∧
      dataShards + parityShards ≤ 256 ∧ available.length = dataShards + parityShards ∧
      dataShards ≤ (availableShards available).card then _ else _) = _
    rw [if_pos ⟨hbuf, hdamaged ▸ Nat.dvd_mul_right _ _, hle, havailable, henough⟩, hdiv]
    congr 1
    apply extendBuffer_extendBuffer hdamaged hdata
    · exact shardPoint_injOn fun i hi => by
        have := (hmem i hi).1
        omega
    · rwa [Finset.card_range]
    · exact fun i hi => (hmem i hi).1
    · exact fun i hi => hsame i (hmem i hi).2

end Galois

end Kyneto
