import Kyneto.ShardManager.Basic

/-!
# From a file to its shards and back

A file is padded before it is encoded, and nothing records how long it was. What comes back from the shards is
therefore the padded file (`reconstructFromShards_eq`), and this is the file only if ten divides its length
(`roundTrip_iff`).
-/

namespace Kyneto

open Evm Coding

/-- The half of the module's promise that is about encoding: the data shards are left as they are. -/
structure Systematic (rs : ReedSolomonErasure) (dataShards parityShards : Nat) : Prop where
  encode_length : ∀ size buf, buf.length = (dataShards + parityShards) * size →
    (rs.encode buf dataShards parityShards).1 = 0 →
      (rs.encode buf dataShards parityShards).2.length = buf.length
  encode_data : ∀ size buf, buf.length = (dataShards + parityShards) * size →
    (rs.encode buf dataShards parityShards).1 = 0 →
      ∀ i < dataShards, block size i (rs.encode buf dataShards parityShards).2 = block size i buf

theorem SystematicMds.systematic {rs : ReedSolomonErasure} {dataShards parityShards : Nat}
    (h : SystematicMds rs dataShards parityShards) : Systematic rs dataShards parityShards :=
  ⟨h.encode_length, h.encode_data⟩

/-! ## Encoding -/

/-- A file with zeros at the end, as long as its data shards. -/
def padded (data : Bytes) : Bytes :=
  data ++ List.replicate (shardSizeOf data.length * DATA_SHARDS - data.length) 0

/-- The buffer a file is encoded in. -/
def codeBuffer (data : Bytes) : Bytes :=
  copyInto (List.replicate (shardSizeOf data.length * TOTAL_SHARDS) 0) data 0

/-- The shards a codeword consists of. -/
def shardsOf (size : Nat) (code : Bytes) : List Bytes :=
  (List.range TOTAL_SHARDS).map fun i => block size i code

section Encoding

variable {rs : ReedSolomonErasure} {data : Bytes} {shards : List Bytes} {length size i : Nat}

theorem length_le_shardSizeOf : length ≤ shardSizeOf length * DATA_SHARDS := by
  unfold shardSizeOf DATA_SHARDS
  omega

theorem shardSizeOf_mul : shardSizeOf (size * DATA_SHARDS) = size := by
  unfold shardSizeOf DATA_SHARDS
  omega

theorem shardSizeOf_pos (h : 0 < length) : 0 < shardSizeOf length := by
  unfold shardSizeOf DATA_SHARDS
  omega

/-- Nothing is padded exactly if the shards divide the file evenly. -/
theorem shardSizeOf_mul_eq_iff : shardSizeOf length * DATA_SHARDS = length ↔ DATA_SHARDS ∣ length := by
  unfold shardSizeOf DATA_SHARDS
  omega

theorem length_padded : (padded data).length = shardSizeOf data.length * DATA_SHARDS := by
  have hle := @length_le_shardSizeOf data.length
  rw [padded, List.length_append, List.length_replicate]
  omega

theorem padded_eq_iff : padded data = data ↔ DATA_SHARDS ∣ data.length := by
  rw [← shardSizeOf_mul_eq_iff]
  constructor
  · intro h
    rw [← length_padded, h]
  · intro h
    rw [padded, h, Nat.sub_self, List.replicate_zero, List.append_nil]

theorem shardSizeOf_padded : shardSizeOf (padded data).length = shardSizeOf data.length := by
  rw [length_padded, shardSizeOf_mul]

/-- The buffer is the padded file, and zeros where the parity will be. -/
theorem codeBuffer_eq :
    codeBuffer data = padded data ++ List.replicate (shardSizeOf data.length * PARITY_SHARDS) 0 := by
  have hle := @length_le_shardSizeOf data.length
  have htotal : shardSizeOf data.length * TOTAL_SHARDS - data.length =
      (shardSizeOf data.length * DATA_SHARDS - data.length) +
        shardSizeOf data.length * PARITY_SHARDS := by
    unfold TOTAL_SHARDS DATA_SHARDS PARITY_SHARDS at *
    omega
  have hfits : data.length ≤ shardSizeOf data.length * TOTAL_SHARDS := by
    unfold TOTAL_SHARDS DATA_SHARDS at *
    omega
  have htake : data.take (shardSizeOf data.length * TOTAL_SHARDS) = data :=
    List.take_of_length_le hfits
  rw [padded, List.append_assoc, List.replicate_append_replicate, ← htotal]
  simp [codeBuffer, copyInto, htake]

theorem length_codeBuffer :
    (codeBuffer data).length = (DATA_SHARDS + PARITY_SHARDS) * shardSizeOf data.length := by
  rw [codeBuffer_eq, List.length_append, length_padded, List.length_replicate]
  unfold DATA_SHARDS PARITY_SHARDS
  omega

/-- Padding a file does not change the buffer it is encoded in. -/
theorem codeBuffer_padded : codeBuffer (padded data) = codeBuffer data := by
  have hagain : padded (padded data) = padded data := by
    rw [padded_eq_iff, length_padded]
    exact Nat.dvd_mul_left _ _
  rw [codeBuffer_eq, codeBuffer_eq, hagain, shardSizeOf_padded]

/-- The coding goes through if the library reports no error, and cuts the buffer into shards. -/
theorem applyErasureCoding_eq_ok :
    applyErasureCoding rs data = .ok shards ↔
      (rs.encode (codeBuffer data) DATA_SHARDS PARITY_SHARDS).1 = 0 ∧
        shards = shardsOf (shardSizeOf data.length)
          (rs.encode (codeBuffer data) DATA_SHARDS PARITY_SHARDS).2 := by
  show (if (rs.encode (codeBuffer data) DATA_SHARDS PARITY_SHARDS).1 ≠ 0 then
      throw _ else pure (shardsOf (shardSizeOf data.length)
        (rs.encode (codeBuffer data) DATA_SHARDS PARITY_SHARDS).2)) = Except.ok shards ↔ _
  split
  · next hfailed =>
    constructor
    · intro h
      cases h
    · intro h
      exact absurd h.1 hfailed
  · next hok =>
    rw [pure_eq_ok]
    constructor
    · intro h
      exact ⟨not_not.mp hok, h⟩
    · intro h
      exact h.2

theorem length_shardsOf {code : Bytes} : (shardsOf size code).length = TOTAL_SHARDS := by
  simp [shardsOf]

theorem getElem?_shardsOf {code : Bytes} (h : i < TOTAL_SHARDS) :
    (shardsOf size code)[i]? = some (block size i code) := by
  simp [shardsOf, List.getElem?_range h]

end Encoding

/-! ## Reconstruction -/

/-- The sparse array that holds the shards with the given indices. -/
def slotsOf (shards : List Bytes) (indices : List Nat) (i : Nat) : Option Bytes :=
  if i ∈ indices then shards[i]? else none

/-- Every shard is one of the file's, and IPFS has its content. -/
def Fetchable {Cid : Type} (ipfs : Ipfs Cid) (shards : List Bytes) (available : List (Cid × Nat)) : Prop :=
  ∀ shard ∈ available, ∃ content, shards[shard.2]? = some content ∧ ipfs.cat shard.1 = .ok content

/-- Enough different shards, with their contents at hand. -/
structure Available {Cid : Type} (ipfs : Ipfs Cid) (shards : List Bytes) (available : List (Cid × Nat)) :
    Prop where
  distinct : (available.map Prod.snd).Nodup
  enough : DATA_SHARDS ≤ available.length
  contents : ∀ shard ∈ available, ∃ content, shards[shard.2]? = some content ∧
    ipfs.cat shard.1 = .ok content

section Reconstruction

variable {Cid : Type} {rs : ReedSolomonErasure} {ipfs : Ipfs Cid} {data code : Bytes} {shards : List Bytes}
  {indices : List Nat} {size i : Nat}

/-- All data shards are among the available ones if ten of these are data shards. -/
theorem mem_of_data_shards (hnodup : indices.Nodup)
    (hcount : (indices.filter (· < DATA_SHARDS)).length = DATA_SHARDS) (hi : i < DATA_SHARDS) :
    i ∈ indices := by
  have hsub : (indices.filter (· < DATA_SHARDS)).toFinset ⊆ Finset.range DATA_SHARDS := by
    intro j hj
    simpa using (List.mem_filter.mp (List.mem_toFinset.mp hj)).2
  have hcard : (Finset.range DATA_SHARDS).card ≤ (indices.filter (· < DATA_SHARDS)).toFinset.card := by
    rw [List.toFinset_card_of_nodup (hnodup.filter _), hcount, Finset.card_range]
  have hall := Finset.eq_of_subset_of_card_le hsub hcard
  have hmem : i ∈ (indices.filter (· < DATA_SHARDS)).toFinset := by
    rw [hall]
    exact Finset.mem_range.mpr hi
  exact (List.mem_filter.mp (List.mem_toFinset.mp hmem)).1

/-- The flags of the available shards, counted. A shard that is listed twice has one flag. -/
theorem count_available (hlt : ∀ i ∈ indices, i < TOTAL_SHARDS) :
    ((List.range TOTAL_SHARDS).map fun i => (slotsOf (shardsOf size code) indices i).isSome).count true =
      indices.dedup.length := by
  have hflag : ∀ i ∈ List.range TOTAL_SHARDS,
      ((slotsOf (shardsOf size code) indices i).isSome == true) = decide (i ∈ indices) := by
    intro i hi
    rw [slotsOf, getElem?_shardsOf (List.mem_range.mp hi)]
    by_cases hmem : i ∈ indices <;> simp [hmem]
  have hsame : ((List.range TOTAL_SHARDS).filter fun i => decide (i ∈ indices)).Perm indices.dedup := by
    rw [List.perm_ext_iff_of_nodup (List.nodup_range.filter _) (List.nodup_dedup indices)]
    intro i
    simp only [List.mem_filter, List.mem_range, decide_eq_true_eq, List.mem_dedup]
    exact ⟨fun h => h.2, fun h => ⟨hlt i h, h⟩⟩
  rw [List.count, List.countP_map, ← hsame.length_eq, List.countP_eq_length_filter]
  congr 1
  apply List.filter_congr
  exact hflag

/-- A systematic code leaves the padded file in its data shards. -/
theorem block_encode (hrs : Systematic rs DATA_SHARDS PARITY_SHARDS)
    (hok : (rs.encode (codeBuffer data) DATA_SHARDS PARITY_SHARDS).1 = 0) (hi : i < DATA_SHARDS) :
    block (shardSizeOf data.length) i (rs.encode (codeBuffer data) DATA_SHARDS PARITY_SHARDS).2 =
      block (shardSizeOf data.length) i (padded data) := by
  have hlen := @length_padded data
  rw [Nat.mul_comm] at hlen
  rw [hrs.encode_data _ _ length_codeBuffer hok i hi, codeBuffer_eq, block_append_left hlen hi]

/-- Joined together, the data shards are the padded file. -/
theorem flatten_data_shards (hrs : Systematic rs DATA_SHARDS PARITY_SHARDS)
    (hok : (rs.encode (codeBuffer data) DATA_SHARDS PARITY_SHARDS).1 = 0) :
    ((List.range DATA_SHARDS).map fun i => block (shardSizeOf data.length) i
      (rs.encode (codeBuffer data) DATA_SHARDS PARITY_SHARDS).2).flatten = padded data := by
  have hlen := @length_padded data
  rw [Nat.mul_comm] at hlen
  calc _ = ((List.range DATA_SHARDS).map fun i =>
          block (shardSizeOf data.length) i (padded data)).flatten := by
        congr 1
        apply List.map_congr_left
        intro i hi
        exact block_encode hrs hok (List.mem_range.mp hi)
    _ = (padded data).take (DATA_SHARDS * shardSizeOf data.length) := flatten_blocks _ _ _
    _ = padded data := List.take_of_length_le hlen.le

/-- The slots of the available shards. -/
theorem slotsOf_of_mem (hi : i ∈ indices) (hlt : i < TOTAL_SHARDS) :
    slotsOf (shardsOf size code) indices i = some (block size i code) := by
  rw [slotsOf, if_pos hi, getElem?_shardsOf hlt]

/-- The data shards at hand, in their order. -/
theorem filterMap_slotsOf :
    (List.range DATA_SHARDS).filterMap (slotsOf (shardsOf size code) indices) =
      ((List.range DATA_SHARDS).filter (· ∈ indices)).map fun i => block size i code := by
  rw [← List.filterMap_eq_map, List.filterMap_filter]
  apply List.filterMap_congr
  intro i hi
  rw [List.mem_range] at hi
  by_cases hmem : i ∈ indices
  · rw [slotsOf_of_mem hmem (by unfold DATA_SHARDS TOTAL_SHARDS at *; omega)]
    simp [hmem]
  · simp [slotsOf, hmem]

/-- All data shards are at hand. -/
theorem filter_data_shards (h : ∀ i < DATA_SHARDS, i ∈ indices) :
    (List.range DATA_SHARDS).filter (· ∈ indices) = List.range DATA_SHARDS := by
  rw [List.filter_eq_self]
  intro i hi
  exact decide_eq_true (h i (List.mem_range.mp hi))

/-- The empty buffer that the available shards are copied into. -/
theorem length_zeros : (List.replicate (size * TOTAL_SHARDS) (0 : BitVec 8)).length = TOTAL_SHARDS * size := by
  rw [List.length_replicate, Nat.mul_comm]

/-- A shard at hand is as long as all others. -/
theorem length_slotsOf (hlen : code.length = TOTAL_SHARDS * size) (hlt : ∀ i ∈ indices, i < TOTAL_SHARDS)
    {src : Bytes} (hsrc : slotsOf (shardsOf size code) indices i = some src) : src.length = size := by
  have hmem : i ∈ indices := by
    by_contra hnot
    rw [slotsOf, if_neg hnot] at hsrc
    cases hsrc
  rw [slotsOf_of_mem hmem (hlt i hmem), Option.some.injEq] at hsrc
  rw [← hsrc, length_block hlen (hlt i hmem)]

/-- Otherwise the available shards are a damaged codeword, which the module restores. -/
theorem reconstruct_slots (hrs : SystematicMds rs DATA_SHARDS PARITY_SHARDS)
    (hok : (rs.encode (codeBuffer data) DATA_SHARDS PARITY_SHARDS).1 = 0)
    (hcode : code = (rs.encode (codeBuffer data) DATA_SHARDS PARITY_SHARDS).2)
    (hsize : size = shardSizeOf data.length) (henough : DATA_SHARDS ≤ indices.dedup.length)
    (hlt : ∀ i ∈ indices, i < TOTAL_SHARDS) :
    rs.reconstruct
      (fill size (slotsOf (shardsOf size code) indices) (List.replicate (size * TOTAL_SHARDS) 0)
        (List.range TOTAL_SHARDS)) DATA_SHARDS PARITY_SHARDS
      ((List.range TOTAL_SHARDS).map fun i => (slotsOf (shardsOf size code) indices i).isSome) =
    (0, code) := by
  have hlen : code.length = TOTAL_SHARDS * size := by
    rw [hcode, hrs.encode_length _ _ length_codeBuffer hok, length_codeBuffer, hsize]
    rfl
  have hrange : ∀ i ∈ List.range TOTAL_SHARDS, i < TOTAL_SHARDS := fun i hi => List.mem_range.mp hi
  have hsizes : ∀ i ∈ List.range TOTAL_SHARDS, ∀ src,
      slotsOf (shardsOf size code) indices i = some src → src.length = size :=
    fun i _ src hsrc => length_slotsOf hlen hlt hsrc
  subst hcode
  apply hrs.reconstruct size (codeBuffer data)
  · rw [length_codeBuffer, hsize]
  · exact hok
  · rw [length_fill length_zeros hrange hsizes, length_codeBuffer, hsize]
    rfl
  · simp [TOTAL_SHARDS, DATA_SHARDS, PARITY_SHARDS]
  · rw [count_available hlt]
    exact henough
  · -- an available shard is in its place
    intro i hi
    have hi' : i < TOTAL_SHARDS := by
      have := (List.getElem?_eq_some_iff.mp hi).1
      simpa using this
    have hmem : i ∈ indices := by
      by_contra hnot
      simp [List.getElem?_range hi', slotsOf, hnot] at hi
    rw [block_fill List.nodup_range length_zeros hrange hsizes, if_pos (List.mem_range.mpr hi'),
      slotsOf_of_mem hmem hi']
    rfl

/-- Unless ten of the indices are of data shards, the module is asked, and given enough different shards it
restores the padded file. -/
theorem reconstructFromShards_slow (hrs : SystematicMds rs DATA_SHARDS PARITY_SHARDS)
    (happly : applyErasureCoding rs data = .ok shards)
    (hmissing : (indices.filter (· < DATA_SHARDS)).length ≠ DATA_SHARDS)
    (henough : DATA_SHARDS ≤ indices.dedup.length) (hlt : ∀ i ∈ indices, i < TOTAL_SHARDS) :
    reconstructFromShards rs (slotsOf shards indices) indices = .ok (padded data) := by
  obtain ⟨hok, rfl⟩ := applyErasureCoding_eq_ok.mp happly
  obtain ⟨first, hfirst⟩ : ∃ first, indices.head? = some first := by
    cases indices with
    | nil => exact absurd henough (by decide)
    | cons first rest => exact ⟨first, rfl⟩
  have hmem : first ∈ indices := List.mem_of_head? hfirst
  have hlen := hrs.encode_length _ _ length_codeBuffer hok
  rw [length_codeBuffer] at hlen
  have hsize := length_block hlen (hlt first hmem)
  rw [reconstructFromShards, if_neg hmissing, hfirst, Option.bind_some, slotsOf_of_mem hmem (hlt first hmem)]
  simp only [hsize, reconstruct_slots hrs hok rfl rfl henough hlt, flatten_data_shards hrs.systematic hok]
  rfl

/-- **Whichever shards are available, what they give back is the padded file.** -/
theorem reconstructFromShards_eq (hrs : SystematicMds rs DATA_SHARDS PARITY_SHARDS)
    (happly : applyErasureCoding rs data = .ok shards) (hnodup : indices.Nodup)
    (henough : DATA_SHARDS ≤ indices.length) (hlt : ∀ i ∈ indices, i < TOTAL_SHARDS) :
    reconstructFromShards rs (slotsOf shards indices) indices = .ok (padded data) := by
  by_cases hall : (indices.filter (· < DATA_SHARDS)).length = DATA_SHARDS
  · obtain ⟨hok, rfl⟩ := applyErasureCoding_eq_ok.mp happly
    have hmem : ∀ i < DATA_SHARDS, i ∈ indices := fun i hi => mem_of_data_shards hnodup hall hi
    rw [reconstructFromShards, if_pos hall, filterMap_slotsOf, filter_data_shards hmem,
      flatten_data_shards hrs.systematic hok]
    rfl
  · rw [← hnodup.dedup] at henough
    exact reconstructFromShards_slow hrs happly hall henough hlt

/-! ## Files -/

/-- Contents are fetched into the places they belong to. -/
theorem download_contents (content : Nat → Bytes) (slots : Nat → Option Bytes)
    {available : List (Cid × Nat)}
    (h : ∀ shard ∈ available, ipfs.cat shard.1 = .ok (content shard.2)) :
    download ipfs slots (available.map fun shard => (shard.1, some shard.2)) =
      .ok fun i => if i ∈ available.map Prod.snd then some (content i) else slots i := by
  induction available generalizing slots with
  | nil => simp [download, pure, Except.pure]
  | cons shard rest ih =>
    have hfirst := h shard List.mem_cons_self
    have hrest : ∀ shard ∈ rest, ipfs.cat shard.1 = .ok (content shard.2) :=
      fun shard hmem => h shard (List.mem_cons_of_mem _ hmem)
    rw [List.map_cons, download, hfirst]
    show download ipfs (Function.update slots shard.2 (some (content shard.2))) _ = _
    rw [ih _ hrest]
    congr 1
    funext i
    rcases eq_or_ne i shard.2 with rfl | hne
    · simp
    · rw [Function.update_of_ne hne, List.map_cons]
      simp only [List.mem_cons, hne, false_or]

theorem Fetchable.lt {available : List (Cid × Nat)} (h : Fetchable ipfs (shardsOf size code) available) :
    ∀ i ∈ available.map Prod.snd, i < TOTAL_SHARDS := by
  intro i hi
  obtain ⟨shard, hshard, rfl⟩ := List.mem_map.mp hi
  obtain ⟨content, hcontent, -⟩ := h shard hshard
  have := (List.getElem?_eq_some_iff.mp hcontent).1
  rwa [length_shardsOf] at this

/-- What is downloaded are the available shards. -/
theorem Fetchable.download_eq {available : List (Cid × Nat)}
    (h : Fetchable ipfs (shardsOf size code) available) :
    download ipfs (fun _ => none) (available.map fun shard => (shard.1, some shard.2)) =
      .ok (slotsOf (shardsOf size code) (available.map Prod.snd)) := by
  have hcontent : ∀ shard ∈ available, ipfs.cat shard.1 = .ok (block size shard.2 code) := by
    intro shard hshard
    obtain ⟨content, hcontent, hcat⟩ := h shard hshard
    rw [getElem?_shardsOf (h.lt _ (List.mem_map_of_mem hshard)), Option.some.injEq] at hcontent
    rw [hcat, hcontent]
  rw [download_contents (fun i => block size i code) _ hcontent]
  congr 1
  funext i
  by_cases hi : i ∈ available.map Prod.snd
  · rw [if_pos hi, slotsOf_of_mem hi (h.lt i hi)]
  · rw [if_neg hi, slotsOf, if_neg hi]

theorem Available.fetchable {available : List (Cid × Nat)} (h : Available ipfs shards available) :
    Fetchable ipfs shards available := h.contents

theorem places_eq (available : List (Cid × Nat)) :
    ((available.map Prod.fst).mapIdx fun i cid => (cid, (available.map Prod.snd)[i]?)) =
      available.map fun shard => (shard.1, some shard.2) := by
  apply List.ext_getElem?
  intro i
  rw [List.getElem?_mapIdx, List.getElem?_map, List.getElem?_map, List.getElem?_map]
  cases available[i]? <;> rfl

/-- What `reconstructFile` uploads is the padded file. -/
theorem reconstructFile_eq (hrs : SystematicMds rs DATA_SHARDS PARITY_SHARDS)
    (happly : applyErasureCoding rs data = .ok shards) {available : List (Cid × Nat)}
    (h : Available ipfs shards available) :
    reconstructFile rs ipfs (available.map Prod.fst) (available.map Prod.snd) =
      ipfs.add (padded data) := by
  have hfile := reconstructFromShards_eq hrs happly h.distinct
  obtain ⟨-, rfl⟩ := applyErasureCoding_eq_ok.mp happly
  have henough := h.enough
  rw [← List.length_map Prod.snd] at henough
  unfold reconstructFile
  rw [if_neg, places_eq, h.fetchable.download_eq]
  · show (do
      let reconstructedData ← reconstructFromShards rs _ _
      ipfs.add reconstructedData) = _
    rw [hfile henough h.fetchable.lt]
    rfl
  · rw [List.length_map, Nat.not_lt]
    exact h.enough

/-- The file comes back, from the shards and through IPFS. -/
structure RoundTrip (rs : ReedSolomonErasure) (ipfs : Ipfs Cid) (data : Bytes) (shards : List Bytes)
    (available : List (Cid × Nat)) : Prop where
  fromShards : reconstructFromShards rs (slotsOf shards (available.map Prod.snd))
    (available.map Prod.snd) = .ok data
  file : reconstructFile rs ipfs (available.map Prod.fst) (available.map Prod.snd) = ipfs.add data

theorem applyErasureCoding_succeeds (hrs : SystematicMds rs DATA_SHARDS PARITY_SHARDS)
    (hdata : data ≠ []) : ∃ shards, applyErasureCoding rs data = .ok shards := by
  have hpos := shardSizeOf_pos (List.length_pos_iff.mpr hdata)
  exact ⟨_, applyErasureCoding_eq_ok.mpr ⟨hrs.encode_ok _ _ hpos length_codeBuffer, rfl⟩⟩

/-- What comes back is the padded file, so that the file comes back exactly if it needs no padding. -/
theorem roundTrip_eq_iff (hrs : SystematicMds rs DATA_SHARDS PARITY_SHARDS)
    (happly : applyErasureCoding rs data = .ok shards) {available : List (Cid × Nat)}
    (h : Available ipfs shards available) :
    RoundTrip rs ipfs data shards available ↔ padded data = data := by
  have hfile := reconstructFile_eq hrs happly h
  have hshards := reconstructFromShards_eq hrs happly h.distinct
  have henough := h.enough
  rw [← List.length_map Prod.snd] at henough
  have hlt : ∀ i ∈ available.map Prod.snd, i < TOTAL_SHARDS := by
    obtain ⟨-, rfl⟩ := applyErasureCoding_eq_ok.mp happly
    exact h.fetchable.lt
  rw [show RoundTrip rs ipfs data shards available ↔ _ ∧ _ from
    ⟨fun h => ⟨h.1, h.2⟩, fun h => ⟨h.1, h.2⟩⟩, hfile, hshards henough hlt, Except.ok.injEq]
  constructor
  · exact fun h => h.1
  · intro heq
    rw [heq]
    exact ⟨rfl, rfl⟩

/-- **Every non-empty file can be encoded, and it comes back from any ten of its shards exactly if ten divides
its length.** -/
theorem roundTrip_iff (hrs : SystematicMds rs DATA_SHARDS PARITY_SHARDS) (ipfs : Ipfs Cid) (data : Bytes) :
    (data ≠ [] → ∃ shards, applyErasureCoding rs data = .ok shards) ∧
      ∀ shards, applyErasureCoding rs data = .ok shards →
        ∀ available, Available ipfs shards available →
          (RoundTrip rs ipfs data shards available ↔ DATA_SHARDS ∣ data.length) := by
  constructor
  · exact applyErasureCoding_succeeds hrs
  · intro shards happly available h
    rw [roundTrip_eq_iff hrs happly h, padded_eq_iff]

end Reconstruction

/-! ### Small files

In a store where every content is its own identifier. -/

namespace SmallFile

def ipfs : Ipfs Bytes where
  cat cid := .ok cid
  add content := .ok content

/-- The shards with the given indices. -/
def pick (shards : List Bytes) (indices : List Nat) : List (Bytes × Nat) :=
  indices.map fun i => (shards.getD i [], i)

theorem pick_snd (shards : List Bytes) (indices : List Nat) :
    (pick shards indices).map Prod.snd = indices := by
  rw [pick, List.map_map]
  exact List.map_id indices

theorem fetchable_pick {shards : List Bytes} {indices : List Nat} (hlen : shards.length = TOTAL_SHARDS)
    (hlt : ∀ i ∈ indices, i < TOTAL_SHARDS) : Fetchable ipfs shards (pick shards indices) := by
  intro shard hshard
  obtain ⟨i, hi, rfl⟩ := List.mem_map.mp hshard
  have hbound : i < shards.length := hlen ▸ hlt i hi
  refine ⟨shards.getD i [], ?_, rfl⟩
  rw [List.getD_eq_getElem?_getD, List.getElem?_eq_getElem hbound]
  rfl

theorem available_pick {shards : List Bytes} {indices : List Nat} (hlen : shards.length = TOTAL_SHARDS)
    (hnodup : indices.Nodup) (henough : DATA_SHARDS ≤ indices.length)
    (hlt : ∀ i ∈ indices, i < TOTAL_SHARDS) : Available ipfs shards (pick shards indices) := by
  constructor
  · rwa [pick_snd]
  · rwa [pick, List.length_map]
  · exact fetchable_pick hlen hlt

theorem length_of_applyErasureCoding {rs : ReedSolomonErasure} {data : Bytes} {shards : List Bytes}
    (h : applyErasureCoding rs data = .ok shards) : shards.length = TOTAL_SHARDS := by
  obtain ⟨-, rfl⟩ := applyErasureCoding_eq_ok.mp h
  exact length_shardsOf

theorem galoisErasure_ten_five : SystematicMds galoisErasure DATA_SHARDS PARITY_SHARDS :=
  galoisErasure_systematicMds (by decide) (by decide)

end SmallFile

section Concrete

open SmallFile

/-- Twenty bytes come back from the last ten shards. -/
theorem roundTrip_twenty_bytes :
    ∃ shards, applyErasureCoding galoisErasure (List.replicate 20 7) = .ok shards ∧
      RoundTrip galoisErasure SmallFile.ipfs (List.replicate 20 7) shards
        (pick shards ((List.range TOTAL_SHARDS).drop 5)) := by
  obtain ⟨hencodes, hiff⟩ := roundTrip_iff galoisErasure_ten_five SmallFile.ipfs (List.replicate 20 7)
  obtain ⟨shards, hshards⟩ := hencodes (by decide)
  have havailable : Available SmallFile.ipfs shards (pick shards ((List.range TOTAL_SHARDS).drop 5)) :=
    available_pick (length_of_applyErasureCoding hshards) (by decide) (by decide) (by decide)
  refine ⟨shards, hshards, ?_⟩
  rw [hiff shards hshards _ havailable]
  decide

/-- A single byte comes back with nine zeros after it, from all the shards. -/
theorem one_byte_not_roundTrip :
    ∃ shards, applyErasureCoding galoisErasure [1] = .ok shards ∧
      Available SmallFile.ipfs shards (pick shards (List.range TOTAL_SHARDS)) ∧
      reconstructFromShards galoisErasure (slotsOf shards (List.range TOTAL_SHARDS))
        (List.range TOTAL_SHARDS) = .ok (1 :: List.replicate 9 0) ∧
      ¬ RoundTrip galoisErasure SmallFile.ipfs [1] shards (pick shards (List.range TOTAL_SHARDS)) := by
  obtain ⟨shards, hshards⟩ := @applyErasureCoding_succeeds galoisErasure [1] galoisErasure_ten_five
    (by decide)
  have havailable : Available SmallFile.ipfs shards (pick shards (List.range TOTAL_SHARDS)) :=
    available_pick (length_of_applyErasureCoding hshards) (by decide) (by decide) (by decide)
  refine ⟨shards, hshards, havailable, ?_, ?_⟩
  · exact reconstructFromShards_eq galoisErasure_ten_five hshards (by decide) (by decide) (by decide)
  · rw [roundTrip_eq_iff galoisErasure_ten_five hshards havailable, padded_eq_iff]
    decide

end Concrete

end Kyneto
