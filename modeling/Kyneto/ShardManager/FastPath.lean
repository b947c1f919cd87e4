import Kyneto.ShardManager.RoundTrip

/-!
# The fast path of the reconstruction

With all data shards at hand a file is put together without the Reed–Solomon module. Whether they are at hand
is judged by the list of indices, ten of which have to be below ten, and what is put together are the shards
in the array. A shard that is listed twice is counted twice but is there once. The two paths agree except for
such lists (`givesDataShards_iff`).
-/

namespace Kyneto

open Evm Coding

/-- The module reports that it cannot restore a codeword if too few shards are marked as available. -/
def ReportsMissing (rs : ReedSolomonErasure) (dataShards parityShards : Nat) : Prop :=
  ∀ size buf available, buf.length = (dataShards + parityShards) * size →
    available.length = dataShards + parityShards → available.count true < dataShards →
    (rs.reconstruct buf dataShards parityShards available).1 ≠ 0

/-- What the shards are put together for: ten different ones give the data shards, one after the other, and
fewer give an error. -/
structure GivesDataShards (rs : ReedSolomonErasure) (shards : List Bytes) (indices : List Nat) : Prop where
  enough : DATA_SHARDS ≤ indices.dedup.length →
    reconstructFromShards rs (slotsOf shards indices) indices = .ok (shards.take DATA_SHARDS).flatten
  few : indices.dedup.length < DATA_SHARDS →
    ∃ message, reconstructFromShards rs (slotsOf shards indices) indices = .error message

/-- Ten indices of data shards are those of the ten data shards. Of an empty file there is nothing to miss. -/
def CountsDataShards (data : Bytes) (indices : List Nat) : Prop :=
  (indices.filter (· < DATA_SHARDS)).length = DATA_SHARDS →
    (∀ i < DATA_SHARDS, i ∈ indices) ∨ data = [] ∧ DATA_SHARDS ≤ indices.dedup.length

section FastPath

variable {Cid : Type} {rs : ReedSolomonErasure} {ipfs : Ipfs Cid} {data code : Bytes} {shards : List Bytes}
  {available : List (Cid × Nat)} {indices : List Nat} {size i : Nat}

theorem galoisErasure_reportsMissing (dataShards parityShards : Nat) :
    ReportsMissing galoisErasure dataShards parityShards := by
  intro size buf available hlen havailable hfew
  rw [← card_availableShards] at hfew
  show (if _ ∧ _ ∧ _ ∧ _ ∧ dataShards ≤ (availableShards available).card then _ else (1, buf)).1 ≠ 0
  rw [if_neg fun h => absurd h.2.2.2.2 (Nat.not_le.mpr hfew)]
  exact Nat.one_ne_zero

/-! ## The file -/

theorem eq_nil_of_shardSizeOf (h : shardSizeOf data.length = 0) : data = [] := by
  by_contra hdata
  have hpos := shardSizeOf_pos (List.length_pos_iff.mpr hdata)
  omega

/-- The data shards, one after the other. -/
theorem flatten_take (hrs : SystematicMds rs DATA_SHARDS PARITY_SHARDS)
    (happly : applyErasureCoding rs data = .ok shards) :
    (shards.take DATA_SHARDS).flatten = padded data := by
  obtain ⟨hok, rfl⟩ := applyErasureCoding_eq_ok.mp happly
  rw [← flatten_data_shards hrs.systematic hok, shardsOf, ← List.map_take, List.take_range]
  rfl

/-- Ten data shards are ten different shards. -/
theorem le_dedup_length (h : ∀ i < DATA_SHARDS, i ∈ indices) : DATA_SHARDS ≤ indices.dedup.length := by
  have hsub : List.range DATA_SHARDS ⊆ indices.dedup := by
    intro i hi
    exact List.mem_dedup.mpr (h i (List.mem_range.mp hi))
  simpa using (List.nodup_range.subperm hsub).length_le

/-! ## The two paths -/

/-- The fast path returns the data shards in the array, however many these are. -/
theorem reconstructFromShards_fast
    (hcount : (indices.filter (· < DATA_SHARDS)).length = DATA_SHARDS) :
    reconstructFromShards rs (slotsOf (shardsOf size code) indices) indices =
      .ok (((List.range DATA_SHARDS).filter (· ∈ indices)).map fun i => block size i code).flatten := by
  rw [reconstructFromShards, if_pos hcount, filterMap_slotsOf]
  rfl

/-- The bytes of some data shards. -/
theorem length_flatten_shards (hlen : code.length = TOTAL_SHARDS * size) :
    (((List.range DATA_SHARDS).filter (· ∈ indices)).map fun i => block size i code).flatten.length =
      ((List.range DATA_SHARDS).filter (· ∈ indices)).length * size := by
  apply length_flatten_blocks hlen
  intro i hi
  have hdata := List.mem_range.mp (List.mem_filter.mp hi).1
  unfold DATA_SHARDS TOTAL_SHARDS at *
  omega

/-- With a data shard missing the fast path returns the file only if there is nothing in it. -/
theorem flatten_shards_eq_iff (hlen : code.length = TOTAL_SHARDS * shardSizeOf data.length)
    (hmissing : ¬ ∀ i < DATA_SHARDS, i ∈ indices) :
    (((List.range DATA_SHARDS).filter (· ∈ indices)).map
      fun i => block (shardSizeOf data.length) i code).flatten = padded data ↔ data = [] := by
  have hbytes := @length_flatten_shards code indices _ hlen
  constructor
  · intro h
    have hfewer : ((List.range DATA_SHARDS).filter (· ∈ indices)).length < DATA_SHARDS := by
      apply lt_of_le_of_ne
      · simpa using List.length_filter_le (fun i => decide (i ∈ indices)) (List.range DATA_SHARDS)
      · intro hall
        apply hmissing
        intro i hi
        have hsame := hall.trans (List.length_range (n := DATA_SHARDS)).symm
        rw [List.length_filter_eq_length_iff] at hsame
        exact of_decide_eq_true (hsame i (List.mem_range.mpr hi))
    rw [h, length_padded, Nat.mul_comm] at hbytes
    apply eq_nil_of_shardSizeOf
    by_contra hpos
    exact absurd (Nat.eq_of_mul_eq_mul_right (Nat.pos_of_ne_zero hpos) hbytes) hfewer.ne'
  · rintro rfl
    have hnone : shardSizeOf ([] : Bytes).length = 0 := by decide
    rw [hnone] at hbytes ⊢
    rw [Nat.mul_zero, List.length_eq_zero_iff] at hbytes
    rw [hbytes]
    rfl

/-- The module is asked in vain if fewer than ten shards are different. -/
theorem reconstructFromShards_few (hrs : SystematicMds rs DATA_SHARDS PARITY_SHARDS)
    (hreports : ReportsMissing rs DATA_SHARDS PARITY_SHARDS) (happly : applyErasureCoding rs data = .ok shards)
    (hcount : (indices.filter (· < DATA_SHARDS)).length ≠ DATA_SHARDS)
    (hfew : indices.dedup.length < DATA_SHARDS) (hlt : ∀ i ∈ indices, i < TOTAL_SHARDS) :
    ∃ message, reconstructFromShards rs (slotsOf shards indices) indices = .error message := by
  obtain ⟨hok, rfl⟩ := applyErasureCoding_eq_ok.mp happly
  have hlen := hrs.encode_length _ _ length_codeBuffer hok
  rw [length_codeBuffer] at hlen
  rw [reconstructFromShards, if_neg hcount]
  split
  · exact ⟨_, rfl⟩
  · next first hfirst =>
    obtain ⟨index, -, hindex⟩ := Option.bind_eq_some_iff.mp hfirst
    have hsize := length_slotsOf hlen hlt hindex
    have hrange : ∀ i ∈ List.range TOTAL_SHARDS, i < TOTAL_SHARDS := fun i hi => List.mem_range.mp hi
    have hfails := hreports first.length
      (fill first.length (slotsOf (shardsOf first.length
        (rs.encode (codeBuffer data) DATA_SHARDS PARITY_SHARDS).2) indices)
        (List.replicate (first.length * TOTAL_SHARDS) 0) (List.range TOTAL_SHARDS))
      ((List.range TOTAL_SHARDS).map fun i => (slotsOf (shardsOf first.length
        (rs.encode (codeBuffer data) DATA_SHARDS PARITY_SHARDS).2) indices i).isSome)
      (by
        rw [hsize, length_fill length_zeros hrange fun i _ src hsrc => length_slotsOf hlen hlt hsrc]
        rfl)
      (by simp [TOTAL_SHARDS, DATA_SHARDS, PARITY_SHARDS])
      (by rwa [count_available hlt])
    rw [hsize] at hfails ⊢
    simp only [if_pos hfails]
    exact ⟨_, rfl⟩

/-! ## The callers -/

/-- `reconstructFile` refuses less than ten shards, listed as often as they are. -/
theorem reconstructFile_of_fetchable (h : Fetchable ipfs (shardsOf size code) available) :
    reconstructFile rs ipfs (available.map Prod.fst) (available.map Prod.snd) =
      if available.length < DATA_SHARDS then
        .error ("Insufficient shards: need at least " ++ toString DATA_SHARDS ++ ", have " ++
          toString available.length)
      else
        (reconstructFromShards rs (slotsOf (shardsOf size code) (available.map Prod.snd))
          (available.map Prod.snd)).bind ipfs.add := by
  unfold reconstructFile
  rw [List.length_map, places_eq, h.download_eq]
  rfl

/-- So does `reconstructShard`. -/
theorem reconstructShard_of_fetchable (h : Fetchable ipfs (shardsOf size code) available) (target : Nat) :
    reconstructShard rs ipfs available target =
      if available.length < DATA_SHARDS then
        .error ("Need at least " ++ toString DATA_SHARDS ++ " shards to reconstruct")
      else
        (reconstructFromShards rs (slotsOf (shardsOf size code) (available.map Prod.snd))
          (available.map Prod.snd)).bind fun reconstructedData =>
            (applyErasureCoding rs reconstructedData).map fun allShards => allShards[target]? := by
  unfold reconstructShard
  rw [h.download_eq]
  rfl

/-- What the fast path is for holds of the lists that are counted correctly. -/
theorem givesDataShards_of_lt (hrs : SystematicMds rs DATA_SHARDS PARITY_SHARDS)
    (hreports : ReportsMissing rs DATA_SHARDS PARITY_SHARDS) (happly : applyErasureCoding rs data = .ok shards)
    (hlt : ∀ i ∈ indices, i < TOTAL_SHARDS) :
    GivesDataShards rs shards indices ↔ CountsDataShards data indices := by
  have hfile := flatten_take hrs happly
  by_cases hcount : (indices.filter (· < DATA_SHARDS)).length = DATA_SHARDS
  · obtain ⟨hok, rfl⟩ := applyErasureCoding_eq_ok.mp happly
    have hlen := hrs.encode_length _ _ length_codeBuffer hok
    rw [length_codeBuffer] at hlen
    have hfast := @reconstructFromShards_fast rs (rs.encode (codeBuffer data) DATA_SHARDS PARITY_SHARDS).2
      indices (shardSizeOf data.length) hcount
    constructor
    · intro h _
      by_cases hall : ∀ i < DATA_SHARDS, i ∈ indices
      · exact .inl hall
      right
      have henough : DATA_SHARDS ≤ indices.dedup.length := by
        by_contra hfew
        obtain ⟨message, hfails⟩ := h.few (Nat.lt_of_not_le hfew)
        rw [hfast] at hfails
        cases hfails
      have hfull := h.enough henough
      rw [hfast, hfile, Except.ok.injEq, flatten_shards_eq_iff hlen hall] at hfull
      exact ⟨hfull, henough⟩
    · intro h
      have henough : DATA_SHARDS ≤ indices.dedup.length := by
        rcases h hcount with hall | ⟨-, henough⟩
        · exact le_dedup_length hall
        · exact henough
      constructor
      · intro _
        rw [hfast, hfile, Except.ok.injEq]
        by_cases hall : ∀ i < DATA_SHARDS, i ∈ indices
        · rw [filter_data_shards hall, flatten_data_shards hrs.systematic hok]
        · rw [flatten_shards_eq_iff hlen hall]
          exact ((h hcount).resolve_left hall).1
      · intro hfew
        exact absurd henough (Nat.not_le.mpr hfew)
  · constructor
    · intro _ h
      exact absurd h hcount
    · intro _
      constructor
      · intro henough
        rw [hfile]
        exact reconstructFromShards_slow hrs happly hcount henough hlt
      · intro hfew
        exact reconstructFromShards_few hrs hreports happly hcount hfew hlt

/-- **Both callers put the shards together with `reconstructFromShards`, and this gives the data shards or an
error, as it should, exactly if the list of indices has no ten entries below ten other than all of them.** -/
theorem givesDataShards_iff (hrs : SystematicMds rs DATA_SHARDS PARITY_SHARDS)
    (hreports : ReportsMissing rs DATA_SHARDS PARITY_SHARDS) (happly : applyErasureCoding rs data = .ok shards)
    (h : Fetchable ipfs shards available) :
    reconstructFile rs ipfs (available.map Prod.fst) (available.map Prod.snd) =
        (if available.length < DATA_SHARDS then
          .error ("Insufficient shards: need at least " ++ toString DATA_SHARDS ++ ", have " ++
            toString available.length)
        else
          (reconstructFromShards rs (slotsOf shards (available.map Prod.snd))
            (available.map Prod.snd)).bind ipfs.add) ∧
      (∀ target, reconstructShard rs ipfs available target =
        if available.length < DATA_SHARDS then
          .error ("Need at least " ++ toString DATA_SHARDS ++ " shards to reconstruct")
        else
          (reconstructFromShards rs (slotsOf shards (available.map Prod.snd))
            (available.map Prod.snd)).bind fun reconstructedData =>
              (applyErasureCoding rs reconstructedData).map fun allShards => allShards[target]?) ∧
      (GivesDataShards rs shards (available.map Prod.snd) ↔
        CountsDataShards data (available.map Prod.snd)) := by
  have hgives : (∀ i ∈ available.map Prod.snd, i < TOTAL_SHARDS) →
      (GivesDataShards rs shards (available.map Prod.snd) ↔
        CountsDataShards data (available.map Prod.snd)) := givesDataShards_of_lt hrs hreports happly
  obtain ⟨-, rfl⟩ := applyErasureCoding_eq_ok.mp happly
  exact ⟨reconstructFile_of_fetchable h, reconstructShard_of_fetchable h, hgives h.lt⟩

end FastPath

/-! ### A shard that was repaired while it was there -/

namespace TwiceListed

open SmallFile

/-- The first shard twice, the last data shard not at all. -/
def indices : List Nat := [0, 0, 1, 2, 3, 4, 5, 6, 7, 8, 10, 11]

/-- The last ten shards of twenty bytes, once each. -/
theorem lastTen_givesDataShards :
    ∃ shards, applyErasureCoding galoisErasure (List.replicate 20 7) = .ok shards ∧
      GivesDataShards galoisErasure shards ((List.range TOTAL_SHARDS).drop 5) := by
  obtain ⟨shards, hshards⟩ := @applyErasureCoding_succeeds galoisErasure (List.replicate 20 7)
    galoisErasure_ten_five (by decide)
  have hfetch : Fetchable SmallFile.ipfs shards (pick shards ((List.range TOTAL_SHARDS).drop 5)) :=
    fetchable_pick (length_of_applyErasureCoding hshards) (by decide)
  have hgives := (givesDataShards_iff galoisErasure_ten_five (galoisErasure_reportsMissing _ _) hshards
    hfetch).2.2
  rw [pick_snd] at hgives
  refine ⟨shards, hshards, hgives.mpr ?_⟩
  intro hcount
  exact absurd hcount (by decide)

/-- Eleven different shards of twenty bytes are put together to eighteen bytes. -/
theorem twelve_shards_lose_bytes :
    ∃ shards, applyErasureCoding galoisErasure (List.replicate 20 7) = .ok shards ∧
      Fetchable SmallFile.ipfs shards (pick shards indices) ∧
      DATA_SHARDS ≤ indices.dedup.length ∧
      (∃ bytes, reconstructFromShards galoisErasure (slotsOf shards indices) indices = .ok bytes ∧
        bytes.length = 18) ∧
      ¬ GivesDataShards galoisErasure shards indices := by
  obtain ⟨shards, hshards⟩ := @applyErasureCoding_succeeds galoisErasure (List.replicate 20 7)
    galoisErasure_ten_five (by decide)
  have hlt : ∀ i ∈ indices, i < TOTAL_SHARDS := by decide
  have hfetch : Fetchable SmallFile.ipfs shards (pick shards indices) :=
    fetchable_pick (length_of_applyErasureCoding hshards) hlt
  refine ⟨shards, hshards, hfetch, by decide, ?_, ?_⟩
  · obtain ⟨hok, rfl⟩ := applyErasureCoding_eq_ok.mp hshards
    have hlen := galoisErasure_ten_five.encode_length _ _ length_codeBuffer hok
    rw [length_codeBuffer] at hlen
    refine ⟨_, reconstructFromShards_fast (by decide), ?_⟩
    rw [length_flatten_shards hlen]
    decide
  · rw [givesDataShards_of_lt galoisErasure_ten_five (galoisErasure_reportsMissing _ _) hshards hlt]
    intro h
    rcases h (by decide) with hall | ⟨hdata, -⟩
    · exact absurd (hall 9 (by decide)) (by decide)
    · exact absurd hdata (by decide)

end TwiceListed

end Kyneto
