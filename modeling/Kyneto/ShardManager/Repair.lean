import Kyneto.ShardManager.RoundTrip

/-!
# Repairs

`reconstructShard` reconstructs the file and encodes it again. The file it gets back is the padded one, which
is encoded into the same shards, so what it returns is the lost shard. A repair uploads that and records its
identifier; whatever shards are lost and repaired from whatever others, a shard that is there has the content
it had at first (`intact_run`).
-/

namespace Kyneto

open Evm Coding

/-! ## One repair -/

section OneRepair

variable {Cid : Type} {rs : ReedSolomonErasure} {ipfs : Ipfs Cid} {data : Bytes} {shards : List Bytes}
  {available : List (Cid × Nat)}

/-- The padded file has the same shards. -/
theorem applyErasureCoding_padded (h : applyErasureCoding rs data = .ok shards) :
    applyErasureCoding rs (padded data) = .ok shards := by
  rw [applyErasureCoding_eq_ok] at h ⊢
  rwa [codeBuffer_padded, shardSizeOf_padded]

/-- **A repair returns the shard it is asked for.** -/
theorem reconstructShard_eq (hrs : SystematicMds rs DATA_SHARDS PARITY_SHARDS)
    (happly : applyErasureCoding rs data = .ok shards) (h : Available ipfs shards available)
    (target : Nat) : reconstructShard rs ipfs available target = .ok shards[target]? := by
  have hfile := reconstructFromShards_eq hrs happly h.distinct
  have hagain := applyErasureCoding_padded happly
  obtain ⟨-, rfl⟩ := applyErasureCoding_eq_ok.mp happly
  have henough := h.enough
  rw [← List.length_map Prod.snd] at henough
  unfold reconstructShard
  rw [if_neg (Nat.not_lt.mpr h.enough), h.fetchable.download_eq]
  show (do
    let reconstructedData ← reconstructFromShards rs _ _
    let allShards ← applyErasureCoding rs reconstructedData
    return allShards[target]?) = _
  rw [hfile henough h.fetchable.lt]
  show (do
    let allShards ← applyErasureCoding rs (padded data)
    return allShards[target]?) = _
  rw [hagain]
  rfl

end OneRepair

/-! ## Losses and repairs in any order -/

/-- What happens to the shards of a file. A repair names the shards it uses. -/
inductive ShardEvent where
  | lost (index : Nat)
  | repaired (available : List Nat) (target : Nat)
  deriving DecidableEq, Repr

section Repairs

variable {Cid : Type}

/-- The table of the active shards, by index. A repair reconstructs the target, uploads it and records the
new identifier. -/
def shardStep (rs : ReedSolomonErasure) (ipfs : Ipfs Cid) (table : Nat → Option Cid) :
    ShardEvent → Except String (Nat → Option Cid)
  | .lost index => return Function.update table index none
  | .repaired available target => do
    let shard ← reconstructShard rs ipfs (available.filterMap fun i => (table i).map fun cid => (cid, i))
      target
    match shard with
    | none => throw "No content to upload"
    | some content => do
      let newShardCID ← ipfs.add content
      return Function.update table target (some newShardCID)

/-- A repair needs enough different shards that are active, and a target among the fifteen. -/
def ShardEvent.Possible (table : Nat → Option Cid) : ShardEvent → Prop
  | .lost _ => True
  | .repaired available target => available.Nodup ∧ DATA_SHARDS ≤ available.length ∧
    (∀ i ∈ available, i < TOTAL_SHARDS ∧ (table i).isSome = true) ∧ target < TOTAL_SHARDS

/-- A sequence of possible events that all go through. -/
inductive ShardRun (rs : ReedSolomonErasure) (ipfs : Ipfs Cid) :
    (Nat → Option Cid) → List ShardEvent → (Nat → Option Cid) → Prop
  | nil (table : Nat → Option Cid) : ShardRun rs ipfs table [] table
  | cons {table table' table'' : Nat → Option Cid} {event : ShardEvent} {events : List ShardEvent}
      (possible : event.Possible table) (step : shardStep rs ipfs table event = .ok table')
      (rest : ShardRun rs ipfs table' events table'') :
      ShardRun rs ipfs table (event :: events) table''

/-- The shards in the table have the contents they had at first. -/
def Intact (ipfs : Ipfs Cid) (shards : List Bytes) (table : Nat → Option Cid) : Prop :=
  ∀ i cid, table i = some cid → ∃ content, shards[i]? = some content ∧ ipfs.cat cid = .ok content

/-- The store keeps what is added to it. -/
def Keeps (ipfs : Ipfs Cid) : Prop :=
  ∀ content, ∃ cid, ipfs.add content = .ok cid ∧ ipfs.cat cid = .ok content

variable {rs : ReedSolomonErasure} {ipfs : Ipfs Cid} {data : Bytes} {shards : List Bytes}
  {table table' : Nat → Option Cid} {event : ShardEvent} {events : List ShardEvent}

/-- Active shards in a table that is intact are available. -/
theorem Intact.available (h : Intact ipfs shards table) {available : List Nat}
    (hnodup : available.Nodup) (henough : DATA_SHARDS ≤ available.length)
    (hactive : ∀ i ∈ available, i < TOTAL_SHARDS ∧ (table i).isSome = true) :
    Available ipfs shards (available.filterMap fun i => (table i).map fun cid => (cid, i)) := by
  have hsnd : (available.filterMap fun i => (table i).map fun cid => (cid, i)).map Prod.snd =
      available := by
    rw [List.map_filterMap]
    calc _ = available.filterMap some := by
          apply List.filterMap_congr
          intro i hi
          obtain ⟨cid, hcid⟩ := Option.isSome_iff_exists.mp (hactive i hi).2
          rw [hcid]
          rfl
      _ = available := List.filterMap_some
  constructor
  · rwa [hsnd]
  · rwa [← List.length_map Prod.snd, hsnd]
  · intro shard hshard
    obtain ⟨i, hi, hsome⟩ := List.mem_filterMap.mp hshard
    obtain ⟨cid, hcid, rfl⟩ := Option.map_eq_some_iff.mp hsome
    exact h i cid hcid

/-- An event that is possible goes through, and leaves the shards intact. -/
theorem intact_step (hrs : SystematicMds rs DATA_SHARDS PARITY_SHARDS) (hkeeps : Keeps ipfs)
    (happly : applyErasureCoding rs data = .ok shards) (h : Intact ipfs shards table)
    (hpossible : event.Possible table) :
    ∃ table', shardStep rs ipfs table event = .ok table' ∧ Intact ipfs shards table' := by
  cases event with
  | lost index =>
    refine ⟨Function.update table index none, rfl, ?_⟩
    intro i cid hcid
    rcases eq_or_ne i index with rfl | hne
    · rw [Function.update_self] at hcid
      cases hcid
    · rw [Function.update_of_ne hne] at hcid
      exact h i cid hcid
  | repaired available target =>
    obtain ⟨hnodup, henough, hactive, htarget⟩ := hpossible
    have hshard := reconstructShard_eq hrs happly (h.available hnodup henough hactive) target
    obtain ⟨content, hcontent⟩ : ∃ content, shards[target]? = some content := by
      obtain ⟨-, rfl⟩ := applyErasureCoding_eq_ok.mp happly
      exact ⟨_, getElem?_shardsOf htarget⟩
    obtain ⟨newShardCID, hadd, hcat⟩ := hkeeps content
    refine ⟨Function.update table target (some newShardCID), ?_, ?_⟩
    · rw [shardStep, hshard, hcontent]
      show (do
        let newShardCID ← ipfs.add content
        return Function.update table target (some newShardCID)) = _
      rw [hadd]
      rfl
    · intro i cid hcid
      rcases eq_or_ne i target with rfl | hne
      · rw [Function.update_self, Option.some.injEq] at hcid
        exact ⟨content, hcontent, hcid ▸ hcat⟩
      · rw [Function.update_of_ne hne] at hcid
        exact h i cid hcid

theorem intact_run (hrs : SystematicMds rs DATA_SHARDS PARITY_SHARDS) (hkeeps : Keeps ipfs)
    (happly : applyErasureCoding rs data = .ok shards) (h : Intact ipfs shards table)
    (hrun : ShardRun rs ipfs table events table') : Intact ipfs shards table' := by
  induction hrun with
  | nil table => exact h
  | cons possible step _ ih =>
    obtain ⟨next, hnext, hintact⟩ := intact_step hrs hkeeps happly h possible
    rw [step, Except.ok.injEq] at hnext
    exact ih (hnext ▸ hintact)

/-- **Repairs are exact, one by one and in any order.** -/
theorem repairs_exact (hrs : SystematicMds rs DATA_SHARDS PARITY_SHARDS) (hkeeps : Keeps ipfs)
    (hdata : data ≠ []) :
    ∃ shards, applyErasureCoding rs data = .ok shards ∧ shards.length = TOTAL_SHARDS ∧
      (∀ available target, Available ipfs shards available → target < TOTAL_SHARDS →
        ∃ content, shards[target]? = some content ∧
          reconstructShard rs ipfs available target = .ok (some content)) ∧
      (∀ table event, Intact ipfs shards table → event.Possible table →
        ∃ table', shardStep rs ipfs table event = .ok table') ∧
      ∀ table events table', Intact ipfs shards table → ShardRun rs ipfs table events table' →
        Intact ipfs shards table' := by
  obtain ⟨shards, happly⟩ := applyErasureCoding_succeeds hrs hdata
  have hlen : shards.length = TOTAL_SHARDS := by
    obtain ⟨-, rfl⟩ := applyErasureCoding_eq_ok.mp happly
    exact length_shardsOf
  refine ⟨shards, happly, hlen, ?_, ?_, ?_⟩
  · intro available target havailable htarget
    have hbound : target < shards.length := hlen ▸ htarget
    refine ⟨shards[target], List.getElem?_eq_getElem hbound, ?_⟩
    rw [reconstructShard_eq hrs happly havailable, List.getElem?_eq_getElem hbound]
  · intro table event h hpossible
    obtain ⟨table', hstep, -⟩ := intact_step hrs hkeeps happly h hpossible
    exact ⟨table', hstep⟩
  · intro table events table' h hrun
    exact intact_run hrs hkeeps happly h hrun

end Repairs

/-! ### A small file -/

section Concrete

open SmallFile

/-- The first shard of a file of twenty equal bytes is reconstructed from the last ten. -/
theorem repairs_exact_twenty_bytes :
    ∃ shards, applyErasureCoding galoisErasure (List.replicate 20 7) = .ok shards ∧
      ∃ content, shards[0]? = some content ∧
        reconstructShard galoisErasure SmallFile.ipfs
          (pick shards ((List.range TOTAL_SHARDS).drop 5)) 0 = .ok (some content) := by
  have hkeeps : Keeps SmallFile.ipfs := fun content => ⟨content, rfl, rfl⟩
  obtain ⟨shards, hshards, hlen, hone, -⟩ :=
    @repairs_exact Bytes galoisErasure SmallFile.ipfs (List.replicate 20 7) galoisErasure_ten_five hkeeps (by decide)
  have havailable : Available SmallFile.ipfs shards (pick shards ((List.range TOTAL_SHARDS).drop 5)) :=
    available_pick hlen (by decide) (by decide) (by decide)
  exact ⟨shards, hshards, hone _ 0 havailable (by decide)⟩

end Concrete

end Kyneto
