import Kyneto.DealOrchestrator.Basic
import Kyneto.Evm.Checksum
import Kyneto.RepairService.Jobs

/-!
# Does a repaired deal have all its shards?

`repairDeal` goes through the inactive rows of the deal, and a shard whose index has no row at all is not among them. It
takes whichever provider the general selection puts first, and the contract gives the new provider the index that it
has for the old one. `healed_iff` says exactly which runs without an error leave 15 active shards with 15 indices at 15
providers, in the database and on the chain.

The primary key of `shards` does the rest: in a run without an error every index that is repaired has one row only, and
every new provider has none.
-/

namespace Kyneto

open Evm Sql ReplicationOrchestrator

/-! ## The first of the selected providers -/

namespace ReplicationOrchestrator

variable {providers : List Picked} {count : Nat} {regions : List (Option String)} {s : Picking}

/-- The first pass only adds to the selection. -/
theorem onePerRegion_isPrefix :
    s.selected <+: (onePerRegion providers count regions s).selected := by
  induction regions generalizing s with
  | nil => exact List.prefix_refl _
  | cons region regions ih =>
    unfold onePerRegion
    split
    · exact List.prefix_refl _
    · split
      · next p _ => exact (List.prefix_append s.selected [p]).trans (ih (s := s.push p region 1))
      · exact ih

/-- The second pass only adds to the selection. -/
theorem fillSlots_isPrefix {n : Nat} : s.selected <+: (fillSlots providers n regions s).selected := by
  induction n generalizing s regions with
  | zero => exact List.prefix_refl _
  | succ n ih =>
    unfold fillSlots
    simp only
    split
    · next region p _ =>
      exact (List.prefix_append s.selected [p]).trans (ih (s := s.push p region (s.regionCounts region + 1)))
    · split
      · next p _ => exact (List.prefix_append s.selected [p]).trans (ih (s := { s with selected := s.selected ++ [p] }))
      · exact List.prefix_refl _

/-- Whatever the regions are: the first row of the answer comes first. -/
theorem selectWithDiversity_head? (rows : List SelectionRow) (hcount : 0 < count) :
    (selectWithDiversity rows count).head? = rows.head? := by
  cases rows with
  | nil =>
    unfold selectWithDiversity
    cases count with
    | zero => rfl
    | succ n => simp [onePerRegion, fillSlots, sortRegions]
  | cons row rows =>
    obtain ⟨n, rfl⟩ := Nat.exists_eq_succ_of_ne_zero hcount.ne'
    unfold selectWithDiversity
    simp only [List.zipIdx_cons, List.map_cons, List.eraseDups_cons]
    -- the first region is that of the first row, and nothing has been selected
    generalize hproviders : Prod.swap (row, 0) :: _ = providers
    generalize List.eraseDups (_ : List (Option String)) = regions
    have hfind : ({} : Picking).findIn providers row.region = some (0, row) := by
      rw [← hproviders]
      simp [Picking.findIn]
    have hfirst : onePerRegion providers (n + 1) (row.region :: regions) {} =
        onePerRegion providers (n + 1) regions (Picking.push {} (0, row) row.region 1) := by
      rw [onePerRegion, hfind]
      simp
    rw [hfirst]
    generalize hs : onePerRegion providers (n + 1) regions (Picking.push {} (0, row) row.region 1) = s₁
    have hprefix : [(0, row)] <+: s₁.selected := by
      rw [← hs]
      exact onePerRegion_isPrefix (s := Picking.push {} (0, row) row.region 1)
    obtain ⟨rest, hrest⟩ := hprefix.trans
      (@fillSlots_isPrefix providers (row.region :: regions) s₁ (n + 1 - s₁.selected.length))
    rw [← hrest]
    rfl

end ReplicationOrchestrator

/-! ## What is promised -/

section Promise

variable {this : Address} (env : OrchestratorEnv this)

/-- The providers that hold an active shard of a deal on the chain. -/
def Deal.holding (deal : Deal) : Set Address := {p | (deal.shardAllocations p).active = true}

/-- Each shard goes to another provider, and to one that holds no active shard of the deal, in whichever spelling. -/
structure FreshProviders (s : DealOrchestrator) (dealId : String) (ps : List Placement) : Prop where
  different : (ps.map fun p => p.args.newProvider).Nodup
  noRow : ∀ p ∈ ps, ∀ r ∈ activeShardsOf s.db dealId, env.readAddress r.providerAddress ≠ some p.args.newProvider
  noShard : ∀ p ∈ ps, p.args.newProvider ∉ (s.chain.market.deals p.args.dealId).holding

/-- **The deal is healed**: the shards that are placed are those whose index has no active row, each of them once and at
a fresh provider, and afterwards there are 15 active rows, with different indices and providers, and 15 active shards
with different indices on the chain. -/
structure Healed (s s' : DealOrchestrator) (dealId : String) (ps : List Placement) : Prop where
  once : (ps.map Placement.shardIndex).Nodup
  missing : ∀ i, i ∈ ps.map Placement.shardIndex ↔ i < 15 ∧ ∀ r ∈ activeShardsOf s.db dealId, r.shardIndex ≠ i
  fresh : FreshProviders env s dealId ps
  rows : (activeShardsOf s'.db dealId).length = 15
  indices : ((activeShardsOf s'.db dealId).map ShardRow.shardIndex).Nodup
  providers : ((activeShardsOf s'.db dealId).map ShardRow.providerAddress).Nodup
  onChain : ∃ id ∈ env.readNumber dealId, (s'.chain.market.deals id).holding.ncard = 15 ∧
    Set.InjOn (s'.chain.market.indexOf id) (s'.chain.market.deals id).holding

end Promise

/-! ## Rows -/

section Rows

variable {this : Address} {env : OrchestratorEnv this} {s s' : DealOrchestrator} {dealId : String}
  {missing : ShardRow} {answers : ShardRow → Option RepairAnswer} {db db' : Database}

/-- What a repair of the row places, if it comes so far. -/
def planned (env : OrchestratorEnv this) (dealId : String) (answers : ShardRow → Option RepairAnswer) (r : ShardRow) :
    Option Placement := do
  let answer ← answers r
  let provider ← answer.providers.head?
  let args ← DealOrchestrator.readArgs env dealId r.providerAddress provider.address
  return { shardIndex := r.shardIndex, newProvider := provider.address, newShardCID := answer.newShardCID, args }

/-- The row after its repair. -/
def ShardRow.placedAt (r : ShardRow) (p : Placement) : ShardRow :=
  { r with providerAddress := p.newProvider, shardCid := p.newShardCID, active := true }

theorem placeShard_eq_ok {shardIndex : Nat} {newProvider newShardCID : String}
    (h : db.placeShard dealId shardIndex newProvider newShardCID = .ok db') :
    ∃ shards, shards = update (fun r => r.dealId = dealId ∧ r.shardIndex = shardIndex)
        (fun r => { r with providerAddress := newProvider, shardCid := newShardCID, active := true }) db.shards ∧
      (shards.map ShardRow.key).Nodup ∧ db' = { db with shards } := by
  simp only [Database.placeShard, bind_eq_ok, check_eq_ok, updateKeyed_eq_ok, pure_eq_ok, exists_const] at h
  obtain ⟨-, shards, ⟨hkeys, rfl⟩, -, rfl⟩ := h
  exact ⟨_, rfl, hkeys, rfl⟩

/-- A turn of the loop without an error. -/
theorem repairOne_eq_some {answer : RepairAnswer} {p : Placement} (hanswer : answers missing = some answer)
    (h : s.repairOne env dealId missing answer = (s', some p)) :
    planned env dealId answers missing = some p ∧
      (∃ l, s.chain.step this (DealOrchestrator.sends env answer.now p.args p.newShardCID) = .ok (s'.chain, l)) ∧
      s.db.placeShard dealId missing.shardIndex p.newProvider p.newShardCID = .ok s'.db := by
  unfold DealOrchestrator.repairOne at h
  split at h
  · cases h
  · next provider hprovider =>
    have hhead : answer.providers.head? = some provider := by
      obtain ⟨selected, hselected, hfirst⟩ := Option.bind_eq_some_iff.mp hprovider
      unfold DealOrchestrator.selectProvidersForDeal at hselected
      split at hselected
      · rw [← Option.some.inj hselected, selectWithDiversity_head? _ (by decide)] at hfirst
        exact hfirst
      · cases hselected
    split at h
    · cases h
    · next args hargs =>
      split at h
      · cases h
      · next chain l hchain =>
        split at h
        · cases h
        · next db hdb =>
          obtain ⟨rfl, hp⟩ := Prod.mk.inj h
          obtain rfl := Option.some.inj hp
          refine ⟨?_, ⟨l, hchain⟩, hdb⟩
          simp [planned, hanswer, hhead, hargs]

/-- The rows after one repair: the row with the index was the only one of the deal. -/
theorem shards_of_placeShard {p : Placement} (hmem : missing ∈ db.shards) (hdeal : missing.dealId = dealId)
    (h : db.placeShard dealId missing.shardIndex p.newProvider p.newShardCID = .ok db') :
    (∀ r ∈ db.shards, r.dealId = dealId → r.shardIndex = missing.shardIndex → r = missing) ∧
      (db'.shards.map ShardRow.key).Nodup ∧
      db'.shards = db.shards.map fun r => if r = missing then r.placedAt p else r := by
  obtain ⟨shards, hshards, hkeys, rfl⟩ := placeShard_eq_ok h
  have honly : ∀ r ∈ db.shards, r.dealId = dealId → r.shardIndex = missing.shardIndex → r = missing := by
    intro r hr hrdeal hrindex
    rw [hshards] at hkeys
    unfold update at hkeys
    rw [List.map_map] at hkeys
    -- both rows would get the key of the new provider
    apply List.inj_on_of_nodup_map hkeys hr hmem
    simp [hrdeal, hrindex, hdeal, ShardRow.key]
  refine ⟨honly, hkeys, ?_⟩
  show shards = _
  rw [hshards]
  unfold update
  apply List.map_congr_left
  intro r hr
  by_cases hrm : r = missing
  · subst hrm
    simp [hdeal, ShardRow.placedAt]
  · have hcond : ¬ (r.dealId = dealId ∧ r.shardIndex = missing.shardIndex) := fun hc => hrm (honly r hr hc.1 hc.2)
    simp [hrm, hcond]

/-- The row at the end of the run. -/
def ShardRow.repaired (env : OrchestratorEnv this) (dealId : String) (answers : ShardRow → Option RepairAnswer)
    (r : ShardRow) : ShardRow :=
  match planned env dealId answers r with
  | some p => r.placedAt p
  | none => r

/-- What a run of the loop without an error has done: every row of its list was the only one with its index, and has
been replaced. -/
structure RepairsRows (env : OrchestratorEnv this) (dealId : String) (answers : ShardRow → Option RepairAnswer)
    (missing : List ShardRow) (s : DealOrchestrator) (o : RepairOutcome) : Prop where
  plan : ∀ r ∈ missing, (planned env dealId answers r).isSome
  placements : o.placements = missing.filterMap (planned env dealId answers)
  alone : ∀ r ∈ missing, ∀ r' ∈ s.db.shards, r'.dealId = dealId → r'.shardIndex = r.shardIndex → r' = r
  keys : (o.state.db.shards.map ShardRow.key).Nodup
  shards : o.state.db.shards = s.db.shards.map fun r => if r ∈ missing then r.repaired env dealId answers else r

/-- If nothing throws, every missing shard has its row again, with the provider that was selected for it. -/
theorem repairsRows_of_repairShards {missing : List ShardRow} (hkeys : (s.db.shards.map ShardRow.key).Nodup)
    (hmissing : ∀ r ∈ missing, r ∈ s.db.shards ∧ r.dealId = dealId ∧ r.active = false) (hnodup : missing.Nodup)
    (h : (DealOrchestrator.repairShards env dealId answers missing s).threw = false) :
    RepairsRows env dealId answers missing s (DealOrchestrator.repairShards env dealId answers missing s) := by
  induction missing generalizing s with
  | nil =>
    refine ⟨by simp, rfl, by simp, hkeys, ?_⟩
    simp [DealOrchestrator.repairShards]
  | cons m rest ih =>
    unfold DealOrchestrator.repairShards at h ⊢
    split at h
    · cases h
    · next answer hanswer =>
      split at h
      · cases h
      · next s₁ p hone =>
        obtain ⟨hplan, -, hplace⟩ := repairOne_eq_some hanswer hone
        obtain ⟨hm, hdeal, hinactive⟩ := hmissing m List.mem_cons_self
        obtain ⟨honly, hkeys₁, hshards₁⟩ := shards_of_placeShard hm hdeal hplace
        obtain ⟨hnotMem, hrest⟩ := List.nodup_cons.mp hnodup
        -- the rows that are still to come are as they were
        have hkept : ∀ r ∈ rest, r ∈ s₁.db.shards ∧ r.dealId = dealId ∧ r.active = false := by
          intro r hr
          obtain ⟨hmem, hrdeal, hrinactive⟩ := hmissing r (List.mem_cons_of_mem _ hr)
          refine ⟨?_, hrdeal, hrinactive⟩
          rw [hshards₁]
          refine List.mem_map.mpr ⟨r, hmem, if_neg ?_⟩
          rintro rfl
          exact hnotMem hr
        have hplaced : ∀ r ∈ rest, m.placedAt p ≠ r := by
          intro r hr heq
          have hactive : r.active = true := by rw [← heq]; rfl
          rw [(hmissing r (List.mem_cons_of_mem _ hr)).2.2] at hactive
          cases hactive
        have ih := ih hkeys₁ hkept hrest h
        refine ⟨?_, ?_, ?_, ih.keys, ?_⟩
        · intro r hr
          rcases List.mem_cons.mp hr with rfl | hr
          · rw [hplan]
            rfl
          · exact ih.plan r hr
        · show p :: _ = _
          rw [List.filterMap_cons, hplan, ih.placements]
        · intro r hr r' hr' hr'deal hindex
          rcases List.mem_cons.mp hr with rfl | hlater
          · exact honly r' hr' hr'deal hindex
          · by_cases hr'm : r' = m
            · subst hr'm
              have hmem : r'.placedAt p ∈ s₁.db.shards := by
                rw [hshards₁]
                exact List.mem_map.mpr ⟨r', hr', if_pos rfl⟩
              exact absurd (ih.alone r hlater _ hmem hr'deal hindex) (hplaced r hlater)
            · refine ih.alone r hlater r' ?_ hr'deal hindex
              rw [hshards₁]
              exact List.mem_map.mpr ⟨r', hr', if_neg hr'm⟩
        · rw [ih.shards, hshards₁, List.map_map]
          apply List.map_congr_left
          intro r _
          by_cases hrm : r = m
          · subst hrm
            have hout : r.placedAt p ∉ rest := fun hmem => hplaced _ hmem rfl
            simp [hout, ShardRow.repaired, hplan]
          · simp [hrm]

end Rows

/-! ## The chain -/

section Chain

variable {this : Address} {env : OrchestratorEnv this} {s s' : DealOrchestrator} {dealId : String} {deal deal' : Deal}
  {answers : ShardRow → Option RepairAnswer} {ps : List Placement}

/-- Repairs one after the other, each of a shard that is not active. -/
def RepairsDeal : Deal → List Placement → Deal → Prop
  | deal, [], deal' => deal' = deal
  | deal, p :: ps, deal' => (deal.shardAllocations p.args.oldProvider).active = false ∧
    RepairsDeal (repairedDeal deal p.args.oldProvider p.args.newProvider p.newShardCID) ps deal'

/-- The indices that the contract has for the old providers. A repair deletes the allocation, so a provider that is
replaced twice counts as one with shard 0. -/
def lostIndices : (Address → ShardAllocation) → List Address → List Nat
  | _, [] => []
  | allocations, p :: rest =>
    (allocations p).shardIndex :: lostIndices (Function.update allocations p {}) rest

/-- Which shards are lost depends on the old providers only. -/
theorem lostIndices_congr {f g : Address → ShardAllocation} {olds : List Address} (h : ∀ p ∈ olds, f p = g p) :
    lostIndices f olds = lostIndices g olds := by
  induction olds generalizing f g with
  | nil => rfl
  | cons p rest ih =>
    unfold lostIndices
    rw [h p List.mem_cons_self]
    congr 1
    apply ih
    intro q hq
    by_cases hqp : q = p
    · subst hqp
      rw [Function.update_self, Function.update_self]
    · rw [Function.update_of_ne hqp, Function.update_of_ne hqp]
      exact h q (List.mem_cons_of_mem _ hq)

/-- Who holds an active shard is not replaced. -/
theorem RepairsDeal.notMem_old (h : RepairsDeal deal ps deal') {q : Address} (hq : q ∈ deal.holding) :
    q ∉ ps.map fun p => p.args.oldProvider := by
  induction ps generalizing deal with
  | nil => exact List.not_mem_nil
  | cons p rest ih =>
    obtain ⟨hold, hrest⟩ := h
    intro hmem
    rcases List.mem_cons.mp hmem with rfl | hmem
    · exact absurd hq (by simp [Deal.holding, hold])
    · exact ih hrest ((repairedDeal_active hold q).mpr (Or.inr hq)) hmem

/-- What the repairs lead to, if they go to different providers without a shard. -/
theorem RepairsDeal.fresh (h : RepairsDeal deal ps deal') (hdifferent : (ps.map fun p => p.args.newProvider).Nodup)
    (hnone : ∀ p ∈ ps, p.args.newProvider ∉ deal.holding) :
    deal'.holding = deal.holding ∪ {q | q ∈ ps.map fun p => p.args.newProvider} ∧
      (∀ q ∈ deal.holding, (deal'.shardAllocations q).shardIndex = (deal.shardAllocations q).shardIndex) ∧
      (ps.map fun p => (deal'.shardAllocations p.args.newProvider).shardIndex) =
        lostIndices deal.shardAllocations (ps.map fun p => p.args.oldProvider) := by
  induction ps generalizing deal with
  | nil =>
    obtain rfl : deal' = deal := h
    simp [lostIndices]
  | cons p rest ih =>
    obtain ⟨hold, hrest⟩ := h
    rw [List.map_cons, List.nodup_cons] at hdifferent
    obtain ⟨hnotMem, hdifferent⟩ := hdifferent
    have hactive : ∀ q, q ∈ (repairedDeal deal p.args.oldProvider p.args.newProvider p.newShardCID).holding ↔
        q = p.args.newProvider ∨ q ∈ deal.holding := repairedDeal_active hold
    have hnew : p.args.newProvider ∈ (repairedDeal deal p.args.oldProvider p.args.newProvider p.newShardCID).holding :=
      (hactive _).mpr (Or.inl rfl)
    obtain ⟨hholding, hkept, hlost⟩ := ih hrest hdifferent fun q hq hmem => by
      rcases (hactive _).mp hmem with heq | hmem
      · exact hnotMem (heq ▸ List.mem_map_of_mem hq)
      · exact hnone q (List.mem_cons_of_mem _ hq) hmem
    refine ⟨?_, ?_, ?_⟩
    · rw [hholding]
      ext q
      simp only [Set.mem_union, hactive q, Set.mem_ofPred_eq, List.map_cons, List.mem_cons]
      tauto
    · intro q hq
      have hqNew : q ≠ p.args.newProvider := by
        rintro rfl
        exact hnone p List.mem_cons_self hq
      have hqOld : q ≠ p.args.oldProvider := by
        rintro rfl
        exact absurd hq (by simp [Deal.holding, hold])
      rw [hkept q ((hactive q).mpr (Or.inr hq)), repairedDeal_other hqNew hqOld]
    · rw [List.map_cons, List.map_cons, lostIndices, hlost]
      congr 1
      · rw [hkept _ hnew, repairedDeal_new]
      · -- the new provider is not replaced in turn
        apply lostIndices_congr
        intro q hq
        have hqNew : q ≠ p.args.newProvider := by
          rintro rfl
          exact hrest.notMem_old hnew hq
        show Function.update _ p.args.newProvider _ q = _
        rw [Function.update_of_ne hqNew]

/-- What was planned is read from the texts. -/
theorem planned_dealId {r : ShardRow} {p : Placement} (h : planned env dealId answers r = some p) :
    p.shardIndex = r.shardIndex ∧ env.readNumber dealId = some p.args.dealId := by
  simp only [planned, DealOrchestrator.readArgs, bind, Option.bind_eq_some_iff, pure, Option.some.injEq] at h
  obtain ⟨answer, -, provider, -, args, ⟨id, hid, _, -, _, -, rfl⟩, rfl⟩ := h
  exact ⟨rfl, hid⟩

/-- If nothing throws, the contract has the new providers of the missing shards. -/
theorem repairsDeal_of_repairShards {missing : List ShardRow} {id : Nat} (hid : env.readNumber dealId = some id)
    (h : (DealOrchestrator.repairShards env dealId answers missing s).threw = false) :
    RepairsDeal (s.chain.market.deals id) (DealOrchestrator.repairShards env dealId answers missing s).placements
      ((DealOrchestrator.repairShards env dealId answers missing s).state.chain.market.deals id) := by
  induction missing generalizing s with
  | nil => rfl
  | cons m rest ih =>
    unfold DealOrchestrator.repairShards at h ⊢
    split at h
    · cases h
    · next answer hanswer =>
      split at h
      · cases h
      · next s₁ p hone =>
        obtain ⟨hplan, ⟨l, hchain⟩, -⟩ := repairOne_eq_some hanswer hone
        obtain ⟨hold, hrepaired⟩ := repairedDeal_of_step hchain
        have hdealId : p.args.dealId = id := Option.some.inj ((planned_dealId hplan).2.symm.trans hid)
        rw [hdealId] at hold hrepaired
        refine ⟨hold, ?_⟩
        rw [← hrepaired]
        exact ih h

/-- Fifteen shards with different indices, before and after repairs at fresh providers. -/
theorem RepairsDeal.fifteen_iff (h : RepairsDeal deal ps deal')
    (hdifferent : (ps.map fun p => p.args.newProvider).Nodup) (hnone : ∀ p ∈ ps, p.args.newProvider ∉ deal.holding) :
    (deal'.holding.ncard = 15 ∧ Set.InjOn (fun q => (deal'.shardAllocations q).shardIndex) deal'.holding) ↔
      deal.holding.ncard + ps.length = 15 ∧
        Set.InjOn (fun q => (deal.shardAllocations q).shardIndex) deal.holding ∧
        (lostIndices deal.shardAllocations (ps.map fun p => p.args.oldProvider)).Nodup ∧
        ∀ q ∈ deal.holding, (deal.shardAllocations q).shardIndex ∉
          lostIndices deal.shardAllocations (ps.map fun p => p.args.oldProvider) := by
  obtain ⟨hholding, hkept, hlost⟩ := h.fresh hdifferent hnone
  have hlost' : (ps.map fun p => p.args.newProvider).map (fun q => (deal'.shardAllocations q).shardIndex) =
      lostIndices deal.shardAllocations (ps.map fun p => p.args.oldProvider) := by
    rw [List.map_map]
    exact hlost
  generalize hnews : (ps.map fun p => p.args.newProvider) = news at *
  have hdisjoint : Disjoint deal.holding {q | q ∈ news} := by
    apply Set.disjoint_left.mpr
    intro q hq hmem
    rw [← hnews] at hmem
    obtain ⟨p, hp, rfl⟩ := List.mem_map.mp hmem
    exact hnone p hp hq
  have hcard : ({q | q ∈ news} : Set Address).ncard = ps.length := by
    have hset : ({q | q ∈ news} : Set Address) = (news.toFinset : Set Address) := by
      ext q
      simp
    rw [hset, Set.ncard_coe_finset, List.toFinset_card_of_nodup hdifferent, ← hnews, List.length_map]
  rw [hholding, Set.ncard_union_eq hdisjoint, hcard, Set.injOn_union hdisjoint, ← hlost',
    List.nodup_map_iff_inj_on hdifferent]
  have hbefore : Set.InjOn (fun q => (deal'.shardAllocations q).shardIndex) deal.holding ↔
      Set.InjOn (fun q => (deal.shardAllocations q).shardIndex) deal.holding :=
    Set.EqOn.injOn_iff hkept
  rw [hbefore]
  refine and_congr_right fun _ => and_congr_right fun _ => and_congr ⟨fun hinj x hx y hy => hinj hx hy,
    fun hinj x hx y hy => hinj x hx y hy⟩ ?_
  constructor
  · intro hne q hq hmem
    obtain ⟨q', hq', heq⟩ := List.mem_map.mp hmem
    exact hne q hq q' hq' ((hkept q hq).trans heq.symm)
  · intro hout q hq q' hq' heq
    exact hout q hq (List.mem_map.mpr ⟨q', hq', heq.symm.trans (hkept q hq)⟩)

end Chain

/-! ## The run -/

section Runs

variable {this : Address} {env : OrchestratorEnv this} {s : DealOrchestrator} {dealId : String}
  {shards : List ShardRow} {answers : ShardRow → Option RepairAnswer}

/-- The rows that the run goes through. -/
def toRepair (shards : List ShardRow) : List ShardRow :=
  if (shards.filter fun r => r.active).length < 15 then shards.filter fun r => !r.active else []

/-- The active rows, and the inactive ones if there are fewer than 15, have each of the 15 indices once. The providers
that the selection puts first are fresh. The contract has 15 different indices for the providers that hold an active
shard and the ones that are replaced. -/
structure Healable (env : OrchestratorEnv this) (s : DealOrchestrator) (dealId : String) (shards : List ShardRow)
    (answers : ShardRow → Option RepairAnswer) : Prop where
  rows : ((activeShardsOf s.db dealId ++ toRepair shards).map ShardRow.shardIndex).Perm (List.range 15)
  fresh : FreshProviders env s dealId ((toRepair shards).filterMap (planned env dealId answers))
  onChain : ∃ id ∈ env.readNumber dealId,
    (s.chain.market.deals id).holding.ncard + (toRepair shards).length = 15 ∧
      Set.InjOn (s.chain.market.indexOf id) (s.chain.market.deals id).holding ∧
      (lostIndices (s.chain.market.deals id).shardAllocations
        (((toRepair shards).filterMap (planned env dealId answers)).map fun p => p.args.oldProvider)).Nodup ∧
      ∀ q ∈ (s.chain.market.deals id).holding, s.chain.market.indexOf id q ∉
        lostIndices (s.chain.market.deals id).shardAllocations
          (((toRepair shards).filterMap (planned env dealId answers)).map fun p => p.args.oldProvider)

/-- A run without an error is its loop. -/
theorem monitorDeal_eq (h : (s.monitorDeal env dealId shards answers).threw = false) :
    s.monitorDeal env dealId shards answers =
      DealOrchestrator.repairShards env dealId answers (toRepair shards) s := by
  unfold DealOrchestrator.monitorDeal toRepair at *
  split
  · next hfew =>
    rw [if_pos hfew] at h
    unfold DealOrchestrator.repairDeal at h ⊢
    simp only at h ⊢
    split at h
    · cases h
    · next henough => rw [if_neg henough]
  · rfl

theorem mem_toRepair (hselects : DealOrchestrator.SelectsShards s.db dealId shards) {r : ShardRow}
    (h : r ∈ toRepair shards) : r ∈ s.db.shards ∧ r.dealId = dealId ∧ r.active = false := by
  unfold toRepair at h
  split at h
  · obtain ⟨hr, hinactive⟩ := List.mem_filter.mp h
    obtain ⟨hmem, hdeal⟩ := List.mem_filter.mp (hselects.mem_iff.mp hr)
    exact ⟨hmem, by simpa using hdeal, by simpa using hinactive⟩
  · cases h

theorem toRepair_nodup (hselects : DealOrchestrator.SelectsShards s.db dealId shards)
    (hkeys : (s.db.shards.map ShardRow.key).Nodup) : (toRepair shards).Nodup := by
  unfold toRepair
  split
  · exact (hselects.nodup_iff.mpr (hkeys.of_map.filter _)).filter _
  · exact List.nodup_nil

/-- The indices of the active rows at the end of the run. -/
theorem activeShardsOf_repaired (hselects : DealOrchestrator.SelectsShards s.db dealId shards)
    (h : RepairsRows env dealId answers (toRepair shards) s
      (DealOrchestrator.repairShards env dealId answers (toRepair shards) s)) :
    ((activeShardsOf (DealOrchestrator.repairShards env dealId answers (toRepair shards) s).state.db dealId).map
      ShardRow.shardIndex).Perm ((activeShardsOf s.db dealId ++ toRepair shards).map ShardRow.shardIndex) := by
  -- a repair changes the provider and the flag of a row, not its index
  have hrow : ∀ r : ShardRow, (r.repaired env dealId answers).dealId = r.dealId ∧
      (r.repaired env dealId answers).shardIndex = r.shardIndex := by
    intro r
    unfold ShardRow.repaired
    split
    · exact ⟨rfl, rfl⟩
    · exact ⟨rfl, rfl⟩
  have hactive : ∀ r ∈ toRepair shards, (r.repaired env dealId answers).active = true := by
    intro r hr
    unfold ShardRow.repaired
    obtain ⟨p, hp⟩ := Option.isSome_iff_exists.mp (h.plan r hr)
    rw [hp]
    rfl
  -- a row of the deal is active in the end if it was active before or has been repaired
  have hfilter : (activeShardsOf (DealOrchestrator.repairShards env dealId answers (toRepair shards) s).state.db
      dealId).map ShardRow.shardIndex =
      (s.db.shards.filter fun r => r.dealId = dealId ∧ (r.active = true ∨ r ∈ toRepair shards)).map
        ShardRow.shardIndex := by
    unfold activeShardsOf
    rw [h.shards, List.filter_map, List.map_map]
    have hcond : s.db.shards.filter ((fun r => decide (r.dealId = dealId ∧ r.active = true)) ∘ fun r =>
        if r ∈ toRepair shards then r.repaired env dealId answers else r) =
        s.db.shards.filter fun r => r.dealId = dealId ∧ (r.active = true ∨ r ∈ toRepair shards) := by
      apply List.filter_congr
      intro r _
      by_cases hr : r ∈ toRepair shards
      · simp [hr, hrow r, hactive r hr]
      · simp [hr]
    rw [hcond]
    apply List.map_congr_left
    intro r _
    show (if r ∈ toRepair shards then r.repaired env dealId answers else r).shardIndex = r.shardIndex
    split
    · exact (hrow r).2
    · rfl
  rw [hfilter]
  apply List.Perm.map
  -- with fewer than 15 active shards all others are repaired, else none
  by_cases hfew : (shards.filter fun r => r.active).length < 15
  · have hrepair : toRepair shards = shards.filter fun r => !r.active := if_pos hfew
    have hall : s.db.shards.filter (fun r => r.dealId = dealId ∧ (r.active = true ∨ r ∈ toRepair shards)) =
        s.db.shards.filter fun r => r.dealId = dealId := by
      apply List.filter_congr
      intro r hr
      by_cases hdeal : r.dealId = dealId
      · have hmem : r ∈ shards := hselects.mem_iff.mpr (List.mem_filter.mpr ⟨hr, by simpa using hdeal⟩)
        cases hact : r.active <;> simp [hdeal, hact, hrepair, hmem]
      · simp [hdeal]
    have hact : activeShardsOf s.db dealId =
        (s.db.shards.filter fun r => r.dealId = dealId).filter fun r => r.active := by
      unfold activeShardsOf
      rw [List.filter_filter]
      apply List.filter_congr
      intro r _
      simp [Bool.and_comm]
    rw [hall, hact, hrepair]
    refine (List.filter_append_perm (fun r => r.active) _).symm.trans ?_
    exact List.Perm.append_left _ (hselects.filter _).symm
  · have hrepair : toRepair shards = [] := if_neg hfew
    rw [hrepair, List.append_nil]
    unfold activeShardsOf
    apply List.Perm.of_eq
    apply List.filter_congr
    intro r _
    simp

/-- Fifteen different indices, among them those without an active row. -/
theorem rows_healed_iff {active missing : List ShardRow}
    (hother : ∀ m ∈ missing, ∀ r ∈ active, r.shardIndex ≠ m.shardIndex) :
    ((∀ i, i ∈ missing.map ShardRow.shardIndex ↔ i < 15 ∧ ∀ r ∈ active, r.shardIndex ≠ i) ∧
        ((active ++ missing).map ShardRow.shardIndex).length = 15 ∧
        ((active ++ missing).map ShardRow.shardIndex).Nodup) ↔
      ((active ++ missing).map ShardRow.shardIndex).Perm (List.range 15) := by
  constructor
  · intro ⟨hmissing, hlength, _⟩
    have hsubset : List.range 15 ⊆ (active ++ missing).map ShardRow.shardIndex := by
      intro i hi
      rw [List.map_append, List.mem_append]
      by_cases hrow : ∀ r ∈ active, r.shardIndex ≠ i
      · exact Or.inr ((hmissing i).mpr ⟨List.mem_range.mp hi, hrow⟩)
      · push Not at hrow
        obtain ⟨r, hr, hindex⟩ := hrow
        exact Or.inl (List.mem_map.mpr ⟨r, hr, hindex⟩)
    refine ((List.nodup_range.subperm hsubset).perm_of_length_le ?_).symm
    rw [hlength, List.length_range]
  · intro hperm
    refine ⟨fun i => ⟨fun hi => ⟨?_, ?_⟩, fun ⟨hi, hrow⟩ => ?_⟩, by rw [hperm.length_eq, List.length_range],
      hperm.nodup_iff.mpr List.nodup_range⟩
    · exact List.mem_range.mp (hperm.mem_iff.mp (by rw [List.map_append]; exact List.mem_append_right _ hi))
    · obtain ⟨m, hm, rfl⟩ := List.mem_map.mp hi
      exact hother m hm
    · have hmem := hperm.mem_iff.mpr (List.mem_range.mpr hi)
      rw [List.map_append, List.mem_append] at hmem
      rcases hmem with hmem | hmem
      · obtain ⟨r, hr, hindex⟩ := List.mem_map.mp hmem
        exact absurd hindex (hrow r hr)
      · exact hmem

/-- The planned placements are for the missing shards, in their order. -/
theorem filterMap_planned_index {l : List ShardRow} (h : ∀ r ∈ l, (planned env dealId answers r).isSome) :
    (l.filterMap (planned env dealId answers)).map Placement.shardIndex = l.map ShardRow.shardIndex := by
  induction l with
  | nil => rfl
  | cons r rest ih =>
    obtain ⟨p, hp⟩ := Option.isSome_iff_exists.mp (h r List.mem_cons_self)
    rw [List.filterMap_cons, hp]
    show p.shardIndex :: _ = _
    rw [ih fun r' hr' => h r' (List.mem_cons_of_mem _ hr'), (planned_dealId hp).1]
    rfl

/-- The primary key has one row for each provider of a deal. -/
theorem activeProviders_nodup {db : Database} (h : (db.shards.map ShardRow.key).Nodup) :
    ((activeShardsOf db dealId).map ShardRow.providerAddress).Nodup := by
  have hkeys : ((activeShardsOf db dealId).map ShardRow.key).Nodup := h.sublist (List.filter_sublist.map _)
  refine (List.nodup_map_iff_inj_on hkeys.of_map).mpr fun x hx y hy hprovider => ?_
  apply List.inj_on_of_nodup_map hkeys hx hy
  have hx := (List.mem_filter.mp hx).2
  have hy := (List.mem_filter.mp hy).2
  simp only [Bool.decide_and, Bool.and_eq_true, decide_eq_true_eq] at hx hy
  simp only [ShardRow.key, hx.1, hy.1, hprovider]

/-- **Orchestrated repair heals the deal** exactly if it is healable: for every run of `monitorDeal` by itself without
an error, from tables and contracts of any content. -/
theorem healed_iff (env : OrchestratorEnv this) {s : DealOrchestrator} {dealId : String} {shards : List ShardRow}
    {answers : ShardRow → Option RepairAnswer} (hkeys : (s.db.shards.map ShardRow.key).Nodup)
    (hselects : DealOrchestrator.SelectsShards s.db dealId shards)
    (hdone : (s.monitorDeal env dealId shards answers).threw = false) :
    Healed env s (s.monitorDeal env dealId shards answers).state dealId
        (s.monitorDeal env dealId shards answers).placements ↔
      Healable env s dealId shards answers := by
  -- a pass that throws nothing has gone through all missing shards
  have hloop := monitorDeal_eq hdone
  rw [hloop] at hdone ⊢
  have hrows := repairsRows_of_repairShards hkeys (fun r => mem_toRepair hselects) (toRepair_nodup hselects hkeys) hdone
  have hafter := activeShardsOf_repaired hselects hrows
  have hdeal := fun id hid => @repairsDeal_of_repairShards _ env s dealId answers (toRepair shards) id hid hdone
  generalize hout : DealOrchestrator.repairShards env dealId answers (toRepair shards) s = o at *
  -- the placements are those that were planned, in the order of the indices
  have hindices : o.placements.map Placement.shardIndex = (toRepair shards).map ShardRow.shardIndex := by
    rw [hrows.placements]
    exact filterMap_planned_index hrows.plan
  have hlength : o.placements.length = (toRepair shards).length := by
    simpa using congrArg List.length hindices
  -- a missing shard has an index that no active row has
  have hother : ∀ m ∈ toRepair shards, ∀ r ∈ activeShardsOf s.db dealId, r.shardIndex ≠ m.shardIndex := by
    intro m hm r hr hindex
    obtain ⟨hmem, hcond⟩ := List.mem_filter.mp hr
    simp only [Bool.decide_and, Bool.and_eq_true, decide_eq_true_eq] at hcond
    have heq := hrows.alone m hm r hmem hcond.1 hindex
    rw [heq, (mem_toRepair hselects hm).2.2] at hcond
    exact absurd hcond.2 (by simp)
  -- the new providers hold no shard of the deal
  have hshard : ∀ id, env.readNumber dealId = some id → FreshProviders env s dealId o.placements →
      ∀ p ∈ o.placements, p.args.newProvider ∉ (s.chain.market.deals id).holding := by
    intro id hid hfresh p hp
    have hno := hfresh.noShard p hp
    rw [hrows.placements] at hp
    obtain ⟨r, -, hplan⟩ := List.mem_filterMap.mp hp
    rw [Option.some.inj ((planned_dealId hplan).2.symm.trans hid)] at hno
    exact hno
  constructor
  -- what is healed in the end was healable at the start, and conversely, part by part
  · intro h
    refine ⟨(rows_healed_iff hother).mp ⟨?_, ?_, ?_⟩, ?_, ?_⟩
    · rw [← hindices]
      exact h.missing
    · rw [← hafter.length_eq, List.length_map]
      exact h.rows
    · exact hafter.nodup_iff.mp h.indices
    · rw [← hrows.placements]
      exact h.fresh
    · obtain ⟨id, hid, hchain⟩ := h.onChain
      refine ⟨id, hid, ?_⟩
      rw [← hlength, ← hrows.placements]
      exact ((hdeal id hid).fifteen_iff h.fresh.different (hshard id hid h.fresh)).mp hchain
  · intro h
    have hfresh : FreshProviders env s dealId o.placements := by
      rw [hrows.placements]
      exact h.fresh
    obtain ⟨hmissing, hfifteen, hnodup⟩ := (rows_healed_iff hother).mpr h.rows
    refine ⟨?_, ?_, hfresh, ?_, hafter.nodup_iff.mpr hnodup, ?_, ?_⟩
    · rw [hindices]
      rw [List.map_append] at hnodup
      exact hnodup.of_append_right
    · rw [hindices]
      exact hmissing
    · rw [← hafter.length_eq, List.length_map] at hfifteen
      exact hfifteen
    · exact activeProviders_nodup hrows.keys
    · obtain ⟨id, hid, hchain⟩ := h.onChain
      refine ⟨id, hid, ((hdeal id hid).fifteen_iff hfresh.different (hshard id hid hfresh)).mpr ?_⟩
      rw [← hlength, ← hrows.placements] at hchain
      exact hchain

end Runs

/-! ### One shard lost, and three never stored -/

namespace SmallOrchestrator

open SmallMarket

/-- A deal whose first shard is lost. -/
def deal : Deal where
  client := client.addr
  status := .Active
  providers := (List.finRange 15).map fun i => (provider i).addr
  shardAllocations p :=
    if 10 ≤ p.toNat ∧ p.toNat < 25 then { shardIndex := p.toNat - 10, shardCID := "QmShard", active := 10 < p.toNat }
    else {}
  activeShards := 14

/-- The contracts, with a registered spare provider and the deal. -/
def chain : System :=
  let s := run (System.step this) deployed [spare.callsRegistry 0 (.registerProvider "spare" "ep" "na" 5000)]
  { s with market := { s.market with deals := fun id => if id = 0 then deal else {}, dealCount := 1 } }

def row (i : Fin 15) (active : Bool) : ShardRow :=
  { dealId := "0", providerAddress := hexAddress (provider i).addr, shardIndex := i, shardCid := "QmShard", active }

/-- Of the providers only the spare one is active. It has fifteen pledges. -/
def providers : List ProviderRow :=
  { address := hexAddress spare.addr } ::
    (List.finRange 15).map fun i => { address := hexAddress (provider i).addr, active := false }

def db : Database :=
  { providers, shards := (List.finRange 15).map fun i => row i (0 < i.val) }

def capacityPledges : List ReplicationOrchestrator.PledgeRow :=
  List.replicate 15 { providerAddress := hexAddress spare.addr, capacityGb := 1 }

def start : DealOrchestrator := { chain, db, capacityPledges }

def env : OrchestratorEnv this where
  signer := owner
  readNumber t := if t = "0" then some 0 else none
  readAddress t := (spare.addr :: params.selectedProviders).find? fun a => hexAddress a = t
  columns := providerColumns ++ ["reput_score"]
  reputScore _ := 50
  perShardSize := 0

def answers (_ : ShardRow) : Option RepairAnswer :=
  some
    { newShardCID := "QmNew", providers := selectionRows env.reputScore db capacityPledges env.perShardSize, now := 0 }

def result : RepairOutcome := start.monitorDeal env "0" db.shards answers

/-- The first three shards have no rows. -/
def fewRows : DealOrchestrator :=
  { start with db := { db with shards := (List.finRange 12).map fun i => row (i.addNat 3) true } }

/-- The providers of the example that hold a shard. -/
theorem mem_holding {p : Address} : p ∈ deal.holding ↔ 11 ≤ p.toNat ∧ p.toNat < 25 := by
  show (deal.shardAllocations p).active = true ↔ _
  simp only [deal]
  split
  · next h =>
    simp only [decide_eq_true_eq]
    omega
  · next h =>
    simp only [Bool.false_eq_true, false_iff]
    omega

theorem index_of_mem {p : Address} (h : p ∈ deal.holding) : (deal.shardAllocations p).shardIndex = p.toNat - 10 := by
  have hp := mem_holding.mp h
  simp only [deal]
  rw [if_pos ⟨by omega, hp.2⟩]

/-- There are fourteen of them. -/
theorem ncard_holding : deal.holding.ncard = 14 := by
  have hset : deal.holding = ((Finset.Icc 11 24).image (BitVec.ofNat 160) : Finset Address) := by
    ext p
    rw [mem_holding]
    simp only [Finset.coe_image, Finset.coe_Icc, Set.mem_image, Set.mem_Icc]
    constructor
    · intro h
      exact ⟨p.toNat, by omega, by simp⟩
    · intro ⟨n, hn, hp⟩
      subst hp
      rw [BitVec.toNat_ofNat, Nat.mod_eq_of_lt (by omega)]
      omega
  rw [hset, Set.ncard_coe_finset]
  decide +kernel

theorem plan_eq : (toRepair db.shards).filterMap (planned env "0" answers) =
    [{ shardIndex := 0, newProvider := hexAddress spare.addr, newShardCID := "QmNew",
       args := { dealId := 0, oldProvider := (provider 0).addr, newProvider := spare.addr } }] := by
  decide +kernel

theorem deals_start : start.chain.market.deals 0 = deal := rfl

/-- The example meets all conditions of the healing. -/
theorem start_healable : Healable env start "0" db.shards answers where
  rows := by decide +kernel
  fresh := by
    rw [plan_eq]
    refine ⟨List.nodup_singleton _, ?_, ?_⟩
    · have hother : ∀ r ∈ activeShardsOf start.db "0", r.providerAddress ≠ hexAddress spare.addr := by decide +kernel
      rw [List.forall_mem_singleton]
      intro r hr hread
      -- an address is only read from its own spelling
      have hspelled := List.find?_some hread
      exact hother r hr (of_decide_eq_true hspelled).symm
    · rw [List.forall_mem_singleton, deals_start, mem_holding]
      decide
  onChain := by
    refine ⟨0, rfl, ?_⟩
    have hlost : lostIndices deal.shardAllocations [(provider 0).addr] = [0] := by decide +kernel
    rw [plan_eq, deals_start, ncard_holding, List.map_singleton, hlost]
    refine ⟨by decide +kernel, fun p hp q hq heq => ?_, List.nodup_singleton 0, fun q hq hmem => ?_⟩
    · have hp' := mem_holding.mp hp
      have hq' := mem_holding.mp hq
      have hindex : p.toNat - 10 = q.toNat - 10 := by
        rw [← index_of_mem hp, ← index_of_mem hq]
        exact heq
      exact BitVec.eq_of_toNat_eq (by omega)
    · have hq' := mem_holding.mp hq
      have hindex : q.toNat - 10 = 0 := by
        rw [← index_of_mem hq]
        exact List.mem_singleton.mp hmem
      omega

theorem result_healed :
    result.placements.map Placement.shardIndex = [0] ∧ Healed env start result.state "0" result.placements := by
  obtain ⟨hindices, hdone⟩ :
      result.placements.map Placement.shardIndex = [0] ∧ result.threw = false := by
    decide +kernel
  refine ⟨hindices, ?_⟩
  apply (healed_iff env (by decide +kernel) (List.Perm.of_eq (by decide +kernel)) hdone).mpr
  exact start_healable

/-- The run ends without an error, and three shards are missing as before. -/
theorem fewRows_not_healed :
    (activeShardsOf fewRows.db "0").length = 12 ∧
      (fewRows.monitorDeal env "0" fewRows.db.shards answers).threw = false ∧
      ¬ Healed env fewRows (fewRows.monitorDeal env "0" fewRows.db.shards answers).state "0"
        (fewRows.monitorDeal env "0" fewRows.db.shards answers).placements := by
  refine ⟨by decide +kernel, ?_⟩
  have hoff : (fewRows.monitorDeal env "0" fewRows.db.shards answers).threw = false ∧
      (activeShardsOf (fewRows.monitorDeal env "0" fewRows.db.shards answers).state.db "0").length ≠ 15 := by
    decide +kernel
  exact ⟨hoff.1, fun h => hoff.2 h.rows⟩

end SmallOrchestrator

end Kyneto
