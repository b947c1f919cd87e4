import Kyneto.StorageMarketplace.Solvency

/-!
# Shards

A deal stores who holds its shards three times over: in the `providers` array, in the
`shardAllocations` mapping and in the `activeShards` counter. `ShardsSound` says that the three agree
and that the deal can still be read: fifteen different providers, active shards only among them and
with different indices, and at least ten of them, as counted.

`createDeal` checks its fifteen providers, and losing a shard keeps the three in step. `repairShard`
takes the old and the new provider from its caller and checks neither against the deal; nor does it
check that the deal exists. `shards_along_iff` says exactly which repairs and creations are harmless.
-/

namespace Kyneto

open Evm

/-- The three records of a deal's shards agree, and at least ten shards are held. -/
structure ShardsSound (deal : Deal) : Prop where
  length : deal.providers.length = SHARDS_PER_FILE
  nodup : deal.providers.Nodup
  mem : ∀ p, (deal.shardAllocations p).active = true → p ∈ deal.providers
  index_lt : ∀ p, (deal.shardAllocations p).active = true →
    (deal.shardAllocations p).shardIndex < SHARDS_PER_FILE
  index_inj : ∀ p q, (deal.shardAllocations p).active = true →
    (deal.shardAllocations q).active = true →
    (deal.shardAllocations p).shardIndex = (deal.shardAllocations q).shardIndex → p = q
  count : deal.activeShards = {p | (deal.shardAllocations p).active = true}.ncard
  enough : MIN_PROVIDERS ≤ deal.activeShards

/-- Every created deal that is still open has sound shards. -/
def AllSound (s : System) : Prop :=
  ∀ id < s.market.dealCount, (s.market.deals id).status.isOpen = true →
    ShardsSound (s.market.deals id)

/-! ## Replacing a provider -/

theorem replaceFirst_of_notMem {old new : Address} {l : List Address} (h : old ∉ l) :
    replaceFirst old new l = l := by
  induction l with
  | nil => rfl
  | cons p rest ih =>
    rw [List.mem_cons, not_or] at h
    rw [replaceFirst, if_neg (Ne.symm h.1), ih h.2]

theorem replaceFirst_append {old new : Address} {l₁ : List Address} (l₂ : List Address)
    (h : old ∉ l₁) : replaceFirst old new (l₁ ++ old :: l₂) = l₁ ++ new :: l₂ := by
  induction l₁ with
  | nil => simp [replaceFirst]
  | cons p rest ih =>
    rw [List.mem_cons, not_or] at h
    rw [List.cons_append, replaceFirst, if_neg (Ne.symm h.1), ih h.2, List.cons_append]

theorem length_replaceFirst (old new : Address) (l : List Address) :
    (replaceFirst old new l).length = l.length := by
  induction l with
  | nil => rfl
  | cons p rest ih =>
    rw [replaceFirst]
    split
    · rfl
    · rw [List.length_cons, List.length_cons, ih]

/-- Replacing keeps a duplicate-free list so exactly if the new entry is not among the others. -/
theorem nodup_replaceFirst_iff {old new : Address} {l : List Address} (hl : l.Nodup)
    (hmem : old ∈ l) : (replaceFirst old new l).Nodup ↔ new = old ∨ new ∉ l := by
  obtain ⟨l₁, l₂, rfl, hold⟩ := List.eq_append_cons_of_mem hmem
  rw [replaceFirst_append l₂ hold]
  simp only [List.nodup_append, List.nodup_cons, List.mem_append, List.mem_cons] at hl ⊢
  grind

/-- Whoever is not replaced stays in the list. -/
theorem mem_replaceFirst {old new p : Address} {l : List Address} (hold : p ≠ old) (h : p ∈ l) :
    p ∈ replaceFirst old new l := by
  induction l with
  | nil => exact h
  | cons q rest ih =>
    rw [replaceFirst]
    rcases List.mem_cons.mp h with rfl | hrest
    · rw [if_neg hold]
      exact List.mem_cons_self
    · split
      · exact List.mem_cons_of_mem _ hrest
      · exact List.mem_cons_of_mem _ (ih hrest)

theorem new_mem_replaceFirst {old new : Address} {l : List Address} (h : old ∈ l) :
    new ∈ replaceFirst old new l := by
  obtain ⟨l₁, l₂, rfl, hold⟩ := List.eq_append_cons_of_mem h
  rw [replaceFirst_append l₂ hold]
  exact List.mem_append_right _ List.mem_cons_self

/-- The repair fits the deal: either the old provider is in the deal and the new one takes its place
without being there already, or the old one is not in the deal and the new one is, with its shard
lost. In both cases no active shard has the index the repaired one is going to get. -/
def RepairFits (deal : Deal) (oldProvider newProvider : Address) : Prop :=
  ((oldProvider ∈ deal.providers ∧ (newProvider = oldProvider ∨ newProvider ∉ deal.providers)) ∨
    (oldProvider ∉ deal.providers ∧ newProvider ∈ deal.providers ∧
      (deal.shardAllocations newProvider).active = false)) ∧
  (deal.shardAllocations oldProvider).shardIndex < SHARDS_PER_FILE ∧
  ∀ p, (deal.shardAllocations p).active = true →
    (deal.shardAllocations p).shardIndex ≠ (deal.shardAllocations oldProvider).shardIndex

section Repair

variable {deal : Deal} {old new : Address} {cid : String}

theorem repairedDeal_new :
    (repairedDeal deal old new cid).shardAllocations new =
      { shardIndex := (deal.shardAllocations old).shardIndex
        shardCID := cid
        sizeGB := (deal.shardAllocations old).sizeGB
        active := true } := by
  simp [repairedDeal]

theorem repairedDeal_other {p : Address} (hnew : p ≠ new) (hold : p ≠ old) :
    (repairedDeal deal old new cid).shardAllocations p = deal.shardAllocations p := by
  simp [repairedDeal, hnew, hold]

/-- After the repair the new provider is active, and otherwise the same ones as before. -/
theorem repairedDeal_active (hinactive : (deal.shardAllocations old).active = false)
    (p : Address) :
    ((repairedDeal deal old new cid).shardAllocations p).active = true ↔
      p = new ∨ (deal.shardAllocations p).active = true := by
  by_cases hnew : p = new
  · subst hnew
    simp [repairedDeal_new]
  · by_cases hold : p = old
    · subst hold
      simp [repairedDeal, hnew, hinactive]
    · rw [repairedDeal_other hnew hold]
      simp [hnew]

/-- A repair keeps the counts of a deal right exactly if the new provider fits in. -/
theorem repaired_sound_iff (h : ShardsSound deal)
    (hinactive : (deal.shardAllocations old).active = false) :
    ShardsSound (repairedDeal deal old new cid) ↔ RepairFits deal old new := by
  have hset : {p | ((repairedDeal deal old new cid).shardAllocations p).active = true} =
      insert new {p | (deal.shardAllocations p).active = true} := by
    ext p
    exact repairedDeal_active hinactive p
  constructor
  · intro hs
    -- the counter went up, so the new provider had no active shard
    have hnew : (deal.shardAllocations new).active = false := by
      by_contra hact
      have hmem : new ∈ {p | (deal.shardAllocations p).active = true} := by simpa using hact
      have hcount := hs.count
      rw [hset, Set.insert_eq_of_mem hmem, ← h.count] at hcount
      exact absurd hcount (Nat.succ_ne_self _)
    -- who is replaced, at which index, and that the index is free, is read off the new deal
    refine ⟨?_, ?_, ?_⟩
    · by_cases hold : old ∈ deal.providers
      · exact Or.inl ⟨hold, (nodup_replaceFirst_iff h.nodup hold).mp hs.nodup⟩
      · have hmem := hs.mem new ((repairedDeal_active hinactive new).mpr (Or.inl rfl))
        have hsame : (repairedDeal deal old new cid).providers = deal.providers :=
          replaceFirst_of_notMem hold
        rw [hsame] at hmem
        exact Or.inr ⟨hold, hmem, hnew⟩
    · have hlt := hs.index_lt new ((repairedDeal_active hinactive new).mpr (Or.inl rfl))
      rwa [repairedDeal_new] at hlt
    · intro p hp heq
      have hpn : p ≠ new := by
        rintro rfl
        simp [hnew] at hp
      have hpo : p ≠ old := by
        rintro rfl
        simp [hinactive] at hp
      apply hpn
      apply hs.index_inj p new ((repairedDeal_active hinactive p).mpr (Or.inr hp))
        ((repairedDeal_active hinactive new).mpr (Or.inl rfl))
      rw [repairedDeal_new, repairedDeal_other hpn hpo]
      exact heq
  -- conversely, the new provider has no active shard yet, in both cases
  · rintro ⟨hwho, hlt, hfree⟩
    have hnew : (deal.shardAllocations new).active = false := by
      rcases hwho with ⟨hold, rfl | hnot⟩ | ⟨-, -, hlost⟩
      · exact hinactive
      · by_contra hact
        exact hnot (h.mem new (by simpa using hact))
      · exact hlost
    have hother : ∀ p, (deal.shardAllocations p).active = true → p ≠ new ∧ p ≠ old := by
      intro p hp
      constructor
      · rintro rfl
        simp [hnew] at hp
      · rintro rfl
        simp [hinactive] at hp
    -- the shards of the others keep their index
    have hindex : ∀ p, (deal.shardAllocations p).active = true →
        ((repairedDeal deal old new cid).shardAllocations p).shardIndex =
          (deal.shardAllocations p).shardIndex := by
      intro p hp
      rw [repairedDeal_other (hother p hp).1 (hother p hp).2]
    -- the fields of `ShardsSound`, in order
    refine ⟨?_, ?_, ?_, ?_, ?_, ?_, ?_⟩
    · exact (length_replaceFirst _ _ _).trans h.length
    · rcases hwho with ⟨hold, hfits⟩ | ⟨hold, -, -⟩
      · exact (nodup_replaceFirst_iff h.nodup hold).mpr hfits
      · show (replaceFirst old new deal.providers).Nodup
        rw [replaceFirst_of_notMem hold]
        exact h.nodup
    · intro p hp
      show p ∈ replaceFirst old new deal.providers
      rcases (repairedDeal_active hinactive p).mp hp with rfl | hp
      · rcases hwho with ⟨hold, -⟩ | ⟨hold, hmem, -⟩
        · exact new_mem_replaceFirst hold
        · rw [replaceFirst_of_notMem hold]
          exact hmem
      · exact mem_replaceFirst (hother p hp).2 (h.mem p hp)
    · intro p hp
      rcases (repairedDeal_active hinactive p).mp hp with rfl | hp
      · rw [repairedDeal_new]
        exact hlt
      · rw [hindex p hp]
        exact h.index_lt p hp
    -- two active shards with one index: one of them is the new one, or neither is
    · intro p q hp hq heq
      rcases (repairedDeal_active hinactive p).mp hp with rfl | hp'
      · rcases (repairedDeal_active hinactive q).mp hq with rfl | hq'
        · rfl
        · rw [repairedDeal_new, hindex q hq'] at heq
          exact absurd heq.symm (hfree q hq')
      · rcases (repairedDeal_active hinactive q).mp hq with rfl | hq'
        · rw [repairedDeal_new, hindex p hp'] at heq
          exact absurd heq (hfree p hp')
        · rw [hindex p hp', hindex q hq'] at heq
          exact h.index_inj p q hp' hq' heq
    · have hmem : new ∉ {p | (deal.shardAllocations p).active = true} := by simp [hnew]
      rw [hset, Set.ncard_insert_of_notMem hmem (Set.toFinite _), ← h.count]
      rfl
    · exact h.enough.trans (Nat.le_succ _)

end Repair

/-! ## Assigning the shards of a new deal -/

theorem assigned_of_notMem {p : Address} {shards : List (Address × String × Nat)}
    (allocs : Address → ShardAllocation) (i : Nat) (h : p ∉ shards.map Prod.fst) :
    Deal.assigned allocs i shards p = allocs p := by
  induction shards generalizing allocs i with
  | nil => rfl
  | cons shard rest ih =>
    obtain ⟨provider, cid, size⟩ := shard
    rw [List.map_cons, List.mem_cons, not_or] at h
    rw [Deal.assigned, ih _ _ h.2, Function.update_of_ne h.1]

/-- Each of the listed providers gets an active shard, numbered by its place in the list. -/
theorem assigned_of_mem {p : Address} {shards : List (Address × String × Nat)}
    (allocs : Address → ShardAllocation) (i : Nat) (hnodup : (shards.map Prod.fst).Nodup)
    (h : p ∈ shards.map Prod.fst) :
    (Deal.assigned allocs i shards p).active = true ∧
      (Deal.assigned allocs i shards p).shardIndex = i + (shards.map Prod.fst).idxOf p := by
  induction shards generalizing allocs i with
  | nil => cases h
  | cons shard rest ih =>
    obtain ⟨provider, cid, size⟩ := shard
    rw [List.map_cons, List.nodup_cons] at hnodup
    rw [Deal.assigned, List.map_cons]
    by_cases hp : p = provider
    · subst hp
      rw [assigned_of_notMem _ _ hnodup.1, Function.update_self, List.idxOf_cons_self]
      exact ⟨rfl, rfl⟩
    · have hrest : p ∈ rest.map Prod.fst := by
        rcases List.mem_cons.mp h with rfl | hrest
        · exact absurd rfl hp
        · exact hrest
      obtain ⟨hactive, hindex⟩ := ih (Function.update allocs provider _) (i + 1) hnodup.2 hrest
      refine ⟨hactive, ?_⟩
      rw [hindex, List.idxOf_cons_ne _ (Ne.symm hp)]
      omega

/-- What the slot may hold for a creation to leave sound shards: active ones only of providers that
the new deal selects, which are written over. -/
def SlotFits (slot : Deal) (selected : List Address) : Prop :=
  ∀ p, (slot.shardAllocations p).active = true → p ∈ selected

/-- The creation fits its slot exactly if it leaves sound shards. -/
theorem created_sound_iff {m : StorageMarketplace} {msg : Msg} {params : DealParams}
    {price totalCost endTime : Nat}
    (hempty : (m.deals m.dealCount).providers = [])
    (hp : params.selectedProviders.length = SHARDS_PER_FILE)
    (hfst : params.shards.map Prod.fst = params.selectedProviders)
    (hnodup : params.selectedProviders.Nodup) :
    ShardsSound (createdDeal m msg params price totalCost endTime) ↔
      SlotFits (m.deals m.dealCount) params.selectedProviders := by
  -- the creation writes the lists in full, and the allocations one by one
  have hproviders : (createdDeal m msg params price totalCost endTime).providers =
      params.selectedProviders := by
    rw [createdDeal, Deal.assignShards_eq]
    simp only [Deal.fill, hempty, hfst, List.nil_append]
  have hallocs : (createdDeal m msg params price totalCost endTime).shardAllocations =
      Deal.assigned (m.deals m.dealCount).shardAllocations 0 params.shards := by
    rw [createdDeal, Deal.assignShards_eq]
    rfl
  have hcounter : (createdDeal m msg params price totalCost endTime).activeShards =
      SHARDS_PER_FILE := by
    rw [createdDeal, Deal.assignShards_eq]
    rfl
  have hnodup' : (params.shards.map Prod.fst).Nodup := by rwa [hfst]
  constructor
  -- an active shard that the new deal does not write over would be of no listed provider
  · intro hs p hactive
    by_contra hnot
    apply hnot
    rw [← hproviders]
    apply hs.mem p
    rw [hallocs, assigned_of_notMem _ _ (by rwa [hfst])]
    exact hactive
  · intro hfits
    -- active after the loop means: selected
    have hmem : ∀ p, ((createdDeal m msg params price totalCost endTime).shardAllocations p).active =
        true ↔ p ∈ params.selectedProviders := by
      intro p
      rw [hallocs]
      constructor
      · intro hactive
        by_contra hnot
        rw [assigned_of_notMem _ _ (by rwa [hfst])] at hactive
        exact hnot (hfits p hactive)
      · intro hsel
        exact (assigned_of_mem _ 0 hnodup' (by rwa [hfst])).1
    have hindex : ∀ p ∈ params.selectedProviders,
        ((createdDeal m msg params price totalCost endTime).shardAllocations p).shardIndex =
          params.selectedProviders.idxOf p := by
      intro p hsel
      rw [hallocs, (assigned_of_mem _ 0 hnodup' (by rwa [hfst])).2, hfst, Nat.zero_add]
    -- the fields of `ShardsSound`; the index of a shard is the place of its provider in the list
    refine ⟨?_, ?_, ?_, ?_, ?_, ?_, ?_⟩
    · rw [hproviders, hp]
    · rwa [hproviders]
    · intro p hactive
      rw [hproviders]
      exact (hmem p).mp hactive
    · intro p hactive
      have hsel := (hmem p).mp hactive
      rw [hindex p hsel, ← hp]
      exact List.idxOf_lt_length_of_mem hsel
    · intro p q hpa hqa heq
      have hpm := (hmem p).mp hpa
      rw [hindex p hpm, hindex q ((hmem q).mp hqa)] at heq
      exact (List.idxOf_inj hpm).mp heq
    · have hset : {p | ((createdDeal m msg params price totalCost endTime).shardAllocations p).active =
          true} = (params.selectedProviders.toFinset : Set Address) := by
        ext p
        simpa using hmem p
      rw [hcounter, hset, Set.ncard_coe_finset, List.toFinset_card_of_nodup hnodup, hp]
    · rw [hcounter]
      decide

/-! ## Losing a shard -/

/-- Losing a shard keeps the counts right, as long as there are enough shards left. -/
theorem lost_sound {deal : Deal} {provider : Address} (h : ShardsSound deal)
    (hactive : (deal.shardAllocations provider).active = true)
    (henough : MIN_PROVIDERS + 1 ≤ deal.activeShards) :
    ShardsSound (deal.withShards (deal.without provider) (deal.activeShards - 1)) := by
  -- only the flag of the lost shard changes
  have hold := deal.without_active provider
  have hindex : ∀ p, (deal.without provider p).shardIndex = (deal.shardAllocations p).shardIndex := by
    intro p
    by_cases hp : p = provider
    · subst hp
      simp [Deal.without]
    · simp [Deal.without, hp]
  refine ⟨h.length, h.nodup, ?_, ?_, ?_, ?_, ?_⟩
  · intro p hp
    exact h.mem p ((hold p).mp hp).2
  · intro p hp
    show (deal.without provider p).shardIndex < SHARDS_PER_FILE
    rw [hindex]
    exact h.index_lt p ((hold p).mp hp).2
  · intro p q hp hq heq
    have heq : (deal.without provider p).shardIndex = (deal.without provider q).shardIndex := heq
    rw [hindex, hindex] at heq
    exact h.index_inj p q ((hold p).mp hp).2 ((hold q).mp hq).2 heq
  -- one active shard less, and the counter is one less
  · have hset : {p | (deal.without provider p).active = true} =
        {p | (deal.shardAllocations p).active = true} \ {provider} := by
      ext p
      show (deal.without provider p).active = true ↔ _
      rw [hold, Set.mem_sdiff, Set.mem_singleton_iff, and_comm]
      rfl
    have hcount := Set.ncard_sdiff_singleton_of_mem
      (show provider ∈ {p | (deal.shardAllocations p).active = true} from hactive)
    show deal.activeShards - 1 = {p | (deal.without provider p).active = true}.ncard
    rw [hset, hcount, ← h.count]
  · show MIN_PROVIDERS ≤ deal.activeShards - 1
    omega

/-! ## Whole runs -/

/-- No provider is listed in a slot no deal has been created in. -/
def Unlisted (m : StorageMarketplace) : Prop :=
  ∀ id, m.dealCount ≤ id → (m.deals id).providers = []

/-- The call leaves the shards it touches in order, given that they were. -/
def ShardsFit {this : Address} (s : System) (a : Action this) : Prop :=
  match a.call with
  | .market (.createDeal params) =>
    SlotFits (s.market.deals s.market.dealCount) params.selectedProviders
  | .market (.repairShard dealId oldProvider newProvider _) =>
    dealId < s.market.dealCount → RepairFits (s.market.deals dealId) oldProvider newProvider
  | _ => True

/-- A deal is created, its first shard is lost, and `newProvider` is to replace it. -/
def SmallMarket.lossAndRepair (newProvider : Address) : List (Action SmallMarket.this) :=
  [client.calls 0 (.createDeal params),
    owner.calls 0 (.reportLostShard 0 (provider 0).addr),
    owner.calls 0 (.repairShard 0 (provider 0).addr newProvider "QmNewShard")]

section Runs

variable {this : Address} {s s' : System} {msg : Msg} {call : Call} {logs : List Log}

/-- Deals that do not exist yet have no providers, whatever happens. -/
theorem unlisted_effect (h : Unlisted s.market) (e : Effect this s msg call s' logs) :
    Unlisted s'.market := by
  have kept : ∀ {id fees deal pd}, Wrote s.market s'.market id deal s.market.dealCount fees pd →
      (s.market.dealCount ≤ id → deal.providers = []) → Unlisted s'.market :=
    fun w hd => w.beyond (P := fun d => d.providers = []) h (Nat.le_refl _) hd
  cases e with
  | idle _ books _ =>
    unfold Unlisted
    rw [books.deals, books.dealCount]
    exact h
  | created _ _ _ _ _ _ _ wrote =>
    exact wrote.beyond (P := fun d => d.providers = []) h (Nat.le_succ _)
      (fun hle => absurd hle (Nat.not_succ_le_self _))
  | renewed deal_eq _ _ _ wrote | completed deal_eq _ _ _ _ wrote
  | cancelled deal_eq _ _ _ wrote | lost deal_eq _ _ _ _ wrote
  | failed deal_eq _ _ _ _ _ wrote =>
    subst deal_eq
    exact kept wrote (fun hge => h _ hge)
  | @repaired dealId old new _ _ _ _ deal_eq _ _ _ _ wrote =>
    subst deal_eq
    apply kept wrote
    intro hge
    show replaceFirst old new (s.market.deals dealId).providers = []
    rw [h _ hge]
    rfl
  | retrieving _ _ market | claimed _ _ market | withdrawn _ market =>
    rw [market]
    exact h

/-- After a write, all shards are sound if those of the written deal are. -/
theorem allSound_wrote_iff {id fees : Nat} {deal : Deal} {pd : Address → List Nat}
    (h : AllSound s) (w : Wrote s.market s'.market id deal s.market.dealCount fees pd) :
    AllSound s' ↔
      (id < s.market.dealCount → deal.status.isOpen = true → ShardsSound deal) := by
  constructor
  · intro hs hid hopen
    have hsound := hs id (by rwa [w.dealCount])
    rw [w.deal_self] at hsound
    exact hsound hopen
  · intro hd i hi
    rw [w.dealCount] at hi
    by_cases hid : i = id
    · subst hid
      rw [w.deal_self]
      exact hd hi
    · rw [w.deal_of_ne hid]
      exact h i hi

theorem allSound_of_deals (h : AllSound s) (hd : s'.market.deals = s.market.deals)
    (hn : s'.market.dealCount = s.market.dealCount) : AllSound s' := by
  unfold AllSound
  rw [hd, hn]
  exact h

/-- A new deal keeps all counts right exactly if its own are. -/
theorem allSound_created_iff {fees : Nat} {deal : Deal} {pd : Address → List Nat}
    (h : AllSound s)
    (w : Wrote s.market s'.market s.market.dealCount deal (s.market.dealCount + 1) fees pd)
    (hopen : deal.status.isOpen = true) : AllSound s' ↔ ShardsSound deal := by
  constructor
  · intro hs
    have hsound := hs s.market.dealCount (by rw [w.dealCount]; exact Nat.lt_succ_self _)
    rw [w.deal_self] at hsound
    exact hsound hopen
  · intro hd i hi
    rw [w.dealCount] at hi
    rcases Nat.lt_succ_iff_lt_or_eq.mp hi with hlt | rfl
    · rw [w.deal_of_ne (Nat.ne_of_lt hlt)]
      exact h i hlt
    · rw [w.deal_self]
      intro _
      exact hd

/-- **A call keeps all shards sound exactly if it fits.** -/
theorem step_sound_iff {a : Action this} (hempty : Unlisted s.market) (h : AllSound s)
    (e : Effect this s a.msg a.call s' logs) : AllSound s' ↔ ShardsFit s a := by
  obtain ⟨msg, call, hzero, hne, hstd⟩ := a
  -- a closed deal has no shards to keep
  have closed : ∀ {id fees deal pd},
      Wrote s.market s'.market id deal s.market.dealCount fees pd →
      deal.status.isOpen = false → AllSound s' := by
    intro id fees deal pd w hc
    apply (allSound_wrote_iff h w).mpr
    intro _ hopen
    rw [hc] at hopen
    cases hopen
  cases e with
  | idle noDeal books _ =>
    have hfit : ShardsFit s (⟨msg, call, hzero, hne, hstd⟩ : Action this) := by
      unfold ShardsFit
      cases call with
      | token c => trivial
      | registry c => trivial
      | market c => cases c <;> trivial
    exact iff_of_true (allSound_of_deals h books.deals books.dealCount) hfit
  | created providers cids sizes nodup _ _ _ wrote =>
    rw [allSound_created_iff h wrote (by rw [createdDeal, Deal.assignShards_eq]; rfl)]
    exact created_sound_iff (hempty _ (Nat.le_refl _)) providers
      (DealParams.shards_map_fst providers cids sizes) nodup
  | renewed deal_eq isOpen _ _ wrote =>
    -- none of the fields about shards is written
    subst deal_eq
    refine iff_of_true ((allSound_wrote_iff h wrote).mpr ?_) trivial
    intro hid _
    obtain ⟨h₁, h₂, h₃, h₄, h₅, h₆, h₇⟩ := h _ hid isOpen
    exact ⟨h₁, h₂, h₃, h₄, h₅, h₆, h₇⟩
  | completed _ _ _ _ _ wrote | cancelled _ _ _ _ wrote | failed _ _ _ _ _ _ wrote =>
    exact iff_of_true (closed wrote rfl) trivial
  | lost deal_eq _ isOpen shard enough wrote =>
    subst deal_eq
    refine iff_of_true ((allSound_wrote_iff h wrote).mpr ?_) trivial
    intro hid _
    exact lost_sound (h _ hid isOpen) shard enough
  | repaired deal_eq _ isOpen oldShard _ wrote =>
    subst deal_eq
    rw [allSound_wrote_iff h wrote]
    constructor
    · intro hs hid
      exact (repaired_sound_iff (h _ hid isOpen) oldShard).mp (hs hid isOpen)
    · intro hfits hid _
      exact (repaired_sound_iff (h _ hid isOpen) oldShard).mpr (hfits hid)
  | retrieving _ _ market | claimed _ _ market | withdrawn _ market =>
    refine iff_of_true (allSound_of_deals h ?_ ?_) trivial
    all_goals simp [market, StorageMarketplace.setRetrieval]

/-- **Shards, exactly.** From the deployment on, the shards of all open deals are sound in every
state of a run if and only if every creation fits its slot and every repair fits its deal. -/
theorem shards_along_iff {s₀ : System} (h : s₀.Deployed this) (as : List (Action this)) :
    Along (System.step this) AllSound s₀ as ↔ Meets (System.step this) ShardsFit s₀ as := by
  obtain ⟨msg, treasury, hfresh⟩ := h.fresh
  refine along_iff_meets (I := fun s => Unlisted s.market ∧ s.NoApproval this) ?_ ?_ ?_ ?_ as
  · unfold AllSound
    rw [hfresh]
    intro id hid
    exact absurd hid (Nat.not_lt_zero _)
  · rw [hfresh]
    exact ⟨fun _ _ => rfl, h.noApproval⟩
  · intro s a s' logs hI hstep
    obtain ⟨he, hno⟩ := step_effect hI.2 hstep
    exact ⟨unlisted_effect hI.1 he, hno⟩
  · intro s a s' logs hI hs hstep
    exact step_sound_iff hI.1 hs (step_effect hI.2 hstep).1

theorem shards_along_iff_smallMarket :
    Along (System.step SmallMarket.this) AllSound SmallMarket.deployed
        (SmallMarket.setup ++ SmallMarket.lossAndRepair SmallMarket.spare.addr) ↔
      Meets (System.step SmallMarket.this) ShardsFit SmallMarket.deployed
        (SmallMarket.setup ++ SmallMarket.lossAndRepair SmallMarket.spare.addr) :=
  shards_along_iff SmallMarket.deployed_deployed _

/-- A lost shard is handed to a provider that holds another shard of the deal already. Afterwards
that provider is listed twice, two shards are gone, and the deal still counts 15. -/
theorem repairShard_not_sound :
    ¬ AllSound (SmallMarket.after
        (SmallMarket.lossAndRepair (SmallMarket.provider 1).addr)) ∧
      ((SmallMarket.after (SmallMarket.lossAndRepair (SmallMarket.provider 1).addr)).market.deals
        0).activeShards = SHARDS_PER_FILE := by
  constructor
  · intro h
    have hnodup := (h 0 (by decide +kernel) (by decide +kernel)).nodup
    revert hnodup
    decide +kernel
  · decide +kernel

end Runs

end Kyneto
