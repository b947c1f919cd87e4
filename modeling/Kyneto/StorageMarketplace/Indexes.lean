import Kyneto.PaymentDistributor.Settlement
import Kyneto.StorageMarketplace.Shards

/-!
# Two indexes of one relation

A deal lists its providers, and `providerDeals` lists the deals of a provider. A creation extends both lists; a repair
overwrites the first occurrence of the old provider in one, and in the other appends the deal for the new provider and
takes it from the old one, by swap and pop. `repairShard` does not ask whether the old provider is listed at all: if it
is not, nothing is overwritten, and the deal is appended all the same. `indexes_along_iff` says that nothing else brings
the two apart.
-/

namespace Kyneto

open Evm

/-- `providerDeals` has each deal as often as the deal has the provider. -/
def IndexesAgree (n : Network) : Prop :=
  ∀ p dealId, (n.market.providerDeals p).count dealId = (n.market.deals dealId).providers.count p

/-- A repair replaces a provider that the deal lists, or none by itself. -/
def RepairListed {sites : Sites} (n : Network) (a : NetworkAction sites) : Prop :=
  match a.call with
  | .base (.market (.repairShard dealId oldProvider newProvider _)) =>
    oldProvider = newProvider ∨ oldProvider ∈ (n.market.deals dealId).providers
  | _ => True

/-! ## Counting -/

section Counting

variable (dealId : Nat) (old new : Address)

/-- Swap and pop takes out one occurrence, whatever it does to the order. -/
theorem removeProviderDeal_perm {l : List Nat} (h : dealId ∈ l) :
    (removeProviderDeal dealId l).Perm (l.erase dealId) := by
  unfold removeProviderDeal
  rw [if_pos h]
  obtain ⟨l₁, l₂, rfl, hnot⟩ := List.eq_append_cons_of_mem h
  have hidx : (l₁ ++ dealId :: l₂).idxOf dealId = l₁.length := by
    rw [List.idxOf_append, if_neg hnot, List.idxOf_cons_self, Nat.zero_add]
  have herase : (l₁ ++ dealId :: l₂).erase dealId = l₁ ++ l₂ := by
    rw [List.erase_append_right _ hnot, List.erase_cons_head]
  rw [hidx, herase]
  induction l₂ using List.reverseRecOn with
  | nil => simp
  | append_singleton l₂ last _ =>
    have hset : (l₁ ++ dealId :: (l₂ ++ [last])).set l₁.length last = (l₁ ++ last :: l₂) ++ [last] := by simp
    have hlast : (l₁ ++ dealId :: (l₂ ++ [last])).getLastD 0 = last := by
      rw [← List.cons_append, ← List.append_assoc]
      exact List.getLastD_concat
    rw [hlast, hset, List.dropLast_concat, ← List.append_assoc]
    exact List.perm_middle.trans (List.perm_append_singleton last (l₁ ++ l₂)).symm

/-- Removing takes the first entry, if there is one. -/
theorem count_removeProviderDeal (l : List Nat) (id : Nat) :
    (removeProviderDeal dealId l).count id + (if id = dealId ∧ dealId ∈ l then 1 else 0) = l.count id := by
  by_cases h : dealId ∈ l
  · rw [(removeProviderDeal_perm dealId h).count_eq, List.count_erase]
    have hpos := List.count_pos_iff.mpr h
    by_cases hid : id = dealId
    · subst hid
      simp only [h, and_self, if_true, beq_self_eq_true]
      omega
    · have hne : (dealId == id) = false := by simpa using Ne.symm hid
      simp [hid, hne]
  · unfold removeProviderDeal
    simp [h]

/-- A deal is entered once for each place that the provider has in it. -/
theorem count_pushProviderDeals (pd : Address → List Nat) (l : List Address) (p : Address) (id : Nat) :
    (pushProviderDeals dealId pd l p).count id = (pd p).count id + if id = dealId then l.count p else 0 := by
  induction l generalizing pd with
  | nil => simp [pushProviderDeals]
  | cons q rest ih =>
    rw [pushProviderDeals, ih]
    by_cases hp : p = q
    · subst hp
      rw [Function.update_self, List.count_append, List.count_cons_self, List.count_singleton]
      by_cases hid : id = dealId
      · subst hid
        simp only [beq_self_eq_true, if_true]
        omega
      · have hne : (dealId == id) = false := by simpa using Ne.symm hid
        simp [hid, hne]
    · rw [Function.update_of_ne hp, List.count_cons_of_ne (Ne.symm hp)]

/-- Only the first place of the old provider changes hands. -/
theorem count_replaceFirst (l : List Address) (p : Address) :
    (replaceFirst old new l).count p + (if old ∈ l ∧ p = old then 1 else 0) =
      l.count p + if old ∈ l ∧ p = new then 1 else 0 := by
  induction l with
  | nil => simp [replaceFirst]
  | cons q rest ih =>
    rw [replaceFirst]
    by_cases hq : q = old
    · subst hq
      simp only [if_true, List.mem_cons_self, true_and, List.count_cons, beq_iff_eq]
      split_ifs <;> grind
    · have hmem : old ∈ q :: rest ↔ old ∈ rest := by simp [Ne.symm hq]
      simp only [if_neg hq, hmem, List.count_cons]
      omega

/-- What a repair does to the lists of deals: one more for the new provider, and one less for the old one if it had
any, or has just got it. -/
theorem count_repairedProviderDeals (pd : Address → List Nat) (p : Address) (id : Nat) :
    (repairedProviderDeals pd dealId old new p).count id +
        (if p = old ∧ id = dealId ∧ (old = new ∨ dealId ∈ pd old) then 1 else 0) =
      (pd p).count id + if p = new ∧ id = dealId then 1 else 0 := by
  have hpushed : ∀ q, (Function.update pd new (pd new ++ [dealId]) q).count id =
      (pd q).count id + if q = new ∧ id = dealId then 1 else 0 := by
    intro q
    by_cases hq : q = new
    · subst hq
      rw [Function.update_self, List.count_append, List.count_singleton]
      by_cases hid : id = dealId
      · simp [hid]
      · simp [hid, Ne.symm hid]
    · rw [Function.update_of_ne hq]
      simp [hq]
  have hmem : dealId ∈ Function.update pd new (pd new ++ [dealId]) old ↔ old = new ∨ dealId ∈ pd old := by
    by_cases hold : old = new
    · subst hold
      simp
    · simp [hold]
  unfold repairedProviderDeals
  by_cases hp : p = old
  · subst hp
    have hremoved := count_removeProviderDeal dealId (Function.update pd new (pd new ++ [dealId]) p) id
    simp only [hmem] at hremoved
    rw [Function.update_self, ← hpushed, ← hremoved]
    simp
  · rw [Function.update_of_ne hp, hpushed]
    simp [hp]

end Counting

/-! ## One call -/

section Steps

variable {sites : Sites} {n n' : Network}

/-- A write that leaves the providers of its deal alone. -/
theorem indexesAgree_wrote {id count fees : Nat} {deal : Deal} (h : IndexesAgree n)
    (w : Wrote n.market n'.market id deal count fees n.market.providerDeals)
    (hproviders : deal.providers = (n.market.deals id).providers) : IndexesAgree n' := by
  intro p dealId
  rw [w.providerDeals, h p dealId]
  by_cases hid : dealId = id
  · subst hid
    rw [w.deal_self, hproviders]
  · rw [w.deal_of_ne hid]

theorem indexesAgree_created {count fees : Nat} {deal : Deal} {selected : List Address} (h : IndexesAgree n)
    (w : Wrote n.market n'.market n.market.dealCount deal count fees
      (pushProviderDeals n.market.dealCount n.market.providerDeals selected))
    (hproviders : deal.providers = (n.market.deals n.market.dealCount).providers ++ selected) : IndexesAgree n' := by
  intro p dealId
  rw [w.providerDeals, count_pushProviderDeals, h p dealId]
  by_cases hid : dealId = n.market.dealCount
  · subst hid
    rw [w.deal_self, hproviders, List.count_append, if_pos rfl]
  · rw [w.deal_of_ne hid, if_neg hid, Nat.add_zero]

/-- A repair keeps the index right exactly if the old provider has a place in the deal, or is the new one. -/
theorem indexesAgree_repaired_iff {dealId count fees : Nat} {old new : Address} {cid : String} (h : IndexesAgree n)
    (w : Wrote n.market n'.market dealId (repairedDeal (n.market.deals dealId) old new cid) count fees
      (repairedProviderDeals n.market.providerDeals dealId old new)) :
    IndexesAgree n' ↔ old = new ∨ old ∈ (n.market.deals dealId).providers := by
  have hproviders : (n'.market.deals dealId).providers = replaceFirst old new (n.market.deals dealId).providers := by
    rw [w.deal_self]
    rfl
  have hlisted : dealId ∈ n.market.providerDeals old ↔ old ∈ (n.market.deals dealId).providers := by
    rw [← List.count_pos_iff, h old dealId, List.count_pos_iff]
  constructor
  · intro h'
    -- the new provider has one deal more
    have hnew := h' new dealId
    have hdeals := count_repairedProviderDeals dealId old new n.market.providerDeals new dealId
    have hlist := count_replaceFirst old new (n.market.deals dealId).providers new
    have hbefore := h new dealId
    rw [w.providerDeals, hproviders] at hnew
    by_contra hnot
    obtain ⟨hne, hold⟩ := not_or.mp hnot
    simp only [hold, false_and, if_false, Ne.symm hne, true_and, if_true] at hdeals hlist
    omega
  · intro hor p id
    have hdeals := count_repairedProviderDeals dealId old new n.market.providerDeals p id
    have hbefore := h p id
    simp only [hlisted] at hdeals
    rw [w.providerDeals]
    by_cases hid : id = dealId
    · subst hid
      have hlist := count_replaceFirst old new (n.market.deals id).providers p
      rw [hproviders]
      rcases hor with rfl | hold
      · simp only [true_or, and_true] at hdeals
        omega
      · simp only [hold, or_true, and_true, true_and] at hdeals hlist
        omega
    · rw [w.deal_of_ne hid]
      simp only [hid, false_and, and_false, if_false, Nat.add_zero] at hdeals
      omega

/-- **A call keeps the two indexes in step exactly if it does not repair a shard of a stranger.** -/
theorem step_indexes_iff {a : NetworkAction sites} {logs : List NetworkLog} (h : IndexesAgree n)
    (hstep : n.step sites a = .ok (n', logs)) : IndexesAgree n' ↔ RepairListed n a := by
  rcases step_market hstep with ⟨hother, hmarket⟩ | ⟨c, l, hcall, -, heffect⟩
  · have hlisted : RepairListed n a := by
      unfold RepairListed
      split
      · next hcall => exact absurd hcall (hother _)
      · trivial
    refine iff_of_true ?_ hlisted
    unfold IndexesAgree
    rw [hmarket]
    exact h
  · unfold RepairListed
    rw [hcall]
    cases heffect with
    | idle noDeal books _ =>
      cases c with
      | repairShard dealId old new cid => cases noDeal
      | _ =>
        refine iff_of_true ?_ trivial
        unfold IndexesAgree
        rw [books.providerDeals, books.deals]
        exact h
    | created providers cids sizes _ _ _ _ wrote =>
      refine iff_of_true (indexesAgree_created h wrote ?_) trivial
      have hfst := DealParams.shards_map_fst providers cids sizes
      rw [createdDeal, Deal.assignShards_eq, hfst]
      rfl
    | renewed deal_eq _ _ _ wrote | completed deal_eq _ _ _ _ wrote | cancelled deal_eq _ _ _ wrote
    | lost deal_eq _ _ _ _ wrote | failed deal_eq _ _ _ _ _ wrote =>
      subst deal_eq
      exact iff_of_true (indexesAgree_wrote h wrote rfl) trivial
    | repaired deal_eq _ _ _ _ wrote =>
      subst deal_eq
      exact indexesAgree_repaired_iff h wrote
    | retrieving _ _ market | claimed _ _ market | withdrawn _ market =>
      refine iff_of_true ?_ trivial
      unfold IndexesAgree
      rw [market]
      exact h

end Steps

/-! ## Runs -/

/-- **The two indexes, exactly.** They agree in every state of a run from the deployment of the marketplace on if and
only if every repair that goes through names a provider of the deal, or puts a provider in its own place. -/
theorem indexes_along_iff {sites : Sites} (n : Network) (msg : Msg) (treasury : Address)
    (as : List (NetworkAction sites)) :
    Along (Network.step sites) IndexesAgree (n.withNewMarket msg treasury) as ↔
      Meets (Network.step sites) RepairListed (n.withNewMarket msg treasury) as := by
  apply along_iff_meets (I := fun _ => True)
  · intro p dealId
    rfl
  · trivial
  · exact fun _ _ _ _ _ _ => trivial
  · exact fun _ _ _ _ _ h hstep => step_indexes_iff h hstep

namespace SmallNetwork

/-- A deal is created, and the shard of a provider that it does not have is repaired by one that it has. -/
def strangerRepaired : List (NetworkAction sites) :=
  created SmallMarket.params ++
    [account 0 0 (.base (.market (.repairShard 0 50 (SmallMarket.provider 0).addr "QmShard")))]

/-- The provider is listed once, and has the deal twice. -/
theorem strangerRepaired_apart : ¬ IndexesAgree (run (Network.step sites) deployed strangerRepaired) := by
  intro hagree
  have hcount := hagree (SmallMarket.provider 0).addr 0
  revert hcount
  decide +kernel

end SmallNetwork

end Kyneto
