import Kyneto.ProviderRegistry.Standing
import Kyneto.StorageMarketplace.Refunds

/-!
# What does a good reputation cost?

Every provider with a shard of a completed deal gains a point. The price of a deal is a product, the size times the
price of a gigabyte times the months, and only the price in dollars has a minimum: a deal of no size or no days is free,
and one of no days is over as soon as it begins. A shard can even be repaired into a slot that has no deal yet.

`earned_iff` says which completions earn what they give.
-/

namespace Kyneto

open Evm

/-- Some provider has a better record afterwards. -/
def RaisesRecord (s s' : System) : Prop :=
  ∃ p, (s.registry.providers p).reputationScore < (s'.registry.providers p).reputationScore ∨
    (s.registry.providers p).totalDealsCompleted < (s'.registry.providers p).totalDealsCompleted

/-- A completion that raises a record is of a deal that has an escrow and lasts a day at least. -/
def RecordEarned {this : Address} (e : MarketEntry this) : Prop :=
  ∀ dealId, e.act.call = .market (.completeDeal dealId) → RaisesRecord e.pre e.post →
    0 < (e.pre.market.deals dealId).escrowedAmount ∧
      (e.pre.market.deals dealId).startTime + DAY ≤ (e.pre.market.deals dealId).endTime

/-- Some listed provider has a shard in service. -/
def Deal.served (deal : Deal) : Prop := ∃ p ∈ deal.providers, (deal.shardAllocations p).active = true

instance (deal : Deal) : Decidable deal.served := inferInstanceAs (Decidable (∃ p ∈ deal.providers, _))

/-- The deal is of some size, at some price, and for some days. -/
def Deal.worth (deal : Deal) : Prop := 0 < deal.fileSizeGB ∧ 0 < deal.pricePerGBMonth ∧ 0 < deal.duration

instance (deal : Deal) : Decidable deal.worth := inferInstanceAs (Decidable (_ ∧ _))

/-- The call completes no deal, or one for which nobody has a shard, or one that is worth something. -/
def CompletesWorth {this : Address} (s : System) (a : Action this) : Prop :=
  match a.call with
  | .market (.completeDeal dealId) => (s.market.deals dealId).served → (s.market.deals dealId).worth
  | _ => True

/-! ## Records -/

section Records

variable {this : Address} {r r' : ProviderRegistry} {msg : Msg} {p q : Address} {logs : List RegistryLog}

/-- A completed deal is counted for its provider. -/
theorem recordDealCompleted_counts (h : r.recordDealCompleted msg p = .ok (r', logs)) (q : Address) :
    (r'.providers q).totalDealsCompleted = (r.providers q).totalDealsCompleted + if q = p then 1 else 0 := by
  simp only [ProviderRegistry.recordDealCompleted, bind_eq_ok, checkedAdd_eq_ok] at h
  obtain ⟨-, -, -, -, _, ⟨-, rfl⟩, h⟩ := h
  obtain ⟨-, -, -, hout⟩ := ProviderRegistry.increaseReputation_eq_ok.mp h
  obtain ⟨rfl, -⟩ := Prod.mk.inj hout
  by_cases hq : q = p
  · subst hq
    simp [ProviderRegistry.set]
  · simp [ProviderRegistry.set, hq]

/-- The loop raises the record of the first provider it comes to, and no later report takes that back. -/
theorem completeShards_counts {timestamp : Nat} {l : List Address} {deal deal' : Deal} {logs : List Log}
    (h : System.completeShards this timestamp r deal l = .ok (r', deal', logs)) :
    (∀ q, (r.providers q).totalDealsCompleted ≤ (r'.providers q).totalDealsCompleted) ∧
      (∀ q ∈ l, (deal.shardAllocations q).active = true →
        (r.providers q).totalDealsCompleted < (r'.providers q).totalDealsCompleted) ∧
      ((∀ q ∈ l, (deal.shardAllocations q).active = false) → r' = r) := by
  induction l generalizing r deal logs with
  | nil =>
    cases h
    exact ⟨fun _ => Nat.le_refl _, nofun, fun _ => rfl⟩
  | cons provider rest ih =>
    unfold System.completeShards at h
    split at h
    · next hactive =>
      simp only [bind_eq_ok, Prod.exists, pure_eq_ok, Prod.mk.injEq] at h
      obtain ⟨r₁, l₁, hrecord, deal₁, hdrop, r₂, deal₂, more, hrest, rfl, rfl, -⟩ := h
      have hcounts := recordDealCompleted_counts hrecord
      obtain ⟨hmono, hraised, -⟩ := ih hrest
      obtain ⟨-, rfl⟩ := Deal.dropShard_eq_ok.mp hdrop
      refine ⟨fun q => ?_, fun q hq hshard => ?_, fun hnone => ?_⟩
      · have hq := hmono q
        rw [hcounts q] at hq
        omega
      · have hq' := hmono q
        rw [hcounts q] at hq'
        by_cases hqp : q = provider
        · rw [if_pos hqp] at hq'
          omega
        · have hmem : q ∈ rest := (List.mem_cons.mp hq).resolve_left hqp
          have hlater := hraised q hmem ((Deal.without_active deal provider q).mpr ⟨hqp, hshard⟩)
          rw [hcounts q] at hlater
          omega
      · rw [hnone provider List.mem_cons_self] at hactive
        cases hactive
    · next hinactive =>
      obtain ⟨hmono, hraised, hsame⟩ := ih h
      refine ⟨hmono, fun q hq hshard => ?_, fun hnone => ?_⟩
      · rcases List.mem_cons.mp hq with rfl | hmem
        · exact absurd hshard hinactive
        · exact hraised q hmem hshard
      · exact hsame fun q hq => hnone q (List.mem_cons_of_mem _ hq)

/-- A completion raises a record exactly if some listed provider has a shard. -/
theorem raisesRecord_iff {s s' : System} {dealId : Nat} {logs : List Log}
    (h : s.completeDeal this msg dealId = .ok (s', logs)) :
    RaisesRecord s s' ↔ (s.market.deals dealId).served := by
  simp only [System.completeDeal, bind_eq_ok, Prod.exists] at h
  obtain ⟨-, -, -, -, -, -, registry, deal, l, hloop, _, -, _, -, h⟩ := h
  have hregistry : s'.registry = registry := by
    split at h
    · simp only [bind_eq_ok, pure_eq_ok, Prod.exists, Prod.mk.injEq] at h
      obtain ⟨token, paid, -, rfl, -⟩ := h
      rfl
    · simp only [pure_eq_ok, Prod.mk.injEq] at h
      obtain ⟨rfl, -⟩ := h
      rfl
  obtain ⟨-, hraised, hsame⟩ := completeShards_counts hloop
  constructor
  · rintro ⟨p, hp⟩
    by_contra hnone
    have hunchanged : registry = s.registry := by
      apply hsame
      intro q hq
      by_contra hactive
      exact hnone ⟨q, hq, by simpa using hactive⟩
    rw [hregistry, hunchanged] at hp
    omega
  · rintro ⟨p, hp, hactive⟩
    exact ⟨p, .inr (hregistry ▸ hraised p hp hactive)⟩

end Records

/-! ## Runs -/

section Runs

variable {this : Address} {s₀ : System}

/-- An open deal has an escrow and lasts a day exactly if it is worth something. -/
theorem Deal.Priced.worth_iff {deal : Deal} (h : deal.Priced) (hopen : deal.status.isOpen = true) :
    (0 < deal.escrowedAmount ∧ deal.startTime + DAY ≤ deal.endTime) ↔ deal.worth := by
  have hlasts : deal.startTime + DAY ≤ deal.endTime ↔ 0 < deal.duration := by
    rw [h.times]
    unfold DAY
    omega
  rw [hlasts]
  constructor
  · rintro ⟨hescrow, hduration⟩
    have hprice : 0 < deal.fileSizeGB * deal.pricePerGBMonth := by
      by_contra hzero
      rw [h.free (Nat.eq_zero_of_not_pos hzero)] at hescrow
      exact absurd hescrow (Nat.lt_irrefl 0)
    exact ⟨Nat.pos_of_mul_pos_right hprice, Nat.pos_of_mul_pos_left hprice, hduration⟩
  · rintro ⟨hsize, hprice, hduration⟩
    exact ⟨h.paid hopen (Nat.mul_pos hsize hprice) hduration, hduration⟩

/-- One completion. -/
theorem earned_iff_of_entry {e : MarketEntry this} (hpriced : ∀ id, (e.pre.market.deals id).Priced)
    (hstep : System.step this e.pre e.act = .ok (e.post, e.logs)) : RecordEarned e ↔ CompletesWorth e.pre e.act := by
  obtain ⟨s, ⟨msg, call, hzero, hne, hstd⟩, logs, s'⟩ := e
  by_cases hcompletes : ∃ dealId, call = .market (.completeDeal dealId)
  · obtain ⟨dealId, rfl⟩ := hcompletes
    have hcomplete : s.completeDeal this msg dealId = .ok (s', logs) := hstep
    have hraises := raisesRecord_iff hcomplete
    have hactive : (s.market.deals dealId).status = .Active := by
      simp only [System.completeDeal, bind_eq_ok, require_eq_ok, exists_const] at hcomplete
      exact hcomplete.1
    have hworth := (hpriced dealId).worth_iff (by show (s.market.deals dealId).status.isOpen = true; rw [hactive]; rfl)
    constructor
    · intro h hserved
      exact hworth.mp (h dealId rfl (hraises.mpr hserved))
    · intro h id hid hraised
      cases hid
      exact hworth.mpr (h (hraises.mp hraised))
  · constructor
    · intro _
      unfold CompletesWorth
      split
      · next dealId hcall => exact absurd ⟨dealId, hcall⟩ hcompletes
      · trivial
    · intro _ dealId hcall
      exact absurd ⟨dealId, hcall⟩ hcompletes

/-- **In a run, all completions that raise a record are earned** exactly if every deal that is completed, and for
which somebody has a shard, is worth something. -/
theorem earned_iff (h : s₀.Deployed this) (as : List (Action this)) :
    (∀ e ∈ history (System.step this) s₀ as, RecordEarned e) ↔ Meets (System.step this) CompletesWorth s₀ as := by
  apply forall_history_iff (P := fun s => s.NoApproval this ∧ ∀ id, (s.market.deals id).Priced)
  · exact ⟨h.noApproval, fun id => deals_deployed h id ▸ priced_blank⟩
  · intro s a s' logs hs hstep
    exact earned_iff_of_entry hs.2 hstep
  · intro s a s' logs hs _ hstep
    obtain ⟨heffect, hno⟩ := step_effect hs.1 hstep
    exact ⟨hno, priced_effect hs.2 heffect⟩

/-- A run that ends with the completion of a deal that had no escrow, and for which somebody has a shard. -/
theorem not_earned_of_free {as : List (Action this)} {a : Action this} {dealId : Nat}
    (hcall : a.call = .market (.completeDeal dealId))
    (hok : revertOf (System.step this (run (System.step this) s₀ as) a) = none)
    (hserved : ((run (System.step this) s₀ as).market.deals dealId).served)
    (hfree : ((run (System.step this) s₀ as).market.deals dealId).escrowedAmount = 0) :
    ¬ ∀ e ∈ history (System.step this) s₀ (as ++ [a]), RecordEarned e := by
  intro hall
  obtain ⟨r, hr⟩ : ∃ r, System.step this (run (System.step this) s₀ as) a = .ok r := ⟨_, eq_resultOf hok⟩
  rw [history_snoc_ok hr] at hall
  have hlast := hall _ (List.mem_append_right _ (List.mem_singleton_self _)) dealId hcall
  have hcomplete : (run (System.step this) s₀ as).completeDeal this a.msg dealId = .ok r := by
    unfold System.step at hr
    rw [hcall] at hr
    exact hr
  have hescrow := (hlast ((raisesRecord_iff hcomplete).mpr hserved)).1
  exact absurd hescrow (by show ¬ 0 < _; rw [hfree]; exact Nat.lt_irrefl 0)

/-- A call that completes no deal. -/
theorem completesWorth_of_ne {s : System} {a : Action this} (h : ∀ id, a.call ≠ .market (.completeDeal id)) :
    CompletesWorth s a := by
  unfold CompletesWorth
  split
  · next id hcall => exact absurd hcall (h id)
  · trivial

end Runs

/-! ### A month and no days -/

namespace SmallMarket

/-- The deal of a month is completed when it is over. -/
theorem month_earned :
    (∀ e ∈ history (System.step this) deployed (oneDeal 300 ++ [completion]), RecordEarned e) ∧
      ((run (System.step this) deployed (oneDeal 300 ++ [completion])).registry.providers
        (provider 0).addr).totalDealsCompleted = 1 := by
  refine ⟨(earned_iff deployed_deployed _).mpr ?_, by decide +kernel⟩
  refine (meets_snoc _ _ _).mpr ⟨?_, fun _ _ => ?_⟩
  · -- the calls before
    apply meets_of_forall
    intro a ha s
    apply completesWorth_of_ne
    intro id hcall
    simp only [oneDeal, setup, List.mem_append, List.mem_cons, List.mem_map, List.not_mem_nil, or_false] at ha
    obtain ((rfl | rfl | rfl | rfl) | ⟨i, -, rfl⟩) | rfl | rfl | rfl := ha <;> cases hcall
  · show ((run (System.step this) deployed (oneDeal 300)).market.deals 0).worth
    decide +kernel

/-- A deal of no days, which costs nothing. -/
def noDays : List (Action this) := setup ++ [client.calls 0 (.createDeal { params with durationDays := 0 })]

/-- It can be completed at once. -/
theorem noDays_completes : revertOf (System.step this (run (System.step this) deployed noDays)
    (client.calls 0 (.completeDeal 0))) = none := by
  decide +kernel

/-- All fifteen providers gain a point for it. -/
theorem noDays_not_earned :
    ¬ ∀ e ∈ history (System.step this) deployed (noDays ++ [client.calls 0 (.completeDeal 0)]), RecordEarned e := by
  have hcall : (client.calls 0 (.completeDeal 0)).call = .market (.completeDeal 0) := rfl
  refine not_earned_of_free hcall noDays_completes ?_ ?_
  · exact ⟨(provider 0).addr, by decide +kernel, by decide +kernel⟩
  · decide +kernel

end SmallMarket

end Kyneto
