import Kyneto.StorageMarketplace.Solvency

/-!
# Deals that were never created

The zero value of a deal's status is `Active`, so a deal id beyond the counter reads as an active deal
of nobody. Four of the six operations that take a deal id are stopped there by a check that is about
something else: there is no client to match the sender, and no shard to lose or to complete.
`initiateRetrieval` and `repairShard` are not stopped.

`inert_along_iff` says exactly in which runs the ids beyond the counter stay inert: in those where at
no moment anybody is in a position to make one of the two calls. Runs in which nobody makes one keep
the slots untouched, and in them every call on such an id reverts, apart from these two.
-/

namespace Kyneto

open Evm

/-- The deal id an operation is called with. -/
def MarketCall.target : MarketCall → Option Nat
  | .completeDeal dealId | .cancelDeal dealId | .renewDeal dealId _
  | .reportLostShard dealId _ | .repairShard dealId _ _ _
  | .initiateRetrieval dealId _ _ => some dealId
  | _ => none

/-- The slots beyond the counter are untouched, and what the books refer to has been created. -/
structure Untouched (m : StorageMarketplace) : Prop where
  slots : ∀ id, m.dealCount ≤ id → m.deals id = {}
  retrievals : ∀ id < m.retrievalCount, (m.retrievals id).dealId < m.dealCount
  providerDeals : ∀ p, ∀ id ∈ m.providerDeals p, id < m.dealCount

/-- A call with the id of a deal that was never created. -/
def AimsBeyond {this : Address} (s : System) (a : Action this) : Prop :=
  ∃ c id, a.call = .market c ∧ c.target = some id ∧ s.market.dealCount ≤ id

/-- Deals that were never created are inert: untouched, out of reach of every operation, and not
referred to. -/
structure Inert (this : Address) (s : System) : Prop where
  untouched : Untouched s.market
  reverts : ∀ a : Action this, AimsBeyond s a → ¬ Succeeds (System.step this) s a

/-- One of the two calls that do not notice that the deal does not exist, in a position to go
through: a retrieval the sender can pay, or a repair by the owner that names an active provider. -/
def Unhindered {this : Address} (s : System) (a : Action this) : Prop :=
  match a.call with
  | .market (.initiateRetrieval _ _ amount) =>
    0 < amount ∧ amount ≤ s.token.balanceOf a.msg.sender ∧
      s.token.toErc20.Allowed a.msg.sender this amount ∧
      s.market.retrievalCount + 1 < uint256Size
  | .market (.repairShard _ _ newProvider _) =>
    a.msg.sender = s.market.owner ∧ s.registry.isProviderActive newProvider = true
  | _ => False

/-- Nobody can make such a call: no account has tokens it lets the marketplace take, and there is no
owner to repair or no active provider to repair with. -/
structure Sealed (this : Address) (s : System) : Prop where
  unfunded : ∀ a : Address, a ≠ 0 → a ≠ this →
    s.token.balanceOf a = 0 ∨ s.token.allowance a this = 0 ∨
      uint256Size ≤ s.market.retrievalCount + 1
  unrepaired : s.market.owner = 0 ∨ s.market.owner = this ∨
    ∀ p, s.registry.isProviderActive p = false

/-- A repair or a retrieval of a deal that was never created. -/
def Plants {this : Address} (s : System) (a : Action this) : Prop :=
  match a.call with
  | .market (.initiateRetrieval dealId _ _) | .market (.repairShard dealId _ _ _) =>
    s.market.dealCount ≤ dealId
  | _ => False

/-! ## Which calls go through -/

section Calls

variable {this : Address} {s s' : System}

theorem repairShard_succeeds {msg : Msg} {dealId : Nat} {old new : Address} {cid : String}
    (hslot : s.market.deals dealId = {}) (howner : msg.sender = s.market.owner)
    (hnew : s.registry.isProviderActive new = true) :
    ∃ r, s.repairShard msg dealId old new cid = .ok r := by
  simp only [System.repairShard, bind_eq_ok, onlyOwner_eq_ok, require_eq_ok, checkedAdd_eq_ok,
    pure_eq_ok, exists_const, hslot]
  exact ⟨_, howner, rfl, trivial, hnew, 1, ⟨by decide, rfl⟩, rfl⟩

/-- When a retrieval of a deal that does not exist goes through. -/
theorem initiateRetrieval_succeeds_iff {msg : Msg} {dealId amount : Nat} {provider : Address}
    (ht : this ≠ 0) (hz : msg.sender ≠ 0) (hslot : s.market.deals dealId = {}) :
    (∃ r, s.initiateRetrieval this msg dealId provider amount = .ok r) ↔
      0 < amount ∧ amount ≤ s.token.balanceOf msg.sender ∧
        s.token.toErc20.Allowed msg.sender this amount ∧
        s.market.retrievalCount + 1 < uint256Size := by
  have hpay := @StorageToken.transferFrom_succeeds_iff s.token this msg.sender this amount ht hz ht
  simp only [System.initiateRetrieval, bind_eq_ok, require_eq_ok, checkedAdd_eq_ok, pure_eq_ok,
    exists_const, hslot]
  constructor
  · rintro ⟨r, -, hpos, paid, htransfer, -, ⟨hcount, -⟩, -⟩
    obtain ⟨hle, hallowed⟩ := hpay.mp ⟨paid, htransfer⟩
    exact ⟨hpos, hle, hallowed, hcount⟩
  · rintro ⟨hpos, hle, hallowed, hcount⟩
    obtain ⟨⟨token, paid⟩, htransfer⟩ := hpay.mpr ⟨hle, hallowed⟩
    exact ⟨_, trivial, hpos, (token, paid), htransfer, _, ⟨hcount, rfl⟩, rfl⟩

/-- **A call on a deal that was never created goes through exactly if it is one of the two that do
not notice.** -/
theorem succeeds_beyond_iff {a : Action this} (ht : this ≠ 0) (hno : s.NoApproval this)
    (hslots : ∀ id, s.market.dealCount ≤ id → s.market.deals id = {}) (h : AimsBeyond s a) :
    Succeeds (System.step this) s a ↔ Unhindered s a := by
  obtain ⟨msg, call, hzero, hne, hstd⟩ := a
  obtain ⟨c, id, hcall, htarget, hge⟩ := h
  have hcall : call = .market c := hcall
  subst hcall
  have hslot := hslots id hge
  have he : ∀ r, System.step this s ⟨msg, .market c, hzero, hne, hstd⟩ = .ok r →
      Effect this s msg (.market c) r.1 r.2 := fun r hr => (step_effect hno hr).1
  cases c with
  -- each call meets its guard in the blank slot
  | completeDeal dealId =>
    cases htarget
    refine iff_of_false ?_ not_false
    rintro ⟨r, hr⟩
    cases he r hr with
    | idle noDeal => cases noDeal
    | completed deal_eq _ _ enough =>
      rw [deal_eq, hslot] at enough
      exact absurd enough (by decide)
  | cancelDeal dealId =>
    cases htarget
    refine iff_of_false ?_ not_false
    rintro ⟨r, hr⟩
    cases he r hr with
    | idle noDeal => cases noDeal
    | cancelled deal_eq _ client =>
      rw [deal_eq, hslot] at client
      exact hzero client.symm
  | renewDeal dealId days =>
    cases htarget
    refine iff_of_false ?_ not_false
    rintro ⟨r, hr⟩
    cases he r hr with
    | idle noDeal => cases noDeal
    | renewed deal_eq _ client =>
      rw [deal_eq, hslot] at client
      exact hzero client.symm
  | reportLostShard dealId provider =>
    cases htarget
    refine iff_of_false ?_ not_false
    rintro ⟨r, hr⟩
    cases he r hr with
    | idle noDeal => cases noDeal
    | lost deal_eq _ _ shard =>
      rw [deal_eq, hslot] at shard
      cases shard
    | failed deal_eq _ _ shard =>
      rw [deal_eq, hslot] at shard
      cases shard
  -- a repair asks for the owner and an active provider, and not for the deal
  | repairShard dealId old new cid =>
    cases htarget
    constructor
    · rintro ⟨r, hr⟩
      cases he r hr with
      | idle noDeal => cases noDeal
      | repaired _ owner _ _ newActive => exact ⟨owner, newActive⟩
    · rintro ⟨howner, hnew⟩
      exact repairShard_succeeds hslot howner hnew
  -- nor does a retrieval
  | initiateRetrieval dealId provider amount =>
    cases htarget
    exact initiateRetrieval_succeeds_iff ht hzero hslot
  | _ => cases htarget

end Calls

/-! ## What keeps the slots untouched -/

/-- A deal is entered under its own identifier. -/
theorem mem_pushProviderDeals {dealId id : Nat} {l : List Address} {p : Address}
    {pd : Address → List Nat} (h : id ∈ pushProviderDeals dealId pd l p) :
    id = dealId ∨ id ∈ pd p := by
  induction l generalizing pd with
  | nil => exact Or.inr h
  | cons q rest ih =>
    rw [pushProviderDeals] at h
    rcases ih h with rfl | hmem
    · exact Or.inl rfl
    · by_cases hp : p = q
      · subst hp
        rw [Function.update_self, List.mem_append, List.mem_singleton] at hmem
        exact hmem.symm
      · rw [Function.update_of_ne hp] at hmem
        exact Or.inr hmem

/-- Removing a deal adds none. -/
theorem mem_removeProviderDeal {dealId id : Nat} {l : List Nat}
    (h : id ∈ removeProviderDeal dealId l) : id ∈ l := by
  unfold removeProviderDeal at h
  split at h
  · next hmem =>
    rcases List.mem_or_eq_of_mem_set (List.mem_of_mem_dropLast h) with h | rfl
    · exact h
    · rw [List.getLastD_eq_getLast?, List.getLast?_eq_some_getLast (List.ne_nil_of_mem hmem)]
      exact List.getLast_mem _
  · exact h

/-- A repair moves the repaired deal, and no other. -/
theorem mem_repairedProviderDeals {dealId id : Nat} {old new p : Address}
    {pd : Address → List Nat} (h : id ∈ repairedProviderDeals pd dealId old new p) :
    id = dealId ∨ id ∈ pd p := by
  have pushed : ∀ q, id ∈ Function.update pd new (pd new ++ [dealId]) q → id = dealId ∨ id ∈ pd q := by
    intro q hq
    by_cases hn : q = new
    · subst hn
      rw [Function.update_self, List.mem_append, List.mem_singleton] at hq
      exact hq.symm
    · rw [Function.update_of_ne hn] at hq
      exact Or.inr hq
  unfold repairedProviderDeals at h
  by_cases ho : p = old
  · subst ho
    rw [Function.update_self] at h
    exact pushed _ (mem_removeProviderDeal h)
  · rw [Function.update_of_ne ho] at h
    exact pushed _ h

section Untouched

variable {this : Address} {s s' : System} {logs : List Log}

theorem Untouched.of_wrote {m m' : StorageMarketplace} {id n fees : Nat} {deal : Deal}
    {pd : Address → List Nat} (h : Untouched m) (w : Wrote m m' id deal n fees pd)
    (hid : id < n) (hn : m.dealCount ≤ n) (hpd : ∀ p, ∀ i ∈ pd p, i < n) : Untouched m' where
  slots := w.beyond (P := fun d => d = {}) h.slots hn (fun hge => absurd hid (Nat.not_lt.mpr hge))
  retrievals := by
    rw [w.retrievals, w.retrievalCount, w.dealCount]
    exact fun i hi => (h.retrievals i hi).trans_le hn
  providerDeals := by
    rw [w.providerDeals, w.dealCount]
    exact hpd

/-- Without a call that plants something, a marketplace that nobody has touched stays so. -/
theorem untouched_effect {a : Action this} (h : Untouched s.market) (hn : ¬ Plants s a)
    (e : Effect this s a.msg a.call s' logs) : Untouched s'.market := by
  obtain ⟨msg, call, hzero, hne, hstd⟩ := a
  -- a slot beyond the counter has nothing the guard of a writing call could have seen
  have created : ∀ {id} (P : Deal → Prop), ¬ P {} → P (s.market.deals id) →
      id < s.market.dealCount := by
    intro id P hempty hP
    by_contra hge
    rw [h.slots id (Nat.le_of_not_lt hge)] at hP
    exact hempty hP
  cases e with
  | idle _ books _ =>
    refine ⟨?_, ?_, ?_⟩
    · rw [books.deals, books.dealCount]
      exact h.slots
    · rw [books.retrievals, books.retrievalCount, books.dealCount]
      exact h.retrievals
    · rw [books.providerDeals, books.dealCount]
      exact h.providerDeals
  | created _ _ _ _ _ _ _ wrote =>
    -- the new deal is entered at its providers, below the new counter
    apply h.of_wrote wrote (Nat.lt_succ_self _) (Nat.le_succ _)
    intro p i hi
    rcases mem_pushProviderDeals hi with rfl | hi
    · exact Nat.lt_succ_self _
    · exact Nat.lt_succ_of_lt (h.providerDeals p i hi)
  | renewed deal_eq _ client _ wrote | cancelled deal_eq _ client _ wrote =>
    subst deal_eq
    -- the sender is the client of the deal, and no blank slot has one
    have hid := created (fun d => d.client = msg.sender) (fun hc => hzero hc.symm) client
    exact h.of_wrote wrote hid (Nat.le_refl _) h.providerDeals
  | completed deal_eq _ _ enough _ wrote =>
    -- a blank slot has no shards, so not enough of them
    subst deal_eq
    have hid := created (fun d => MIN_PROVIDERS ≤ d.activeShards) (by decide) enough
    exact h.of_wrote wrote hid (Nat.le_refl _) h.providerDeals
  | lost deal_eq _ _ shard _ wrote | failed deal_eq _ _ shard _ _ wrote =>
    subst deal_eq
    have hid := created (fun d => (d.shardAllocations _).active = true) Bool.false_ne_true shard
    exact h.of_wrote wrote hid (Nat.le_refl _) h.providerDeals
  -- a repair has no such guard, but it was not aimed beyond the counter
  | repaired deal_eq _ _ _ _ wrote =>
    have hid := Nat.lt_of_not_le hn
    apply h.of_wrote wrote hid (Nat.le_refl _)
    intro p i hi
    rcases mem_repairedProviderDeals hi with rfl | hi
    · exact hid
    · exact h.providerDeals p i hi
  | retrieving _ _ market =>
    have hid := Nat.lt_of_not_le hn
    rw [market]
    refine ⟨h.slots, ?_, h.providerDeals⟩
    intro i hi
    -- the new retrieval refers to `dealId`, which the call did not aim beyond the counter
    by_cases heq : i = s.market.retrievalCount
    · simpa [StorageMarketplace.setRetrieval, heq] using hid
    · simp only [StorageMarketplace.setRetrieval, Function.update_of_ne heq]
      exact h.retrievals i (Nat.lt_of_le_of_ne (Nat.le_of_lt_succ hi) heq)
  | @claimed retrievalId _ _ _ _ market =>
    rw [market]
    refine ⟨h.slots, ?_, h.providerDeals⟩
    intro i hi
    by_cases heq : i = retrievalId
    · subst heq
      simpa [StorageMarketplace.setRetrieval] using h.retrievals i hi
    · simpa [StorageMarketplace.setRetrieval, heq] using h.retrievals i hi
  | withdrawn _ market =>
    rw [market]
    exact ⟨h.slots, h.retrievals, h.providerDeals⟩

theorem untouched_deploy (msg : Msg) (treasury : Address) :
    Untouched (StorageMarketplace.deploy msg treasury) :=
  ⟨fun _ _ => rfl, fun _ hid => absurd hid (Nat.not_lt_zero _), fun _ _ hid => by cases hid⟩

/-- A planting call that goes through was in a position to. -/
theorem unhindered_of_plants {a : Action this} (ht : this ≠ 0) (hno : s.NoApproval this)
    (h : Untouched s.market) (hp : Plants s a) (hs : Succeeds (System.step this) s a) :
    AimsBeyond s a ∧ Unhindered s a := by
  have haims : AimsBeyond s a := by
    unfold Plants at hp
    split at hp
    · next hcall => exact ⟨_, _, hcall, rfl, hp⟩
    · next hcall => exact ⟨_, _, hcall, rfl, hp⟩
    · cases hp
  exact ⟨haims, (succeeds_beyond_iff ht hno h.slots haims).mp hs⟩

/-- In a sealed system nothing can be planted. -/
theorem not_unhindered_of_sealed {a : Action this} (h : Sealed this s) : ¬ Unhindered s a := by
  intro hu
  unfold Unhindered at hu
  split at hu
  · obtain ⟨hpos, hle, hallowed, hcount⟩ := hu
    rcases h.unfunded _ a.sender_ne_zero a.sender_ne_this with hb | ha | hfull
    · omega
    · rcases hallowed with hmax | hle
      · rw [ha] at hmax
        exact absurd hmax (by decide)
      · omega
    · omega
  · obtain ⟨howner, hactive⟩ := hu
    rcases h.unrepaired with hz | ht | hnone
    · exact a.sender_ne_zero (howner.trans hz)
    · exact a.sender_ne_this (howner.trans ht)
    · rw [hnone] at hactive
      cases hactive
  · exact hu

/-- If no call for a deal that does not exist goes through, then because the system is sealed. -/
theorem sealed_of_inert (ht : this ≠ 0) (hno : s.NoApproval this) (h : Inert this s) :
    Sealed this s := by
  have stopped : ∀ (a : Account this) (c : MarketCall),
      c.target = some s.market.dealCount → ¬ Unhindered s (a.calls 0 c) := by
    intro a c htarget hu
    have haims : AimsBeyond s (a.calls 0 c) := ⟨c, _, rfl, htarget, Nat.le_refl _⟩
    apply h.reverts _ haims
    exact (succeeds_beyond_iff ht hno h.untouched.slots haims).mpr hu
  refine ⟨?_, ?_⟩
  · intro a hz hne
    by_contra hnot
    rw [not_or, not_or] at hnot
    obtain ⟨hb, ha, hcount⟩ := hnot
    exact stopped ⟨a, hz, hne⟩ (.initiateRetrieval s.market.dealCount 0 1) rfl
      ⟨Nat.one_pos, Nat.pos_of_ne_zero hb, Or.inr (Nat.pos_of_ne_zero ha), Nat.lt_of_not_le hcount⟩
  · by_contra hnot
    rw [not_or, not_or, not_forall] at hnot
    obtain ⟨hz, hne, p, hp⟩ := hnot
    exact stopped ⟨s.market.owner, hz, hne⟩ (.repairShard s.market.dealCount 0 p "") rfl
      ⟨rfl, by simpa using hp⟩

/-- In a state with untouched slots, the ids beyond the counter are inert exactly if nobody is in a
position to plant anything there. -/
theorem inert_iff_sealed (ht : this ≠ 0) (hno : s.NoApproval this) (h : Untouched s.market) :
    Inert this s ↔ Sealed this s := by
  constructor
  · exact sealed_of_inert ht hno
  · intro hs
    refine ⟨h, ?_⟩
    intro a haims hsucc
    exact not_unhindered_of_sealed hs ((succeeds_beyond_iff ht hno h.slots haims).mp hsucc)

/-- Runs without a planting call leave the slots untouched. -/
theorem untouched_run {s₀ : System} (h : s₀.Deployed this) (as : List (Action this))
    (hm : Meets (System.step this) (fun s a => ¬ Plants s a) s₀ as) :
    Untouched (run (System.step this) s₀ as).market := by
  obtain ⟨msg, treasury, hfresh⟩ := h.fresh
  have hI : Untouched s₀.market ∧ s₀.NoApproval this := by
    rw [hfresh]
    exact ⟨untouched_deploy msg treasury, h.noApproval⟩
  refine (run_invariant (I := fun s => Untouched s.market ∧ s.NoApproval this) hI ?_ as hm).1
  intro s a s' logs hI hn hstep
  obtain ⟨he, hno⟩ := step_effect hI.2 hstep
  exact ⟨untouched_effect hI.1 hn he, hno⟩

/-- **Deals that were never created, exactly.** They are inert in all states of a run if and only if
all states of the run are sealed. Without a planting call the slots stay untouched, and a call on one
of them goes through exactly if it is a planting call in a position to. -/
theorem inert_along_iff {s₀ : System} (h : s₀.Deployed this) (as : List (Action this)) :
    (Along (System.step this) (Inert this) s₀ as ↔
      Along (System.step this) (Sealed this) s₀ as) ∧
    (Meets (System.step this) (fun s a => ¬ Plants s a) s₀ as →
      Untouched (run (System.step this) s₀ as).market ∧
        ∀ a : Action this, AimsBeyond (run (System.step this) s₀ as) a →
          (Succeeds (System.step this) (run (System.step this) s₀ as) a ↔
            Unhindered (run (System.step this) s₀ as) a)) := by
  constructor
  · obtain ⟨msg, treasury, hfresh⟩ := h.fresh
    refine along_congr (I := fun s => Untouched s.market ∧ s.NoApproval this) ?_ ?_ ?_ as
    · rw [hfresh]
      exact ⟨untouched_deploy msg treasury, h.noApproval⟩
    · intro s hI
      exact inert_iff_sealed h.ne_zero hI.2 hI.1
    · intro s a s' logs hI hsealed hstep
      obtain ⟨he, hno⟩ := step_effect hI.2 hstep
      refine ⟨untouched_effect hI.1 ?_ he, hno⟩
      intro hp
      have hu := (unhindered_of_plants h.ne_zero hI.2 hI.1 hp ⟨_, hstep⟩).2
      exact not_unhindered_of_sealed hsealed hu
  · intro hm
    have hu := untouched_run h as hm
    refine ⟨hu, ?_⟩
    intro a haims
    exact succeeds_beyond_iff h.ne_zero (noApproval_run h.noApproval as) hu.slots haims

/-- The owner gives the marketplace up, and then a provider registers and a client gets tokens. -/
def SmallMarket.ownerless : List (Action SmallMarket.this) :=
  [owner.calls 0 .renounceOwnership, (provider 0).callsRegistry 0 (.registerProvider "peer" "ep" "na" 5000),
    owner.callsToken 0 (.transfer client.addr (5 * 10 ^ 18)) id]

theorem sealed_of_noAllowance {s : System} (hno : ∀ a, s.token.allowance a this = 0)
    (hunrepaired : s.market.owner = 0 ∨ ∀ p, s.registry.isProviderActive p = false) : Sealed this s :=
  ⟨fun a _ _ => Or.inr (Or.inl (hno a)), hunrepaired.imp_right Or.inr⟩

theorem ownerless_sealed :
    Along (System.step SmallMarket.this) (Sealed SmallMarket.this) SmallMarket.deployed SmallMarket.ownerless := by
  refine ⟨?_, ?_, ?_, ?_⟩
  · exact sealed_of_noAllowance (fun _ => rfl) (Or.inr fun _ => rfl)
  · exact sealed_of_noAllowance (fun _ => rfl) (Or.inl rfl)
  · exact sealed_of_noAllowance (fun _ => rfl) (Or.inl rfl)
  · exact sealed_of_noAllowance (fun _ => rfl) (Or.inl rfl)

/-- Without an owner nobody can repair, and without an approval nobody can retrieve. And with a deal, nothing is planted
beyond it. -/
theorem inert_along_iff_smallMarket :
    Along (System.step SmallMarket.this) (Inert SmallMarket.this) SmallMarket.deployed SmallMarket.ownerless ∧
      Untouched (SmallMarket.after [SmallMarket.client.calls 0 (.createDeal SmallMarket.params)]).market := by
  constructor
  · exact (inert_along_iff SmallMarket.deployed_deployed SmallMarket.ownerless).1.mpr ownerless_sealed
  · refine ((inert_along_iff SmallMarket.deployed_deployed _).2 ?_).1
    refine meets_of_forall _ fun a ha s => ?_
    simp only [SmallMarket.setup, List.mem_append, List.mem_map, List.mem_cons, List.not_mem_nil, or_false] at ha
    rcases ha with ((rfl | rfl | rfl | rfl) | ⟨i, -, rfl⟩) | rfl <;> exact id

/-- Before any deal exists, a client pays for a retrieval from deal 7 and the owner repairs a shard
of deal 3. Both calls go through. -/
theorem uncreated_not_inert :
    ¬ Inert SmallMarket.this (SmallMarket.after
        [SmallMarket.client.calls 0
          (.initiateRetrieval 7 (SmallMarket.provider 0).addr 5)]) ∧
      ¬ Inert SmallMarket.this (SmallMarket.after
        [SmallMarket.owner.calls 0
          (.repairShard 3 SmallMarket.spare.addr (SmallMarket.provider 0).addr "QmShard")]) := by
  constructor
  · intro h
    have hcreated := h.untouched.retrievals 0 (by decide +kernel)
    revert hcreated
    decide +kernel
  · intro h
    have hempty := congrArg Deal.activeShards (h.untouched.slots 3 (by decide +kernel))
    revert hempty
    decide +kernel

end Untouched

end Kyneto
