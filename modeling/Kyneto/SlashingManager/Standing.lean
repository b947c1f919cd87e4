import Mathlib.Logic.Relation
import Kyneto.PaymentDistributor.Settlement
import Kyneto.SlashingManager.Appeals

/-!
# Standings in the deployment

In the deployment the registry is called by users, by the marketplace and by the manager. `StandingsChange` says that
a step of the deployment changes every standing by a chain of the changes of `ProviderRegistry.step_change`, so what
those keep is kept here as well.

The manager counts consecutive misses and leaves it to the registry to take a provider out of service. The registry
has counters of its own, which a reactivation resets, so the two can part: `deregistered_run` says when a provider is
still active after its fifth miss.
-/

namespace Kyneto

open Evm

/-! ## Chains of changes -/

/-- Every standing changes as a chain of calls at time `now` changes it. The calls are made for `sender`, and `asks`
says who asks for a reactivation. -/
def StandingsChange (now : Nat) (sender : Address) (asks : Address → Prop) (r r' : ProviderRegistry) : Prop :=
  ∀ p, Relation.ReflTransGen (Change now (p = sender) (asks p)) (r.providers p).standing (r'.providers p).standing

namespace StandingsChange

variable {now : Nat} {sender : Address} {asks : Address → Prop} {r r' r'' : ProviderRegistry}

theorem refl (r : ProviderRegistry) : StandingsChange now sender asks r r := fun _ => .refl

theorem trans (h : StandingsChange now sender asks r r') (h' : StandingsChange now sender asks r' r'') :
    StandingsChange now sender asks r r'' :=
  fun p => (h p).trans (h' p)

theorem single (h : ∀ p, Change now (p = sender) (asks p) (r.providers p).standing (r'.providers p).standing) :
    StandingsChange now sender asks r r' :=
  fun p => .single (h p)

/-- What one change keeps, a chain of them keeps. -/
theorem keeps {P : Standing → Prop} {p : Address} (h : StandingsChange now sender asks r r')
    (step : ∀ s s', Change now (p = sender) (asks p) s s' → P s → P s') (hp : P (r.providers p).standing) :
    P (r'.providers p).standing := by
  have key : ∀ s, Relation.ReflTransGen (Change now (p = sender) (asks p)) (r.providers p).standing s → P s := by
    intro s hs
    induction hs with
    | refl => exact hp
    | tail _ hlast ih => exact step _ _ hlast ih
  exact key _ (h p)

end StandingsChange

section Steps

variable {this sender : Address} {s s' : System} {msg : Msg} {asks : Address → Prop}

/-- A completed deal improves the standing of its providers. -/
theorem completeShards_standings {timestamp : Nat} {l : List Address} {registry registry' : ProviderRegistry}
    {deal deal' : Deal} {logs : List Log}
    (h : System.completeShards this timestamp registry deal l = .ok (registry', deal', logs)) :
    StandingsChange timestamp sender asks registry registry' := by
  induction l generalizing registry deal deal' logs with
  | nil =>
    simp only [System.completeShards, Except.ok.injEq, Prod.mk.injEq] at h
    obtain ⟨rfl, -, -⟩ := h
    exact .refl _
  | cons provider rest ih =>
    unfold System.completeShards at h
    split at h
    · simp only [bind_eq_ok, Prod.exists, pure_eq_ok, Prod.mk.injEq] at h
      obtain ⟨r, l, hrecord, d, -, r', d', more, hrest, rfl, -, -⟩ := h
      obtain ⟨hreg, hchanged, -⟩ := ProviderRegistry.recordDealCompleted_ok hrecord
      exact StandingsChange.trans (.single fun p => hchanged.change fun _ => .raises 1 hreg) (ih hrest)
    · exact ih h

/-- A failed deal lowers the standing of its provider. -/
theorem failDeal_standings {dealId : Nat} {provider : Address} {deal : Deal} {logs : List Log}
    (h : s.failDeal this msg dealId provider deal = .ok (s', logs)) :
    StandingsChange msg.timestamp sender asks s.registry s'.registry := by
  have key : ∀ {registry : ProviderRegistry} {l : List RegistryLog},
      s.registry.recordDealFailed ⟨this, msg.timestamp⟩ provider = .ok (registry, l) →
        StandingsChange msg.timestamp sender asks s.registry registry := by
    intro registry l hrecord
    obtain ⟨hreg, hchanged, -⟩ := ProviderRegistry.recordDealFailed_ok hrecord
    exact .single fun p => hchanged.change fun _ => .lowers 5 hreg
  simp only [System.failDeal] at h
  split at h
  · simp only [bind_eq_ok, Prod.exists, pure_eq_ok, Prod.mk.injEq] at h
    obtain ⟨_, _, -, registry, l, hrecord, rfl, -⟩ := h
    exact key hrecord
  · simp only [bind_eq_ok, Prod.exists, pure_eq_ok, Prod.mk.injEq] at h
    obtain ⟨registry, l, hrecord, rfl, -⟩ := h
    exact key hrecord

/-- The marketplace reports completed and failed deals, and reactivates nobody. -/
theorem marketStep_standings {c : MarketCall} {logs : List Log} (h : s.marketStep this msg c = .ok (s', logs)) :
    StandingsChange msg.timestamp sender asks s.registry s'.registry := by
  cases c with
  | completeDeal dealId =>
    simp only [System.marketStep, System.completeDeal, bind_eq_ok, require_eq_ok, Prod.exists, exists_const] at h
    obtain ⟨-, -, -, registry, deal, l, hloop, _, -, _, -, h⟩ := h
    have hstandings : StandingsChange msg.timestamp sender asks s.registry registry := completeShards_standings hloop
    split at h
    · simp only [bind_eq_ok, Prod.exists, pure_eq_ok, Prod.mk.injEq] at h
      obtain ⟨_, _, -, rfl, -⟩ := h
      exact hstandings
    · obtain ⟨rfl, -⟩ := Prod.mk.inj (pure_eq_ok.mp h)
      exact hstandings
  | reportLostShard dealId provider =>
    simp only [System.marketStep, System.reportLostShard, bind_eq_ok] at h
    obtain ⟨_, -, _, -, _, -, deal, -, h⟩ := h
    split at h
    · simp only [bind_eq_ok, Prod.exists, pure_eq_ok, Prod.mk.injEq] at h
      obtain ⟨s₁, l, hfail, rfl, -⟩ := h
      exact failDeal_standings hfail
    · obtain ⟨rfl, -⟩ := Prod.mk.inj (pure_eq_ok.mp h)
      exact .refl _
  | cancelDeal dealId =>
    simp only [System.marketStep, System.cancelDeal, bind_eq_ok] at h
    obtain ⟨_, -, _, -, _, -, _, -, _, -, h⟩ := h
    split at h
    · simp only [bind_eq_ok, Prod.exists, pure_eq_ok, Prod.mk.injEq] at h
      obtain ⟨_, -, _, _, -, rfl, -⟩ := h
      exact .refl _
    · obtain ⟨rfl, -⟩ := Prod.mk.inj (pure_eq_ok.mp h)
      exact .refl _
  | createDeal params =>
    simp only [System.marketStep, System.createDeal, bind_eq_ok, Prod.exists, pure_eq_ok, Prod.mk.injEq] at h
    obtain ⟨_, -, _, -, _, -, _, -, _, -, _, -, _, -, _, -, _, _, -, _, -, _, -, _, -, _, -, rfl, -⟩ := h
    exact .refl _
  | renewDeal dealId additionalDays =>
    simp only [System.marketStep, System.renewDeal, bind_eq_ok, Prod.exists, pure_eq_ok, Prod.mk.injEq] at h
    obtain ⟨_, -, _, -, _, -, _, _, -, _, -, _, -, _, -, _, -, _, -, rfl, -⟩ := h
    exact .refl _
  | repairShard dealId oldProvider newProvider newShardCID =>
    simp only [System.marketStep, System.repairShard, bind_eq_ok, pure_eq_ok, Prod.mk.injEq] at h
    obtain ⟨_, -, _, -, _, -, _, -, _, -, rfl, -⟩ := h
    exact .refl _
  | initiateRetrieval dealId provider amount =>
    simp only [System.marketStep, System.initiateRetrieval, bind_eq_ok, Prod.exists, pure_eq_ok,
      Prod.mk.injEq] at h
    obtain ⟨_, -, _, -, _, _, -, _, -, rfl, -⟩ := h
    exact .refl _
  | claimRetrievalPayment retrievalId =>
    simp only [System.marketStep, System.claimRetrievalPayment, bind_eq_ok, Prod.exists, pure_eq_ok,
      Prod.mk.injEq] at h
    obtain ⟨_, -, _, -, _, _, -, rfl, -⟩ := h
    exact .refl _
  | withdrawFees =>
    simp only [System.marketStep, System.withdrawFees, bind_eq_ok, Prod.exists, pure_eq_ok, Prod.mk.injEq] at h
    obtain ⟨_, -, _, -, _, _, -, rfl, -⟩ := h
    exact .refl _
  | setProtocolFee _ | setTreasury _ | updateKynPrice _ =>
    simp only [System.marketStep, System.setProtocolFee, System.setTreasury, System.updateKynPrice, bind_eq_ok,
      pure_eq_ok, Prod.mk.injEq] at h
    obtain ⟨_, -, _, -, rfl, -⟩ := h
    exact .refl _
  | setPaymentDistributor distributor =>
    simp only [System.marketStep, System.setPaymentDistributor, bind_eq_ok, pure_eq_ok, Prod.mk.injEq] at h
    obtain ⟨_, -, _, -, _, -, rfl, -⟩ := h
    exact .refl _
  | transferOwnership _ | renounceOwnership =>
    simp only [System.marketStep, bind_eq_ok, pure_eq_ok, Prod.mk.injEq] at h
    obtain ⟨_, -, rfl, -⟩ := h
    exact .refl _

end Steps

/-! ## Steps of the deployment -/

/-- `p` asks the registry to be reactivated. -/
def ProtocolAction.Reactivates {sites : ProtocolSites} (a : ProtocolAction sites) (p : Address) : Prop :=
  p = a.msg.sender ∧ a.call = .network (.base (.registry .reactivateProvider))

section Protocol

variable {sites : ProtocolSites} {n n' : Protocol} {a : ProtocolAction sites} {logs : List ProtocolLog}

/-- What a call of the other contracts does to the standings. -/
theorem networkStep_standings {c : NetworkCall} {network : Network} {l : List NetworkLog}
    (hcall : a.call = .network c) (h : n.toNetwork.step sites.toSites (a.toNetwork c) = .ok (network, l)) :
    StandingsChange a.time a.msg.sender a.Reactivates n.registry network.registry := by
  cases networkStep_of_ok h with
  | market _ done => exact marketStep_standings done
  | token _ _ | pledge _ _ => exact .refl _
  | @registry c' registry l call done =>
    apply StandingsChange.single
    intro p
    refine Change.mono ?_ (ProviderRegistry.step_change done p).1
    intro hasks
    refine ⟨hasks.1, hcall.trans ?_⟩
    have hc : c = .base (.registry c') := call
    -- only a call of `reactivateProvider` asks for it
    cases c' with
    | reactivateProvider => rw [hc]
    | _ => cases hasks.2
  | distributor call done =>
    rw [(distributorStep_frame done).2.1]
    exact .refl _

/-- Every step changes the standings by changes of the registry. -/
theorem step_standings (h : n.step sites a = .ok (n', logs)) :
    StandingsChange a.time a.msg.sender a.Reactivates n.registry n'.registry := by
  cases hcall : a.call with
  | network c =>
    simp only [Protocol.step, hcall, bind_eq_ok, pure_eq_ok, Prod.exists, Prod.mk.injEq] at h
    obtain ⟨network, l, hnetwork, rfl, -⟩ := h
    exact networkStep_standings hcall hnetwork
  | slashing c =>
    simp only [Protocol.step, hcall] at h
    cases c with
    | slashMissedPost provider collateral =>
      obtain ⟨-, -, registry, recorded, hrecord, hout⟩ := Protocol.slashMissedPost_eq_ok.mp h
      obtain ⟨rfl, -⟩ := Prod.mk.inj hout
      obtain ⟨hreg, hchanged, -⟩ := ProviderRegistry.recordSlashing_ok hrecord
      exact .single fun p => hchanged.change fun _ => .slashes hreg
    | slashDataLoss provider dealCollateral =>
      simp only [Protocol.slashingStep, Protocol.slashDataLoss, bind_eq_ok, pure_eq_ok, Prod.exists,
        Protocol.applySlashing_eq_ok, Prod.mk.injEq] at h
      obtain ⟨_, -, _, _, ⟨-, -, rfl, -⟩, r₁, _, hlower, r₂, _, hrecord, rfl, -⟩ := h
      obtain ⟨hreg, hlowered, -⟩ := ProviderRegistry.decreaseReputation_ok hlower
      obtain ⟨hreg', hrecorded, -⟩ := ProviderRegistry.recordSlashing_ok hrecord
      exact StandingsChange.trans (.single fun p => hlowered.change fun _ => .lowers 50 hreg)
        (.single fun p => hrecorded.change fun _ => .slashes hreg')
    | slashEarlyExit provider penaltyAmount =>
      simp only [Protocol.slashingStep, Protocol.slashEarlyExit, bind_eq_ok, Protocol.applySlashing_eq_ok,
        Prod.mk.injEq] at h
      obtain ⟨_, -, -, -, rfl, -⟩ := h
      exact .refl _
    | submitAppeal i evidence =>
      simp only [Protocol.slashingStep, bind_eq_ok, pure_eq_ok, Prod.exists, Prod.mk.injEq] at h
      obtain ⟨_, _, -, rfl, -⟩ := h
      exact .refl _
    | resolveAppeal provider i upheld =>
      cases upheld with
      | true =>
        obtain ⟨-, -, hout⟩ := Protocol.resolveAppeal_upheld_eq_ok.mp h
        obtain ⟨rfl, -⟩ := Prod.mk.inj hout
        exact .refl _
      | false =>
        obtain ⟨-, -, -, registry, raised, hraise, hout⟩ := Protocol.resolveAppeal_granted_eq_ok.mp h
        obtain ⟨rfl, -⟩ := Prod.mk.inj hout
        obtain ⟨hreg, hchanged, -⟩ := ProviderRegistry.increaseReputation_ok hraise
        exact .single fun p => hchanged.change fun _ => .raises 10 hreg
    | transferOwnership newOwner | renounceOwnership =>
      simp only [Protocol.slashingStep, bind_eq_ok, pure_eq_ok, Prod.mk.injEq] at h
      obtain ⟨_, -, rfl, -⟩ := h
      exact .refl _

/-- The score and the thresholds, in the deployment. -/
theorem wellKept_protocol {n₀ : Protocol} (h₀ : ∀ p, (n₀.registry.providers p).standing.WellKept)
    (as : List (ProtocolAction sites)) (p : Address) :
    ((run (Protocol.step sites) n₀ as).registry.providers p).standing.WellKept := by
  apply run_invariant (I := fun n : Protocol => (n.registry.providers p).standing.WellKept)
    (C := fun _ _ => True) (h₀ p) _ as (meets_true n₀ as)
  intro n a n' logs hn _ hstep
  exact (step_standings hstep).keeps (fun _ _ hchange => hchange.wellKept) hn

end Protocol

/-! ## Penalty states -/

/-- What a successful call does to the penalty state of `p`. A miss is also reported to the registry. -/
inductive PenaltyEffect {sites : ProtocolSites} (p : Address) (n : Protocol) (a : ProtocolAction sites)
    (n' : Protocol) : Prop
  | same (call : ∀ collateral, a.call ≠ .slashing (.slashMissedPost p collateral))
      (state : n'.slashing.penaltyStates p = n.slashing.penaltyStates p)
  | slashed (amount : Nat) (call : ∀ collateral, a.call ≠ .slashing (.slashMissedPost p collateral))
      (state : n'.slashing.penaltyStates p = (n.slashing.penaltyStates p).penalized a.time amount)
  | missed (collateral : Nat) (call : a.call = .slashing (.slashMissedPost p collateral))
      (registered : (n.registry.providers p).registered = true)
      (standing : (n'.registry.providers p).standing = (n.registry.providers p).standing.slashed a.time)
      (state : n'.slashing.penaltyStates p = ((n.slashing.penaltyStates p).missed a.time).penalized a.time
        ((n.slashing.penaltyStates p).missedPostPenalty a.time collateral))

section Penalties

variable {sites : ProtocolSites} {n n' : Protocol} {a : ProtocolAction sites} {logs : List ProtocolLog}

theorem penaltyEffect_entered {p provider : Address} {amount : Nat} {reason : String}
    (call : ∀ collateral, a.call ≠ .slashing (.slashMissedPost p collateral))
    (hn : n'.slashing = n.slashing.entered a.time provider amount reason) : PenaltyEffect p n a n' := by
  by_cases hp : p = provider
  · subst hp
    exact .slashed amount call (by simp [hn, SlashingManager.entered])
  · exact .same call (by simp [hn, SlashingManager.entered, hp])

/-- What a call does to the penalties of a provider. -/
theorem penalty_effect (h : n.step sites a = .ok (n', logs)) (p : Address) : PenaltyEffect p n a n' := by
  cases hcall : a.call with
  | network c =>
    simp only [Protocol.step, hcall, bind_eq_ok, pure_eq_ok, Prod.exists, Prod.mk.injEq] at h
    obtain ⟨network, l, -, rfl, -⟩ := h
    exact .same (by simp [hcall]) rfl
  | slashing c =>
    simp only [Protocol.step, hcall] at h
    cases c with
    | slashMissedPost provider collateral =>
      obtain ⟨-, -, registry, recorded, hrecord, hout⟩ := Protocol.slashMissedPost_eq_ok.mp h
      obtain ⟨rfl, -⟩ := Prod.mk.inj hout
      obtain ⟨hreg, hchanged, -⟩ := ProviderRegistry.recordSlashing_ok hrecord
      by_cases hp : p = provider
      · subst hp
        refine .missed collateral hcall hreg hchanged.standing ?_
        simp [Protocol.missEntered, SlashingManager.entered, SlashingManager.setState, ProtocolAction.time]
      · refine .same ?_ ?_
        · intro c hc
          rw [hcall] at hc
          cases hc
          exact hp rfl
        · simp [Protocol.missEntered, SlashingManager.entered, SlashingManager.setState, hp]
    | slashDataLoss provider dealCollateral =>
      simp only [Protocol.slashingStep, Protocol.slashDataLoss, bind_eq_ok, pure_eq_ok, Prod.exists,
        Protocol.applySlashing_eq_ok, Prod.mk.injEq] at h
      obtain ⟨_, -, _, _, ⟨-, -, rfl, -⟩, _, _, -, _, _, -, rfl, -⟩ := h
      exact penaltyEffect_entered (by simp [hcall]) rfl
    | slashEarlyExit provider penaltyAmount =>
      simp only [Protocol.slashingStep, Protocol.slashEarlyExit, bind_eq_ok, Protocol.applySlashing_eq_ok,
        Prod.mk.injEq] at h
      obtain ⟨_, -, -, -, rfl, -⟩ := h
      exact penaltyEffect_entered (by simp [hcall]) rfl
    | submitAppeal i evidence =>
      simp only [Protocol.slashingStep, SlashingManager.submitAppeal, bind_eq_ok, require_eq_ok, pure_eq_ok,
        Prod.exists, Prod.mk.injEq, exists_const] at h
      obtain ⟨_, _, ⟨-, -, -, -, rfl, -⟩, rfl, -⟩ := h
      exact .same (by simp [hcall]) rfl
    | resolveAppeal provider i upheld =>
      cases upheld with
      | true =>
        obtain ⟨-, -, hout⟩ := Protocol.resolveAppeal_upheld_eq_ok.mp h
        obtain ⟨rfl, -⟩ := Prod.mk.inj hout
        exact .same (by simp [hcall]) rfl
      | false =>
        obtain ⟨-, -, -, _, _, -, hout⟩ := Protocol.resolveAppeal_granted_eq_ok.mp h
        obtain ⟨rfl, -⟩ := Prod.mk.inj hout
        exact .same (by simp [hcall]) rfl
    | transferOwnership newOwner | renounceOwnership =>
      simp only [Protocol.slashingStep, bind_eq_ok, pure_eq_ok, Prod.mk.injEq] at h
      obtain ⟨_, -, rfl, -⟩ := h
      exact .same (by simp [hcall]) rfl

end Penalties

/-! ## Deregistration after repeated misses -/

/-- Misses in a row that the registry has on its own books: while the row goes on, an active provider has as many
slashings there as the manager has counted misses. -/
structure RowKept (s : Standing) (state : ProviderPenaltyState) (now : Nat) : Prop where
  unregistered : s.registered = false → state.consecutiveMissedPosts = 0
  counted : now - state.lastMissedPostTime ≤ MISS_WINDOW → s.active = true →
    state.consecutiveMissedPosts ≤ s.slashings

/-- A provider that is not reactivated while its row goes on stays on the books. -/
theorem Change.rowKept {now : Nat} {own asks : Prop} {s s' : Standing} {state : ProviderPenaltyState}
    (h : Change now own asks s s')
    (hasks : asks → now - state.lastMissedPostTime ≤ MISS_WINDOW → state.consecutiveMissedPosts = 0)
    (hs : RowKept s state now) : RowKept s' state now := by
  obtain ⟨hunreg, hcounted⟩ := hs
  cases h with
  | keeps => exact ⟨hunreg, hcounted⟩
  | registers _ fresh =>
    refine ⟨fun _ => hunreg fresh, ?_⟩
    intro _ _
    exact (hunreg fresh).le
  | raises amount registered => exact ⟨hunreg, hcounted⟩
  | lowers amount registered =>
    refine ⟨?_, ?_⟩
    · rw [Standing.lowered_registered]
      exact hunreg
    · intro hsoon hactive
      rw [Standing.lowered_slashings]
      exact hcounted hsoon (Standing.lowered_active.mp hactive).1
  | slashes registered =>
    refine ⟨?_, ?_⟩
    · rw [Standing.slashed_registered]
      exact hunreg
    · intro hsoon hactive
      rw [Standing.slashed_slashings]
      exact (hcounted hsoon (Standing.slashed_active.mp hactive).1).trans (Nat.le_succ _)
  | reactivates asked registered inactive cooled =>
    refine ⟨hunreg, ?_⟩
    intro hsoon _
    exact (hasks asked hsoon).le

/-- The next slashing takes the provider out of service, or an earlier one has. -/
def Standing.Due (s : Standing) : Prop := s.active = false ∨ s.score < 40 ∨ 4 ≤ s.slashings

theorem Standing.slashed_inactive {s : Standing} {now : Nat} : (s.slashed now).active = false ↔ s.Due := by
  rw [← Bool.not_eq_true, slashed_active, Due, ← Bool.not_eq_true]
  grind

section Runs

variable {sites : ProtocolSites} {n n' : Protocol} {a : ProtocolAction sites} {logs : List ProtocolLog} {p : Address}

/-- A call that leaves `p` with five consecutive misses or more leaves it inactive. -/
def Deregisters (p : Address) (e : ProtocolEntry sites) : Prop :=
  ∀ collateral, e.act.call = .slashing (.slashMissedPost p collateral) →
    MAX_CONSECUTIVE_MISSES ≤ (e.post.slashing.penaltyStates p).consecutiveMissedPosts →
      e.post.registry.isProviderActive p = false

/-- The fifth miss in a row, and every later one, finds `p` due. -/
def FifthMissDue (p : Address) (n : Protocol) (a : ProtocolAction sites) : Prop :=
  ∀ collateral, a.call = .slashing (.slashMissedPost p collateral) →
    4 ≤ (n.slashing.penaltyStates p).consecutiveMissedPosts →
      a.time - (n.slashing.penaltyStates p).lastMissedPostTime ≤ MISS_WINDOW →
        (n.registry.providers p).standing.Due

/-- `p` is not reactivated within 48 hours of a miss. -/
def RowNotReset (p : Address) (n : Protocol) (a : ProtocolAction sites) : Prop :=
  a.Reactivates p → a.time - (n.slashing.penaltyStates p).lastMissedPostTime ≤ MISS_WINDOW →
    (n.slashing.penaltyStates p).consecutiveMissedPosts = 0

/-- The fifth miss in a row leaves the provider inactive exactly if it finds it due. -/
theorem deregisters_iff (h : n.step sites a = .ok (n', logs)) :
    Deregisters p (⟨n, a, logs, n'⟩ : ProtocolEntry sites) ↔ FifthMissDue p n a := by
  cases penalty_effect h p with
  | same call _ | slashed _ call _ =>
    constructor
    · intro _ collateral hcall
      exact absurd hcall (call collateral)
    · intro _ collateral hcall
      exact absurd hcall (call collateral)
  | missed collateral call registered standing state =>
    have hregistered : (n'.registry.providers p).registered = true := by
      have := congrArg Standing.registered standing
      rw [Standing.slashed_registered] at this
      exact this.trans registered
    have hactive : n'.registry.isProviderActive p = false ↔ (n.registry.providers p).standing.Due := by
      rw [← Standing.slashed_inactive, ← standing]
      unfold ProviderRegistry.isProviderActive
      rw [hregistered, Bool.true_and]
      rfl
    have hcount : MAX_CONSECUTIVE_MISSES ≤ (n'.slashing.penaltyStates p).consecutiveMissedPosts ↔
        4 ≤ (n.slashing.penaltyStates p).consecutiveMissedPosts ∧
          a.time - (n.slashing.penaltyStates p).lastMissedPostTime ≤ MISS_WINDOW := by
      have hmissed : (n'.slashing.penaltyStates p).consecutiveMissedPosts =
          if a.time - (n.slashing.penaltyStates p).lastMissedPostTime ≤ MISS_WINDOW then
            (n.slashing.penaltyStates p).consecutiveMissedPosts + 1
          else 1 := by
        rw [state]
        rfl
      rw [hmissed, MAX_CONSECUTIVE_MISSES]
      split
      · omega
      · omega
    unfold Deregisters FifthMissDue
    simp only [hactive, hcount, and_imp]

/-- The row of misses of `p` and its standing after a call that does not reset it. -/
theorem rowKept_step (h : n.step sites a = .ok (n', logs)) (hreset : RowNotReset p n a)
    (hrow : RowKept (n.registry.providers p).standing (n.slashing.penaltyStates p) a.time) :
    RowKept (n'.registry.providers p).standing (n'.slashing.penaltyStates p) a.time := by
  have hchain : RowKept (n'.registry.providers p).standing (n.slashing.penaltyStates p) a.time :=
    (step_standings h).keeps (P := fun s => RowKept s (n.slashing.penaltyStates p) a.time)
      (fun _ _ hchange hs => hchange.rowKept hreset hs) hrow
  cases penalty_effect h p with
  | same _ state =>
    rw [state]
    exact hchain
  | slashed amount _ state =>
    rw [state]
    exact ⟨hchain.unregistered, hchain.counted⟩
  | missed collateral call registered standing state =>
    rw [state, standing]
    refine ⟨?_, ?_⟩
    · intro hunreg
      rw [Standing.slashed_registered] at hunreg
      exact absurd (registered.symm.trans hunreg) (by decide)
    · intro _ hactive
      obtain ⟨hbefore, -, -⟩ := Standing.slashed_active.mp hactive
      rw [Standing.slashed_slashings]
      show (if _ then _ else _) ≤ _
      split
      · next hsoon => exact Nat.succ_le_succ (hrow.counted hsoon hbefore)
      · omega

theorem fifthMissDue_of_rowKept
    (hrow : RowKept (n.registry.providers p).standing (n.slashing.penaltyStates p) a.time) :
    FifthMissDue p n a := by
  intro collateral _ hfour hsoon
  cases hactive : (n.registry.providers p).standing.active with
  | false => exact Or.inl hactive
  | true => exact Or.inr (Or.inr (hfour.trans (hrow.counted hsoon hactive)))

/-- **When a fifth miss deregisters**: in every run after the deployment of the manager, every call that leaves `p`
with five consecutive misses leaves it inactive, exactly if each of these calls finds it inactive, below a score of
40 or with four slashings. They do if `p` is not reactivated in the middle of a row. -/
theorem deregistered_run {msg : Msg} {n₀ : Protocol} (hdeploy : n₀.slashing = .deploy msg)
    (as : List (ProtocolAction sites)) (hmono : as.Pairwise fun a b => a.time ≤ b.time) (p : Address) :
    ((∀ e ∈ history (Protocol.step sites) n₀ as, Deregisters p e) ↔
      Meets (Protocol.step sites) (FifthMissDue p) n₀ as) ∧
    (Meets (Protocol.step sites) (RowNotReset p) n₀ as →
      ∀ e ∈ history (Protocol.step sites) n₀ as, Deregisters p e) := by
  constructor
  · rw [meets_iff_history]
    apply forall₂_congr
    intro e he
    exact deregisters_iff (history_ok he)
  · intro hmeets
    have hfresh : n₀.slashing.penaltyStates p = {} := by
      rw [hdeploy]
      rfl
    have hall := @timed_induction _ _ _ (Protocol.step sites) ProtocolAction.time
      (fun n hist now => RowKept (n.registry.providers p).standing (n.slashing.penaltyStates p) now ∧
        ∀ e ∈ hist, Deregisters p e) (RowNotReset p) n₀ ?_ ?_ ?_ as hmono hmeets
    · exact hall.2
    · refine ⟨?_, by simp⟩
      rw [hfresh]
      exact ⟨fun _ => rfl, fun _ _ => Nat.zero_le _⟩
    · intro n hist now later hle ⟨hrow, hhist⟩
      refine ⟨⟨hrow.unregistered, ?_⟩, hhist⟩
      intro hsoon
      exact hrow.counted (by omega)
    · intro n hist a n' logs ⟨hrow, hhist⟩ hreset hstep
      refine ⟨rowKept_step hstep hreset hrow, ?_⟩
      intro e he
      rcases List.mem_append.mp he with he | he
      · exact hhist e he
      · obtain rfl := List.mem_singleton.mp he
        exact (deregisters_iff hstep).mpr (fifthMissDue_of_rowKept hrow)

end Runs

/-! ### Five misses -/

namespace SmallProtocol

/-- The owner slashes account 2 for a missed proof. -/
def missAt (timestamp : Nat) : ProtocolAction sites :=
  account 0 timestamp (.slashing (.slashMissedPost 2 (100 * 10 ^ 18)))

def fiveMisses : List (ProtocolAction sites) :=
  joined (1000 * 10 ^ 18) ++ [missAt DAY, missAt (2 * DAY), missAt (3 * DAY), missAt (4 * DAY), missAt (5 * DAY)]

theorem deregistered_fiveMisses :
    ((run (Protocol.step sites) deployed fiveMisses).slashing.penaltyStates 2).consecutiveMissedPosts = 5 ∧
      ∀ e ∈ history (Protocol.step sites) deployed fiveMisses, Deregisters 2 e := by
  refine ⟨by decide +kernel, ?_⟩
  apply (deregistered_run (show deployed.slashing = .deploy ⟨1, 0⟩ from rfl) fiveMisses (by decide) 2).2
  apply meets_of_forall
  intro a ha n hreactivates
  simp only [fiveMisses, joined, missAt, List.mem_append, List.mem_cons, List.not_mem_nil, or_false] at ha
  rcases ha with (rfl | rfl) | rfl | rfl | rfl | rfl | rfl <;> cases hreactivates.2

/-- The provider falls below a score of 20 and is given its reputation back. Four misses do not lower it so far that
its cool-down begins again, and then it is reactivated. -/
def reset : List (ProtocolAction sites) :=
  joined (1000 * 10 ^ 18) ++
    [account 0 0 (.network (.base (.registry (.decreaseReputation 2 35 "Data loss")))),
      account 0 0 (.network (.base (.registry (.increaseReputation 2 100 "Proofs")))),
      missAt DAY, missAt (3 * DAY), missAt (5 * DAY), missAt (6 * DAY),
      account 1 (7 * DAY) (.network (.base (.registry .reactivateProvider)))]

theorem fifthMiss_goes_through :
    revertOf ((run (Protocol.step sites) deployed reset).step sites (missAt (8 * DAY))) = none := by decide +kernel

/-- The fifth miss in a row is the first that the registry counts since the reactivation. -/
theorem reset_not_deregistered :
    ¬ ∀ e ∈ history (Protocol.step sites) deployed (reset ++ [missAt (8 * DAY)]), Deregisters 2 e := by
  rw [history_snoc_ok (eq_resultOf fifthMiss_goes_through)]
  intro hall
  have hinactive := hall _ (List.mem_append_right _ (List.mem_singleton_self _)) _ rfl (by decide +kernel)
  revert hinactive
  decide +kernel

end SmallProtocol

end Kyneto
