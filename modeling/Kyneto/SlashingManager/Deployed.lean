import Kyneto.CapacityPledge.Collateral
import Kyneto.SlashingManager.Standing

/-!
# What the owner of the deployed manager can do

A slashing takes its tokens from the provider's account, while the collateral that it is measured by lies with
`CapacityPledge`. So the owner can slash a provider exactly as far as its free balance goes (`enforced_iff`). An appeal
is granted by minting, which the deployment script does not let the manager do (`granted_iff`).

Both results are about every state that the deployment can reach. What they need of such a state is `Orderly`, and
that no time on the manager's books lies in the future (`Clocked`).
-/

namespace Kyneto

open Evm

/-! ## Reachable states -/

/-- Nobody is registered, and nobody has been slashed, at the zero address. -/
structure Orderly (n : Protocol) : Prop where
  wellKept : ∀ p, (n.registry.providers p).standing.WellKept
  zero_unregistered : (n.registry.providers 0).standing.registered = false
  zero_unslashed : n.slashing.slashingHistory 0 = []

/-- No miss and no slashing of `p` is later than `now`. -/
structure Clocked (p : Address) (n : Protocol) (now : Nat) : Prop where
  miss_le : (n.slashing.penaltyStates p).lastMissedPostTime ≤ now
  slash_le : (n.slashing.penaltyStates p).lastSlashTime ≤ now

theorem Change.unregistered {now : Nat} {own asks : Prop} {s s' : Standing} (h : Change now own asks s s')
    (hown : ¬ own) (hs : s.registered = false) : s'.registered = false := by
  cases h with
  | keeps => exact hs
  | registers self => exact absurd self hown
  | raises _ registered | lowers _ registered | slashes registered | reactivates _ registered =>
    rw [hs] at registered
    cases registered

section Reachable

variable {sites : ProtocolSites} {n n' n₀ : Protocol} {a : ProtocolAction sites} {logs : List ProtocolLog} {msg : Msg}

/-- All contracts stay in order at every call. -/
theorem orderly_step (h : n.step sites a = .ok (n', logs)) (hn : Orderly n) : Orderly n' where
  wellKept := fun p => (step_standings h).keeps (fun _ _ hchange => hchange.wellKept) (hn.wellKept p)
  zero_unregistered := by
    apply (step_standings h).keeps (P := fun s => s.registered = false) _ hn.zero_unregistered
    intro s s' hchange hs
    exact hchange.unregistered (fun hzero => a.sender_ne_zero hzero.symm) hs
  zero_unslashed := by
    cases slashing_effect h with
    | idle _ _ slashingHistory _ =>
      rw [slashingHistory]
      exact hn.zero_unslashed
    | slashed _ ne_zero slashing _ slashingHistory _ =>
      rw [slashing]
      refine (Function.update_of_ne (Ne.symm ne_zero) _ _).trans ?_
      rw [slashingHistory]
      exact hn.zero_unslashed
    | appealed _ _ _ _ slashing =>
      rw [slashing]
      exact (Function.update_of_ne (Ne.symm a.sender_ne_zero) _ _).trans hn.zero_unslashed
    | @resolved provider _ _ _ _ resolvable slashing =>
      have hne : (0 : Address) ≠ provider := by
        rintro rfl
        have hlt := resolvable.lt
        rw [hn.zero_unslashed] at hlt
        cases hlt
      rw [slashing]
      exact (Function.update_of_ne hne _ _).trans hn.zero_unslashed

/-- No date in the books lies in the future. -/
theorem clocked_step {p : Address} (h : n.step sites a = .ok (n', logs)) (hn : Clocked p n a.time) :
    Clocked p n' a.time := by
  cases penalty_effect h p with
  | same _ state =>
    refine ⟨?_, ?_⟩
    · rw [state]
      exact hn.miss_le
    · rw [state]
      exact hn.slash_le
  | slashed _ _ state =>
    refine ⟨?_, ?_⟩
    · rw [state]
      exact hn.miss_le
    · rw [state]
      exact Nat.le_refl _
  | missed _ _ _ _ state =>
    refine ⟨?_, ?_⟩
    · rw [state]
      exact Nat.le_refl _
    · rw [state]
      exact Nat.le_refl _

/-- What the deployment script leaves behind. -/
theorem deployV2_fresh (h : Protocol.deployV2 sites msg = .ok n₀) :
    n₀.slashing = .deploy msg ∧ n₀.registry.providers = fun _ => {} := by
  simp only [Protocol.deployV2, Network.deployV2, System.setPaymentDistributor, StorageToken.authorizeMinter,
    StorageToken.authorizeBurner, StorageToken.setMinter, StorageToken.setBurner, ProviderRegistry.step,
    ProviderRegistry.authorizeRecordKeeper, ProviderRegistry.setRecordKeeper, bind_eq_ok, require_eq_ok, pure_eq_ok,
    Prod.exists, Prod.mk.injEq, exists_const] at h
  obtain ⟨network, ⟨_, _, ⟨_, -, -, -, rfl, -⟩, _, _, ⟨_, -, rfl, -⟩, _, _, ⟨_, -, rfl, -⟩, _, _, ⟨_, -, rfl, -⟩,
    _, _, ⟨_, -, rfl, -⟩, rfl⟩, rfl⟩ := h
  exact ⟨rfl, rfl⟩

/-- After the deployment everything is in order. -/
theorem orderly_deployed (h : Protocol.deployV2 sites msg = .ok n₀) : Orderly n₀ := by
  obtain ⟨hslashing, hproviders⟩ := deployV2_fresh h
  refine ⟨?_, ?_, ?_⟩
  · intro p
    rw [hproviders]
    exact ProviderRegistry.wellKept_unregistered
  · rw [hproviders]
    rfl
  · rw [hslashing]
    rfl

theorem orderly_run (h : Protocol.deployV2 sites msg = .ok n₀) (as : List (ProtocolAction sites)) :
    Orderly (run (Protocol.step sites) n₀ as) :=
  run_invariant (C := fun _ _ => True) (orderly_deployed h) (fun _ _ _ _ hn _ hstep => orderly_step hstep hn) as
    (meets_true n₀ as)

/-- The dates are behind the clock in every run with monotone times. -/
theorem clocked_run (hslashing : n₀.slashing = .deploy msg) (as : List (ProtocolAction sites))
    (hmono : as.Pairwise fun a b => a.time ≤ b.time) (p : Address) :
    Clocked p (run (Protocol.step sites) n₀ as) (lastTime ProtocolAction.time as) := by
  apply @timed_induction _ _ _ (Protocol.step sites) ProtocolAction.time (fun n _ now => Clocked p n now)
    (fun _ _ => True) n₀ _ _ _ as hmono (meets_true n₀ as)
  · refine ⟨?_, ?_⟩
    · rw [hslashing]
      exact Nat.zero_le _
    · rw [hslashing]
      exact Nat.zero_le _
  · intro n hist now later hle hn
    exact ⟨hn.miss_le.trans hle, hn.slash_le.trans hle⟩
  · intro n hist a n' logs hn _ hstep
    exact clocked_step hstep hn

end Reachable

/-! ## Granted appeals -/

/-- The appeal against record `i` of `p` has taken effect. -/
structure Granted (n n' : Protocol) (p : Address) (i : Nat) : Prop where
  balance : n'.token.balanceOf p = n.token.balanceOf p + (n.slashing.recordAt p i).amount
  supply : n'.token.totalSupply = n.token.totalSupply + (n.slashing.recordAt p i).amount
  reputation : (n'.registry.providers p).reputationScore = min ((n.registry.providers p).reputationScore + 10) 100
  resolved : (n'.slashing.recordAt p i).resolved = true

/-- **When a granted appeal takes effect**: in every state the deployment can reach, the owner can grant an appeal
exactly if somebody has let the manager mint, the manager may still report to the registry, and the provider is
registered. -/
theorem granted_iff {sites : ProtocolSites} {msg : Msg} {n₀ : Protocol}
    (hdeploy : Protocol.deployV2 sites msg = .ok n₀) (as : List (ProtocolAction sites)) {n : Protocol}
    (hn : n = run (Protocol.step sites) n₀ as) {p : Address} {i : Nat} {a : ProtocolAction sites}
    (hcall : a.call = .slashing (.resolveAppeal p i false)) (howner : a.msg.sender = n.slashing.owner)
    (hrecord : Protocol.Resolvable n.slashing p i)
    (hcap : n.token.totalSupply + (n.slashing.recordAt p i).amount ≤ MAX_SUPPLY) :
    (∃ n' logs, n.step sites a = .ok (n', logs) ∧ Granted n n' p i) ↔
      n.token.authorizedMinters sites.slashing = true ∧
        (sites.slashing = n.registry.owner ∨ n.registry.authorizedRecordKeepers sites.slashing = true) ∧
        (n.registry.providers p).registered = true := by
  have horderly : Orderly n := hn ▸ orderly_run hdeploy as
  have hp : p ≠ 0 := by
    rintro rfl
    have hlt := hrecord.lt
    rw [horderly.zero_unslashed] at hlt
    cases hlt
  have hscore : (n.registry.providers p).reputationScore + 10 < uint256Size := by
    have hle : (n.registry.providers p).reputationScore ≤ MAX_REPUTATION := (horderly.wellKept p).score_le
    have hbig : MAX_REPUTATION + 10 < uint256Size := by decide
    omega
  have hstep : n.step sites a = n.resolveAppeal sites a.msg p i false := by
    simp only [Protocol.step, hcall, Protocol.slashingStep]
  simp only [hstep, Protocol.resolveAppeal_granted_eq_ok, ProviderRegistry.increaseReputation_eq_ok]
  constructor
  · rintro ⟨n', logs, ⟨-, -, ⟨hminter, -, -⟩, _, _, ⟨hkeeper, hreg, -, -⟩, -⟩, -⟩
    exact ⟨hminter, hkeeper, hreg⟩
  · rintro ⟨hminter, hkeeper, hreg⟩
    refine ⟨_, _, ⟨howner, hrecord, ⟨hminter, hcap, hp⟩, _, _, ⟨hkeeper, hreg, hscore, rfl⟩, rfl⟩, ?_⟩
    refine ⟨?_, rfl, ?_, ?_⟩
    · exact Function.update_self _ _ _
    · simp [ProviderRegistry.set, MAX_REPUTATION]
    · have hlt := hrecord.lt
      simp [Protocol.resolvedAt, SlashingManager.setHistory, SlashingManager.recordAt, hlt]

/-! ### Two appeals -/

namespace SmallProtocol

/-- Account 2 appeals against a slashing. -/
def appealed : List (ProtocolAction sites) :=
  joined (1000 * 10 ^ 18) ++
    [account 0 100 (.slashing (.slashMissedPost 2 (500 * 10 ^ 18))),
      account 1 200 (.slashing (.submitAppeal 0 "disk report"))]

/-- The owner grants the appeal. -/
def granting : ProtocolAction sites := account 0 300 (.slashing (.resolveAppeal 2 0 false))

/-- The manager may mint here. -/
def permitted : List (ProtocolAction sites) :=
  appealed ++ [account 0 250 (.network (.base (.token (.authorizeMinter 103))))]

theorem granted_permitted :
    ∃ n' logs, (run (Protocol.step sites) deployed permitted).step sites granting = .ok (n', logs) ∧
      Granted (run (Protocol.step sites) deployed permitted) n' 2 0 :=
  (granted_iff deployV2_eq permitted rfl rfl (by decide +kernel)
    ⟨by decide +kernel, by decide +kernel, by decide +kernel⟩ (by decide +kernel)).mpr
    ⟨by decide +kernel, by decide +kernel, by decide +kernel⟩

/-- After the deployment script alone, the owner's call reverts. -/
theorem appealed_not_granted :
    Protocol.Resolvable (run (Protocol.step sites) deployed appealed).slashing 2 0 ∧
      (run (Protocol.step sites) deployed appealed).token.totalSupply +
          ((run (Protocol.step sites) deployed appealed).slashing.recordAt 2 0).amount ≤ MAX_SUPPLY ∧
      granting.msg.sender = (run (Protocol.step sites) deployed appealed).slashing.owner ∧
      ((run (Protocol.step sites) deployed appealed).registry.providers 2).registered = true ∧
      ¬ ∃ n' logs, (run (Protocol.step sites) deployed appealed).step sites granting = .ok (n', logs) ∧
        Granted (run (Protocol.step sites) deployed appealed) n' 2 0 := by
  refine ⟨⟨by decide +kernel, by decide +kernel, by decide +kernel⟩, by decide +kernel, by decide +kernel,
    by decide +kernel, ?_⟩
  rintro ⟨n', logs, hok, -⟩
  have hreverts : revertOf ((run (Protocol.step sites) deployed appealed).step sites granting) =
      some (.reason "Not authorized to mint") := by decide +kernel
  rw [hok] at hreverts
  cases hreverts

end SmallProtocol

/-! ## Slashings that cannot be evaded -/

/-- The collateral of the active pledges of `p`. -/
def CapacityPledge.collateralOf (c : CapacityPledge) (p : Address) : Nat :=
  ∑ i ∈ Finset.range (c.pledgeCount p), (c.pledges p i).counted Pledge.collateral

/-- The penalty has been burned, and the registry has heard of the slashing. -/
structure Enforced (n n' : Protocol) (p : Address) (penalty now : Nat) : Prop where
  balance : n'.token.balanceOf p + penalty = n.token.balanceOf p
  burned : n'.token.totalTokensBurned = n.token.totalTokensBurned + penalty
  recorded : (n'.registry.providers p).standing = (n.registry.providers p).standing.slashed now

/-- No number of `slashMissedPost` leaves the range of `uint256`. -/
structure InRange (n : Protocol) (p : Address) (collateral penalty now : Nat) : Prop where
  collateral_lt : collateral * MISSED_POST_PENALTY_RATE < uint256Size
  burned_lt : n.token.totalTokensBurned + penalty < uint256Size
  total_lt : (n.slashing.penaltyStates p).totalSlashed + penalty < uint256Size
  misses_lt : now - (n.slashing.penaltyStates p).lastMissedPostTime ≤ MISS_WINDOW →
    (n.slashing.penaltyStates p).consecutiveMissedPosts + 1 < uint256Size
  events_lt : (n.registry.providers p).totalSlashingEvents + 1 < uint256Size
  deadline_lt : now + APPEAL_WINDOW < uint256Size
  cooldown_lt : (n.registry.providers p).reputationScore < 40 ∨ 4 ≤ (n.registry.providers p).totalSlashingEvents →
    now + COOLDOWN_PERIOD < uint256Size

/-- What it takes to slash `p` for a missed proof. -/
structure Enforceable (sites : ProtocolSites) (n : Protocol) (p : Address) (collateral now : Nat) : Prop where
  burner : n.token.authorizedBurners sites.slashing = true
  keeper : sites.slashing = n.registry.owner ∨ n.registry.authorizedRecordKeepers sites.slashing = true
  /-- 1 % of the collateral, times the multiplier for repeats, is in the provider's own account. -/
  funds : collateral * MISSED_POST_PENALTY_RATE / 10000 * (n.slashing.penaltyStates p).repeatMultiplier now ≤
    n.token.balanceOf p
  few : now - (n.slashing.penaltyStates p).lastSlashTime ≤ REPEAT_WINDOW →
    (n.slashing.penaltyStates p).slashCountInWindow < 256
  inRange : InRange n p collateral ((n.slashing.penaltyStates p).missedPostPenalty now collateral) now

/-- **When a slashing is enforced**: in every state the deployment can reach, the owner can slash a registered
provider by the collateral of its pledges exactly if the manager has its permissions, the penalty is in the
provider's own account, it has not been slashed 256 times in the window, and no number overflows. -/
theorem enforced_iff {sites : ProtocolSites} {msg : Msg} {n₀ : Protocol}
    (hdeploy : Protocol.deployV2 sites msg = .ok n₀) (as : List (ProtocolAction sites)) {a : ProtocolAction sites}
    (hmono : (as ++ [a]).Pairwise fun a b => a.time ≤ b.time) {n : Protocol}
    (hn : n = run (Protocol.step sites) n₀ as) {p : Address}
    (hcall : a.call = .slashing (.slashMissedPost p (n.pledges.collateralOf p)))
    (howner : a.msg.sender = n.slashing.owner) (hreg : (n.registry.providers p).registered = true) :
    (∃ n' logs, n.step sites a = .ok (n', logs) ∧
        Enforced n n' p ((n.slashing.penaltyStates p).missedPostPenalty a.time (n.pledges.collateralOf p)) a.time) ↔
      Enforceable sites n p (n.pledges.collateralOf p) a.time := by
  have horderly : Orderly n := hn ▸ orderly_run hdeploy as
  -- the zero address can never register
  have hp : p ≠ 0 := by
    rintro rfl
    exact absurd (horderly.zero_unregistered.symm.trans hreg) (by decide)
  -- the dates in the books lie behind the call
  have hclock : Clocked p n a.time := by
    have hrun := clocked_run (deployV2_fresh hdeploy).1 as (List.pairwise_append.mp hmono).1 p
    have hle : lastTime ProtocolAction.time as ≤ a.time := lastTime_le hmono
    rw [← hn] at hrun
    exact ⟨hrun.miss_le.trans hle, hrun.slash_le.trans hle⟩
  have hstep : n.step sites a = n.slashMissedPost sites a.msg p (n.pledges.collateralOf p) := by
    simp only [Protocol.step, hcall, Protocol.slashingStep]
  rw [hstep]
  -- the two spellings of being due
  have hdue : (n.registry.providers p).reputationScore - 20 < 20 ∨
      5 ≤ (n.registry.providers p).totalSlashingEvents + 1 ↔
        (n.registry.providers p).reputationScore < 40 ∨ 4 ≤ (n.registry.providers p).totalSlashingEvents := by
    omega
  constructor
  -- each condition is a check that the call has passed
  · rintro ⟨n', logs, hok, -⟩
    obtain ⟨-, hs, registry, recorded, hrecord, -⟩ := Protocol.slashMissedPost_eq_ok.mp hok
    have hkeeper := ProviderRegistry.recordSlashing_keeper hrecord
    obtain ⟨hevents, hcooldown⟩ := (ProviderRegistry.recordSlashing_succeeds hkeeper hreg).mp ⟨_, hrecord⟩
    exact ⟨hs.burnable.burner, hkeeper, hs.burnable.funds, hs.few,
      ⟨hs.scaled_lt, hs.burnable.burned_lt, hs.enterable.total_lt, hs.countable.misses_lt, hevents,
        hs.enterable.deadline_lt, fun h => hcooldown (hdue.mpr h)⟩⟩
  -- conversely, every check and every addition is met
  · intro h
    have hcount : a.time - (n.slashing.penaltyStates p).lastSlashTime ≤ REPEAT_WINDOW →
        (n.slashing.penaltyStates p).slashCountInWindow + 1 < uint256Size := by
      intro hsoon
      have hfew := h.few hsoon
      have hsmall : 256 < uint256Size := by decide
      omega
    have hpenalty : (n.slashing.penaltyStates p).missedPostPenalty a.time (n.pledges.collateralOf p) < uint256Size :=
      lt_of_le_of_lt (Nat.le_add_left _ _) h.inRange.burned_lt
    have hslashable : Protocol.MissSlashable sites n.token (n.slashing.penaltyStates p) a.time p
        (n.pledges.collateralOf p) :=
      ⟨⟨hclock.miss_le, h.inRange.misses_lt⟩, h.inRange.collateral_lt, h.few, hpenalty,
        ⟨h.burner, hp, h.funds, h.inRange.burned_lt⟩,
        ⟨hclock.slash_le, h.inRange.total_lt, hcount, h.inRange.deadline_lt⟩⟩
    obtain ⟨⟨registry, recorded⟩, hrecord⟩ :=
      (@ProviderRegistry.recordSlashing_succeeds n.registry (Protocol.manager sites a.time) p h.keeper hreg).mpr
        ⟨h.inRange.events_lt, fun hd => h.inRange.cooldown_lt (hdue.mp hd)⟩
    refine ⟨_, _, Protocol.slashMissedPost_eq_ok.mpr ⟨howner, hslashable, registry, recorded, hrecord, rfl⟩, ?_⟩
    -- the burned penalty is what is missing in the account
    refine ⟨?_, rfl, (ProviderRegistry.recordSlashing_ok hrecord).2.1.standing⟩
    have hfunds : (n.slashing.penaltyStates p).missedPostPenalty a.time (n.pledges.collateralOf p) ≤
        n.token.balanceOf p := h.funds
    show Function.update n.token.balanceOf p _ p + _ = _
    rw [Function.update_self]
    exact Nat.sub_add_cancel hfunds

/-! ### Two pledges -/

namespace SmallProtocol

/-- Account 2 has 1000 tokens and locks some of them in a pledge of 100 GB for 30 days. -/
def pledged (collateral : Nat) : List (ProtocolAction sites) :=
  joined (1000 * 10 ^ 18) ++
    [account 1 0 (.network (.base (.token (.approve 101 (1000 * 10 ^ 18))))),
      account 1 0 (.network (.pledge (.createPledge 100 (30 * 86400) collateral)))]

/-- The owner slashes it for a missed proof, by the collateral. -/
def slashing (collateral : Nat) : ProtocolAction sites :=
  account 0 DAY (.slashing (.slashMissedPost 2 collateral))

/-- In the example, a provider with enough collateral is slashed as announced. -/
theorem enforced_pledged :
    ∃ n' logs, (run (Protocol.step sites) deployed (pledged (500 * 10 ^ 18))).step sites
        (slashing (500 * 10 ^ 18)) = .ok (n', logs) ∧
      Enforced (run (Protocol.step sites) deployed (pledged (500 * 10 ^ 18))) n' 2 (5 * 10 ^ 18) DAY := by
  have hcall : (slashing (500 * 10 ^ 18)).call = .slashing (.slashMissedPost 2
      ((run (Protocol.step sites) deployed (pledged (500 * 10 ^ 18))).pledges.collateralOf 2)) := by
    have hcollateral : (run (Protocol.step sites) deployed (pledged (500 * 10 ^ 18))).pledges.collateralOf 2 =
        500 * 10 ^ 18 := by decide +kernel
    rw [hcollateral]
    rfl
  have hpenalty : ((run (Protocol.step sites) deployed (pledged (500 * 10 ^ 18))).slashing.penaltyStates
      2).missedPostPenalty (slashing (500 * 10 ^ 18)).time
        ((run (Protocol.step sites) deployed (pledged (500 * 10 ^ 18))).pledges.collateralOf 2) =
      5 * 10 ^ 18 := by decide +kernel
  have henforced := (enforced_iff deployV2_eq (pledged (500 * 10 ^ 18)) (by decide) rfl hcall (by decide +kernel)
    (by decide +kernel)).mpr ⟨by decide +kernel, by decide +kernel, by decide +kernel, by decide +kernel,
      ⟨by decide +kernel, by decide +kernel, by decide +kernel, by decide +kernel, by decide +kernel,
        by decide +kernel, by decide +kernel⟩⟩
  rw [hpenalty] at henforced
  exact henforced

/-- All tokens are locked, and none are left to burn. -/
theorem locked_not_enforced :
    ((run (Protocol.step sites) deployed (pledged (1000 * 10 ^ 18))).registry.providers 2).registered = true ∧
      ((run (Protocol.step sites) deployed (pledged (1000 * 10 ^ 18))).pledges.pledges 2 0).active = true ∧
      (run (Protocol.step sites) deployed (pledged (1000 * 10 ^ 18))).pledges.collateralOf 2 = 1000 * 10 ^ 18 ∧
      (slashing (1000 * 10 ^ 18)).msg.sender =
        (run (Protocol.step sites) deployed (pledged (1000 * 10 ^ 18))).slashing.owner ∧
      revertOf ((run (Protocol.step sites) deployed (pledged (1000 * 10 ^ 18))).step sites
        (slashing (1000 * 10 ^ 18))) = some (.error "ERC20InsufficientBalance") :=
  ⟨by decide +kernel, by decide +kernel, by decide +kernel, by decide +kernel, by decide +kernel⟩

end SmallProtocol

end Kyneto
