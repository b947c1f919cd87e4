import Kyneto.SlashingManager.Deployed
import Kyneto.SlashingManager.Window

/-!
# How often can a provider be slashed?

A penalty for a missed proof is multiplied by two for every slashing in a row, up to eight times. The power of two is
computed before it is capped, and it does not fit once there are 256 slashings in a row: then no missed proof can be
slashed until there has been a pause of 30 days.

`slashable_iff` says when `slashMissedPost` can be computed. Where it can, the multiplier is what it should be.
-/

namespace Kyneto

open Evm

/-! ## Events in a row -/

namespace Tally

/-- How many of the newest events come at most `w` after the one before. The newest is first. -/
def streakBack (w : Nat) : List Nat → Nat
  | [] => 0
  | [_] => 1
  | t :: t' :: earlier => if t - t' ≤ w then streakBack w (t' :: earlier) + 1 else 1

/-- The length of the row of events at the end. -/
def streak (w : Nat) (times : List Nat) : Nat := streakBack w times.reverse

/-- The counter counts the row. -/
structure InStep (w : Nat) (c : Tally) : Prop where
  count : c.count = streak w c.times
  last : ∀ t ∈ c.times.getLast?, c.last = t

variable {w now : Nat} {c : Tally}

theorem inStep_empty : InStep w {} := ⟨rfl, nofun⟩

/-- One more slashing keeps the count in step with the times. -/
theorem inStep_add (h : c.InStep w) : (c.add w now).InStep w := by
  constructor
  · show (if now - c.last ≤ w then c.count + 1 else 1) = streakBack w (c.times ++ [now]).reverse
    rw [List.reverse_append, List.reverse_singleton, List.singleton_append, h.count, streak]
    have hlast := h.last
    rw [← List.head?_reverse] at hlast
    cases hrow : c.times.reverse with
    | nil =>
      -- the first event counts once, whether or not it comes within the window of time zero
      show (if _ then 0 + 1 else 1) = 1
      split <;> rfl
    | cons t earlier =>
      rw [hrow] at hlast
      rw [hlast t rfl]
      rfl
  · intro t ht
    have hnow : (c.times ++ [now]).getLast? = some now := by simp
    exact Option.some.inj (hnow.symm.trans ht)

end Tally

/-! ## The charge for a missed proof -/

namespace SlashingManager

/-- What `slashMissedPost` computes, apart from its calls of the token and the registry. -/
def chargeMissedPost (m : SlashingManager) (now : Nat) (provider : Address) (collateral : Nat) :
    Tx SlashingManager := do
  let m ← m.countMiss now provider
  let scaled ← checkedMul collateral MISSED_POST_PENALTY_RATE
  let multiplier ← m.calculateRepeatMultiplier now provider
  let penalty ← checkedMul (scaled / 10000) multiplier
  m.enter now provider penalty "Missed PoSt proof"

/-- A miss at time `now` can be charged: there are fewer than 256 slashings in a row before it, if it comes in time to
belong to the row, and no counter and no time leaves the range of numbers. -/
structure Fits (m : SlashingManager) (p : Address) (now collateral : Nat) : Prop where
  few : now - (m.penaltyStates p).lastSlashTime ≤ REPEAT_WINDOW →
    Tally.streak REPEAT_WINDOW ((m.slashingHistory p).map SlashingRecord.timestamp) < 256
  misses : now - (m.penaltyStates p).lastMissedPostTime ≤ MISS_WINDOW →
    (m.penaltyStates p).consecutiveMissedPosts + 1 < uint256Size
  total : (m.penaltyStates p).totalSlashed + (m.penaltyStates p).missedPostPenalty now collateral < uint256Size
  deadline : now + APPEAL_WINDOW < uint256Size

section Charge

variable {m : SlashingManager} {p : Address} {now collateral : Nat}

/-- The arithmetic of the call goes through exactly if its numbers fit. -/
theorem chargeMissedPost_ok (hmiss : (m.penaltyStates p).lastMissedPostTime ≤ now)
    (hslash : (m.penaltyStates p).lastSlashTime ≤ now) (hstep : (m.tally p).InStep REPEAT_WINDOW)
    (hcollateral : collateral ≤ MAX_SUPPLY) :
    (∃ m', m.chargeMissedPost now p collateral = .ok m') ↔ m.Fits p now collateral := by
  have hstate : ∀ s : ProviderPenaltyState, (m.setState p s).penaltyStates p = s := by
    intro s
    simp [setState]
  have hscaled : collateral * MISSED_POST_PENALTY_RATE < uint256Size :=
    Nat.lt_of_le_of_lt (Nat.mul_le_mul_right _ hcollateral) (by decide)
  have hstreak : (m.penaltyStates p).slashCountInWindow =
      Tally.streak REPEAT_WINDOW ((m.slashingHistory p).map SlashingRecord.timestamp) := hstep.count
  simp only [chargeMissedPost, bind_eq_ok, countMiss_eq_ok, checkedMul_eq_ok, calculateRepeatMultiplier_eq_ok,
    enter_eq_ok]
  constructor
  · rintro ⟨_, _, ⟨hcount, rfl⟩, _, ⟨-, rfl⟩, _, ⟨-, hfew, rfl⟩, _, ⟨-, rfl⟩, henter, rfl⟩
    rw [hstate] at hfew henter
    exact ⟨fun hsoon => hstreak ▸ hfew hsoon, hcount.misses_lt, henter.total_lt, henter.deadline_lt⟩
  · intro h
    have hfew : now - (m.penaltyStates p).lastSlashTime ≤ REPEAT_WINDOW →
        (m.penaltyStates p).slashCountInWindow < 256 := fun hsoon => hstreak ▸ h.few hsoon
    have hsmall : 256 < uint256Size := by decide
    refine ⟨_, _, ⟨⟨hmiss, h.misses⟩, rfl⟩, _, ⟨hscaled, rfl⟩, _, ⟨?_, ?_, rfl⟩, _, ⟨?_, rfl⟩, ?_, rfl⟩
    · rw [hstate]
      exact hslash
    · rw [hstate]
      exact hfew
    · rw [hstate]
      exact Nat.lt_of_le_of_lt (Nat.le_add_left _ _) h.total
    · rw [hstate]
      refine ⟨hslash, h.total, fun hsoon => ?_, h.deadline⟩
      have hlt := hfew hsoon
      show (m.penaltyStates p).slashCountInWindow + 1 < uint256Size
      omega

end Charge

end SlashingManager

/-- The call charges the provider for the missed proof. -/
theorem slashMissedPost_charges {sites : ProtocolSites} {n : Protocol} {msg : Msg} {p : Address} {collateral : Nat}
    {out : Protocol × List ProtocolLog} (h : n.slashMissedPost sites msg p collateral = .ok out) :
    n.slashing.chargeMissedPost msg.timestamp p collateral = .ok out.1.slashing := by
  simp only [Protocol.slashMissedPost, Protocol.applySlashing, bind_eq_ok, pure_eq_ok, Prod.exists] at h
  obtain ⟨-, -, m, hmiss, scaled, hscaled, multiplier, hmultiplier, penalty, hpenalty, _, _,
    ⟨token, burned, -, slashing, henter, hout⟩, registry, recorded, -, rfl⟩ := h
  obtain ⟨rfl, -⟩ := Prod.mk.inj hout
  simp only [SlashingManager.chargeMissedPost, bind_eq_ok]
  exact ⟨m, hmiss, scaled, hscaled, multiplier, hmultiplier, penalty, hpenalty, henter⟩

/-! ## Runs -/

/-- A missed proof at time `now` can be charged, with the multiplier of a row of slashings, and the multiplier does not
fall while the row goes on. -/
structure Slashable (sites : ProtocolSites) (n : Protocol) (p : Address) (now collateral : Nat) : Prop where
  charge : ∃ m', n.slashing.chargeMissedPost now p collateral = .ok m'
  multiplier : n.slashing.calculateRepeatMultiplier now p =
    .ok (if REPEAT_WINDOW < now - (n.slashing.penaltyStates p).lastSlashTime then 1
      else min 8 (2 ^ Tally.streak REPEAT_WINDOW ((n.slashing.slashingHistory p).map SlashingRecord.timestamp)))
  grows : ∀ (a : ProtocolAction sites) n' logs later x y, n.step sites a = .ok (n', logs) →
    a.call.slashes p = true → a.time = now → later - now ≤ REPEAT_WINDOW →
      n.slashing.calculateRepeatMultiplier now p = .ok x → n'.slashing.calculateRepeatMultiplier later p = .ok y → x ≤ y

section Runs

variable {sites : ProtocolSites} {n n₀ : Protocol} {msg : Msg} {p : Address} {now collateral : Nat}

/-- In every run the counts are those of the slashings. -/
theorem inStep_run (hdeploy : n₀.slashing = .deploy msg) (as : List (ProtocolAction sites)) (p : Address) :
    ((run (Protocol.step sites) n₀ as).slashing.tally p).InStep REPEAT_WINDOW := by
  apply run_invariant (I := fun n : Protocol => (n.slashing.tally p).InStep REPEAT_WINDOW) (C := fun _ _ => True) _ _ as
    (meets_true n₀ as)
  · have hempty : n₀.slashing.tally p = {} := by
      rw [hdeploy]
      rfl
    rw [hempty]
    exact Tally.inStep_empty
  · intro n a n' logs hn _ hstep
    cases tally_effect hstep p with
    | same _ tally => exact tally ▸ hn
    | slashed _ _ tally =>
      rw [tally]
      exact Tally.inStep_add hn

/-- One more slashing in the row. -/
theorem repeatMultiplier_le {s s' : ProviderPenaltyState} {later : Nat} (hlast : s'.lastSlashTime = now)
    (hcount : s'.slashCountInWindow = if now - s.lastSlashTime ≤ REPEAT_WINDOW then s.slashCountInWindow + 1 else 1)
    (hlater : later - now ≤ REPEAT_WINDOW) : s.repeatMultiplier now ≤ s'.repeatMultiplier later := by
  have hpos : ∀ k, 1 ≤ min (2 ^ k) 8 := fun k => le_min Nat.one_le_two_pow (by decide)
  have hnext : s'.repeatMultiplier later = min (2 ^ s'.slashCountInWindow) 8 := by
    rw [ProviderPenaltyState.repeatMultiplier, hlast, if_neg (Nat.not_lt.mpr hlater)]
  rw [hnext, hcount, ProviderPenaltyState.repeatMultiplier]
  split
  · exact hpos _
  · next hsoon =>
    rw [if_pos (Nat.le_of_not_lt hsoon)]
    exact min_le_min_right 8 (Nat.pow_le_pow_right (by decide) (Nat.le_succ _))

/-- **When a missed proof can be slashed**: in every state that the deployment can reach, the arithmetic of
`slashMissedPost` goes through, with the multiplier of the row of slashings, exactly if the row is shorter than 256 and
the counters fit. A call that goes through makes this charge. -/
theorem slashable_iff (hdeploy : n₀.slashing = .deploy msg) (as : List (ProtocolAction sites))
    (hmono : as.Pairwise fun a b => a.time ≤ b.time) (hn : n = run (Protocol.step sites) n₀ as)
    (hnow : lastTime ProtocolAction.time as ≤ now) (p : Address) (hcollateral : collateral ≤ MAX_SUPPLY) :
    (Slashable sites n p now collateral ↔ n.slashing.Fits p now collateral) ∧
      ∀ caller out, n.slashMissedPost sites ⟨caller, now⟩ p collateral = .ok out →
        n.slashing.chargeMissedPost now p collateral = .ok out.1.slashing := by
  refine ⟨?_, fun caller out h => slashMissedPost_charges h⟩
  have hclock : Clocked p n (lastTime ProtocolAction.time as) := hn ▸ clocked_run hdeploy as hmono p
  have hstep : (n.slashing.tally p).InStep REPEAT_WINDOW := hn ▸ inStep_run hdeploy as p
  have hcharge := SlashingManager.chargeMissedPost_ok (hclock.miss_le.trans hnow) (hclock.slash_le.trans hnow) hstep
    hcollateral
  constructor
  · intro h
    exact hcharge.mp h.charge
  · intro h
    have hcount : (n.slashing.penaltyStates p).slashCountInWindow =
        Tally.streak REPEAT_WINDOW ((n.slashing.slashingHistory p).map SlashingRecord.timestamp) := hstep.count
    refine ⟨hcharge.mpr h, ?_, ?_⟩
    · refine SlashingManager.calculateRepeatMultiplier_eq_ok.mpr ⟨hclock.slash_le.trans hnow, ?_, ?_⟩
      · intro hsoon
        exact hcount ▸ h.few hsoon
      · rw [ProviderPenaltyState.repeatMultiplier, hcount, min_comm]
    · intro a n' logs later x y hslash hcall htime hlater hx hy
      obtain ⟨-, -, rfl⟩ := SlashingManager.calculateRepeatMultiplier_eq_ok.mp hx
      obtain ⟨-, -, rfl⟩ := SlashingManager.calculateRepeatMultiplier_eq_ok.mp hy
      cases tally_effect hslash p with
      | same call _ => exact absurd (call.symm.trans hcall) (by decide)
      | slashed _ _ tally =>
        subst htime
        exact repeatMultiplier_le (congrArg Tally.last tally) (congrArg Tally.count tally) hlater

end Runs

/-! ### Two slashings, and 256 -/

namespace SmallProtocol

/-- A third miss within 30 days of the second can be slashed. -/
theorem spaced_slashable :
    Slashable sites (run (Protocol.step sites) deployed spaced) 2 (41 * DAY) (100 * 10 ^ 18) := by
  refine (slashable_iff (show deployed.slashing = .deploy ⟨1, 0⟩ from rfl) spaced (by decide) rfl (by decide) 2
    (by decide)).1.mpr ⟨?_, ?_, ?_, ?_⟩
  · decide +kernel
  · decide +kernel
  · decide +kernel
  · decide +kernel

/-- The owner slashes account 2 by one token. -/
def exit : ProtocolAction sites := account 0 0 (.slashing (.slashEarlyExit 2 (10 ^ 18)))

/-- The deployment after `k` of these slashings. -/
structure Exited (n : Protocol) (k : Nat) : Prop where
  owner : n.slashing.owner = 1
  burner : n.token.authorizedBurners sites.slashing = true
  balance : n.token.balanceOf 2 + k * 10 ^ 18 = 1000 * 10 ^ 18
  burned : n.token.totalTokensBurned = k * 10 ^ 18
  total : (n.slashing.penaltyStates 2).totalSlashed = k * 10 ^ 18
  count : (n.slashing.penaltyStates 2).slashCountInWindow = k
  last : (n.slashing.penaltyStates 2).lastSlashTime = 0

theorem exited_joined : Exited (run (Protocol.step sites) deployed (joined (1000 * 10 ^ 18))) 0 := by
  refine ⟨?_, ?_, ?_, ?_, ?_, ?_, ?_⟩ <;> decide +kernel

/-- One more slashing goes through while there are tokens. -/
theorem exited_exec {n : Protocol} {k : Nat} (h : Exited n k) (hk : k < 1000) :
    Exited (exec (Protocol.step sites) n exit) (k + 1) := by
  have hsmall : 2000 * 10 ^ 18 < uint256Size := by decide
  have hburnable : Protocol.Burnable sites n.token 2 (10 ^ 18) := by
    refine ⟨h.burner, by decide, ?_, ?_⟩
    · have hbalance := h.balance
      omega
    · rw [h.burned]
      omega
  have henterable : SlashingManager.Enterable (n.slashing.penaltyStates 2) 0 (10 ^ 18) := by
    refine ⟨h.last.le, ?_, fun _ => ?_, by decide⟩
    · rw [h.total]
      omega
    · rw [h.count]
      omega
  have hstep : n.step sites exit = .ok
      ({ n with
          token := n.token.afterBurn 2 (10 ^ 18)
          slashing := n.slashing.entered 0 2 (10 ^ 18) "Early pledge exit" },
        [.ofToken (.Transfer 2 0 (10 ^ 18)), .slashing (.ProviderSlashed 2 (10 ^ 18) "Early pledge exit")]) := by
    show n.slashEarlyExit sites ⟨1, 0⟩ 2 (10 ^ 18) = _
    unfold Protocol.slashEarlyExit
    refine bind_eq_ok.mpr ⟨(), onlyOwner_eq_ok.mpr h.owner.symm, ?_⟩
    exact Protocol.applySlashing_eq_ok.mpr ⟨hburnable, henterable, rfl⟩
  rw [exec_of_ok hstep]
  have hstate : (n.slashing.entered 0 2 (10 ^ 18) "Early pledge exit").penaltyStates 2 =
      (n.slashing.penaltyStates 2).penalized 0 (10 ^ 18) := by
    simp [SlashingManager.entered]
  refine ⟨h.owner, h.burner, ?_, ?_, ?_, ?_, ?_⟩
  · show Function.update n.token.balanceOf 2 (n.token.balanceOf 2 - 10 ^ 18) 2 + _ = _
    rw [Function.update_self]
    have hbalance := h.balance
    omega
  · show n.token.totalTokensBurned + 10 ^ 18 = _
    rw [h.burned]
    omega
  · rw [hstate]
    show (n.slashing.penaltyStates 2).totalSlashed + 10 ^ 18 = _
    rw [h.total]
    omega
  · -- all of them come at time zero, so the row goes on
    rw [hstate, ← h.count]
    show (if 0 - _ ≤ REPEAT_WINDOW then _ else _) = _
    rw [Nat.zero_sub, if_pos (Nat.zero_le _)]
  · rw [hstate]
    rfl

theorem exited_run {k : Nat} (hk : k ≤ 1000) :
    Exited (run (Protocol.step sites) deployed (joined (1000 * 10 ^ 18) ++ List.replicate k exit)) k := by
  induction k with
  | zero => exact exited_joined
  | succ k ih =>
    rw [List.replicate_succ', ← List.append_assoc, run_snoc]
    exact exited_exec (ih (Nat.le_of_succ_le hk)) hk

/-- After 256 slashings a missed proof cannot be slashed. -/
theorem exited_not_slashable :
    ¬ Slashable sites (run (Protocol.step sites) deployed (joined (1000 * 10 ^ 18) ++ List.replicate 256 exit)) 2 DAY
      (100 * 10 ^ 18) := by
  intro h
  have hexited := exited_run (show 256 ≤ 1000 by decide)
  obtain ⟨-, hfew, -⟩ := SlashingManager.calculateRepeatMultiplier_eq_ok.mp h.multiplier
  rw [hexited.last, hexited.count] at hfew
  exact absurd (hfew (by decide)) (by decide)

end SmallProtocol

end Kyneto
