import Kyneto.TokenVesting.Release

/-!
# Revocations

`revoke` sends the owner everything that is not released, and `release` refuses a revoked schedule. So what has vested
but was not released goes to the owner: the beneficiary keeps what has vested exactly if it was all released before.
-/

namespace Kyneto

open Evm

section Runs

variable {this b : Address} {s s' : VestingSystem} {a : VestingAction this} {logs : List VestingEvent}

/-- A revoked schedule pays nothing any more. -/
theorem received_revoked (hexists : 0 < (s.vesting.vestingSchedules b).totalAmount)
    (hrevoked : (s.vesting.vestingSchedules b).revoked = true) (as : List (VestingAction this)) :
    received b (history (VestingSystem.step this) s as) = 0 := by
  have hrun : 0 < ((run (VestingSystem.step this) s as).vesting.vestingSchedules b).totalAmount ∧
      ((run (VestingSystem.step this) s as).vesting.vestingSchedules b).revoked = true ∧
      received b (history (VestingSystem.step this) s as) = 0 := by
    apply run_induction
      (P := fun s hist => 0 < (s.vesting.vestingSchedules b).totalAmount ∧
        (s.vesting.vestingSchedules b).revoked = true ∧ received b hist = 0)
      (C := fun _ _ => True) _ _ as (meets_true s as)
    · exact ⟨hexists, hrevoked, rfl⟩
    · intro s hist a s' logs h _ hstep
      obtain ⟨hexists, hrevoked, hnothing⟩ := h
      cases step_schedule hexists hstep with
      | kept hother hsame =>
        rw [hsame, received_snoc_of_ne hother]
        exact ⟨hexists, hrevoked, hnothing⟩
      | revoked hother hagain =>
        rw [hagain, received_snoc_of_ne hother]
        exact ⟨hexists, rfl, hnothing⟩
      | released _ _ _ hkept =>
        rw [hrevoked] at hkept
        cases hkept
  exact hrun.2.2

/-- A revocation as a call of the system: the owner is paid what was not released. -/
theorem revocation_ok (hcall : a.call = .vesting (.revoke b)) (h : VestingSystem.step this s a = .ok (s', logs)) :
    (s.vesting.vestingSchedules b).revoked = false ∧
      s'.vesting.vestingSchedules b = { s.vesting.vestingSchedules b with revoked := true } ∧
      s'.token.balanceOf s.vesting.owner = s.token.balanceOf s.vesting.owner +
        ((s.vesting.vestingSchedules b).totalAmount - (s.vesting.vestingSchedules b).releasedAmount) := by
  obtain ⟨msg, call, hsender, hthis⟩ := a
  obtain rfl : call = .vesting (.revoke b) := hcall
  obtain ⟨⟨token', v', paid, vlogs⟩, hrevoke, hout⟩ := bind_eq_ok.mp h
  obtain ⟨rfl, -⟩ := Prod.mk.inj (pure_eq_ok.mp hout)
  obtain ⟨howner, hkept, -, hbalance, rfl⟩ := TokenVesting.revoke_ok hrevoke
  refine ⟨hkept, TokenVesting.setSchedule_self _, ?_⟩
  -- the contract does not own itself: it sends no calls
  have hne : this ≠ s.vesting.owner := by
    rintro heq
    exact hthis (howner.trans heq.symm)
  show token'.balanceOf s.vesting.owner = _
  rw [hbalance]
  exact Erc20.balanceOf_move_dst _ _ hne

/-- What has vested is kept: of everything that can still happen, the best brings the receipts of the beneficiary to the
vested amount (`eq_vestedAmount`), and the owner gets the rest. -/
structure KeepsVested (b : Address) (schedule : VestingSchedule) (hist : List (VestingEntry this))
    (s s' : VestingSystem) (timestamp : Nat) : Prop where
  reached : ∃ as, received b (hist ++ history (VestingSystem.step this) s' as) = vestedAmount schedule timestamp
  most : ∀ as, received b (hist ++ history (VestingSystem.step this) s' as) ≤ vestedAmount schedule timestamp
  owner : s'.token.balanceOf s.vesting.owner =
    s.token.balanceOf s.vesting.owner + (schedule.totalAmount - vestedAmount schedule timestamp)

/-- **When a revocation keeps what has vested**: exactly if all of it was released before. -/
theorem keepsVested_iff {creation : VestingAction this} {s₀ : VestingSystem} {logs₀ : List VestingEvent}
    {start cliff duration amount : Nat}
    (hcreation : creation.call = .vesting (.createVestingSchedule b start cliff duration amount))
    (hcreated : VestingSystem.step this s₀ creation = .ok (s, logs₀)) (as : List (VestingAction this))
    (hmono : (as ++ [a]).Pairwise fun a a' => a.time ≤ a'.time) (hcall : a.call = .vesting (.revoke b))
    (hrevoke : VestingSystem.step this (run (VestingSystem.step this) s as) a = .ok (s', logs)) :
    KeepsVested b (s.vesting.vestingSchedules b) (history (VestingSystem.step this) s (as ++ [a]))
        (run (VestingSystem.step this) s as) s' a.time ↔
      ((run (VestingSystem.step this) s as).vesting.vestingSchedules b).releasedAmount =
        vestedAmount (s.vesting.vestingSchedules b) a.time := by
  obtain ⟨-, hnew⟩ := created_of_step hcreation hcreated
  generalize hschedule : s.vesting.vestingSchedules b = schedule at *
  obtain ⟨⟨revoked, hterms⟩, hvested⟩ := vesting_before hnew hschedule as hmono
  obtain ⟨-, hafter, howner⟩ := revocation_ok hcall hrevoke
  rw [hterms] at hafter howner ⊢
  have hother : a.releaseBy ≠ some b := by simp [VestingAction.releaseBy, hcall]
  have hexists : 0 < (s'.vesting.vestingSchedules b).totalAmount := by
    rw [hafter]
    exact hnew.amount
  -- whatever comes after the revocation, the receipts stay as they are
  have hfinal : ∀ as', received b (history (VestingSystem.step this) s (as ++ [a]) ++
      history (VestingSystem.step this) s' as') = received b (history (VestingSystem.step this) s as) := by
    intro as'
    rw [received_append, received_revoked hexists (by rw [hafter]), history_snoc_ok hrevoke, received_snoc_of_ne hother,
      Nat.add_zero]
  constructor
  · intro h
    obtain ⟨as', hreached⟩ := h.reached
    exact (hfinal as').symm.trans hreached
  · intro heq
    change received b (history (VestingSystem.step this) s as) = vestedAmount schedule a.time at heq
    constructor
    · exact ⟨[], (hfinal []).trans heq⟩
    · intro as'
      rw [hfinal as', heq]
    · rw [howner, ← heq]

end Runs

/-! ### Revocations at time 150 -/

namespace SmallVesting

def revocation : VestingAction this := call 0 150 (.revoke 2)

def revoked (as : List (VestingAction this)) : VestingSystem :=
  exec (VestingSystem.step this) (run (VestingSystem.step this) created as) revocation

/-- 300 units were released until time 130; the 200 that vested until time 150 go to the owner. -/
theorem vested_not_kept :
    (∃ logs, VestingSystem.step this (run (VestingSystem.step this) created releases) revocation =
        .ok (revoked releases, logs)) ∧
      received 2 (history (VestingSystem.step this) created releases) = 300 ∧
      TokenVesting.calculateVestedAmount (created.vesting.vestingSchedules 2) revocation.time = .ok 500 ∧
      ¬ KeepsVested 2 (created.vesting.vestingSchedules 2)
        (history (VestingSystem.step this) created (releases ++ [revocation]))
        (run (VestingSystem.step this) created releases) (revoked releases) revocation.time := by
  refine ⟨⟨_, rfl⟩, by decide +kernel, by decide +kernel, ?_⟩
  intro h
  exact absurd h.owner (by decide +kernel)

/-- After a release at time 150 there is nothing to lose. -/
theorem vested_kept :
    KeepsVested 2 (created.vesting.vestingSchedules 2)
      (history (VestingSystem.step this) created ((releases ++ [call 1 150 .release]) ++ [revocation]))
      (run (VestingSystem.step this) created (releases ++ [call 1 150 .release]))
      (revoked (releases ++ [call 1 150 .release])) revocation.time := by
  obtain ⟨logs, hcreated⟩ := created_ok
  exact (keepsVested_iff rfl hcreated (releases ++ [call 1 150 .release]) (by decide) rfl rfl).mpr (by decide +kernel)

end SmallVesting

end Kyneto
