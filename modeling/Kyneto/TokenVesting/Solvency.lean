import Kyneto.TokenVesting.Release

/-!
# The books of the vesting contract

The contract keeps the tokens of all beneficiaries together, and creates a schedule without asking whether it has the
tokens for it. `backed_along_iff` says when it always has what it still owes: as long as no call lays claim to more than
is there beyond that. A claim is a new schedule, or a privileged burn of the contract's tokens.

What it owes is then paid: the amount that can be released is released, and a revocation gives the owner the rest
(`backed_pays`). Nobody's release uses what somebody else is owed.
-/

namespace Kyneto

open Evm

/-- What is still to be paid on a schedule, to the beneficiary or back to the owner. -/
def VestingSchedule.owed (schedule : VestingSchedule) : Nat :=
  if schedule.revoked = true then 0 else schedule.totalAmount - schedule.releasedAmount

@[irreducible] def TokenVesting.outstanding (v : TokenVesting) : Nat := ∑ b, (v.vestingSchedules b).owed

/-- What a call of the token burns of an account's tokens. -/
def StorageToken.Call.burnedFrom (a : Address) : StorageToken.Call → Nat
  | .burnFrom src amount => if src = a then amount else 0
  | _ => 0

section Books

variable {this b : Address} {s s' : VestingSystem} {a : VestingAction this} {logs : List VestingEvent}
variable {v v' : TokenVesting} {schedule : VestingSchedule}

/-- What a call lays claim to. -/
def VestingAction.claims (a : VestingAction this) : Nat :=
  match a.call with
  | .vesting (.createVestingSchedule _ _ _ _ amount) => amount
  | .token c => c.burnedFrom this
  | _ => 0

def VestingBacked (this : Address) (s : VestingSystem) : Prop := s.vesting.outstanding ≤ s.token.balanceOf this

def surplus (this : Address) (s : VestingSystem) : Int := s.token.balanceOf this - s.vesting.outstanding

theorem backed_iff_surplus : VestingBacked this s ↔ 0 ≤ surplus this s := by
  unfold VestingBacked surplus
  omega

/-- A schedule that has been created is that of its beneficiary, and has not released too much. -/
structure ScheduleKept (b : Address) (schedule : VestingSchedule) : Prop where
  beneficiary : 0 < schedule.totalAmount → schedule.beneficiary = b ∧ b ≠ 0
  cliff : schedule.start ≤ schedule.cliff
  released : schedule.releasedAmount ≤ schedule.totalAmount

structure VestingBooks (this : Address) (s : VestingSystem) : Prop where
  noApproval : ∀ spender, s.token.allowance this spender = 0
  schedules : ∀ b, ScheduleKept b (s.vesting.vestingSchedules b)

/-! ## What a call does to the books -/

theorem owed_le_outstanding (v : TokenVesting) (b : Address) : (v.vestingSchedules b).owed ≤ v.outstanding := by
  unfold TokenVesting.outstanding
  exact Finset.single_le_sum (f := fun b => (v.vestingSchedules b).owed) (fun _ _ => Nat.zero_le _) (Finset.mem_univ b)

theorem outstanding_update (h : v'.vestingSchedules = Function.update v.vestingSchedules b schedule) :
    v'.outstanding + (v.vestingSchedules b).owed = v.outstanding + schedule.owed := by
  unfold TokenVesting.outstanding
  rw [h]
  exact sum_univ_update VestingSchedule.owed v.vestingSchedules b schedule

theorem outstanding_congr (h : v'.vestingSchedules = v.vestingSchedules) : v'.outstanding = v.outstanding := by
  unfold TokenVesting.outstanding
  rw [h]

theorem outstanding_setSchedule (v : TokenVesting) (b : Address) (schedule : VestingSchedule) :
    (v.setSchedule b schedule).outstanding + (v.vestingSchedules b).owed = v.outstanding + schedule.owed :=
  outstanding_update rfl

theorem wellKept_update (h : ∀ b, ScheduleKept b (v.vestingSchedules b)) (hb : ScheduleKept b schedule)
    (hv : v'.vestingSchedules = Function.update v.vestingSchedules b schedule) (b' : Address) :
    ScheduleKept b' (v'.vestingSchedules b') := by
  rw [hv]
  by_cases heq : b' = b
  · subst heq
    rwa [Function.update_self]
  · rw [Function.update_of_ne heq]
    exact h b'

/-- A call takes what it claims out of the surplus, and nothing else. -/
structure Posts (this : Address) (s s' : VestingSystem) (claimed : Nat) : Prop where
  atMost : surplus this s - claimed ≤ surplus this s'
  exact : 0 < claimed → surplus this s' = surplus this s - claimed

theorem Posts.of_eq {claimed : Nat} (h : surplus this s' = surplus this s - claimed) : Posts this s s' claimed :=
  ⟨h.ge, fun _ => h⟩

theorem posts_same (htoken : s'.token = s.token)
    (hschedules : s'.vesting.vestingSchedules = s.vesting.vestingSchedules) : Posts this s s' 0 := by
  refine .of_eq ?_
  unfold surplus
  rw [htoken, outstanding_congr hschedules, Nat.cast_zero, Int.sub_zero]

/-- A payment takes as much from the balance as from what is owed. -/
theorem surplus_paid {token : StorageToken} {amount : Nat} (hamount : amount ≤ s.token.balanceOf this)
    (hdst : b ≠ this) (hbalance : token.balanceOf = (s.token.toErc20.move this b amount).balanceOf)
    (hout : v'.outstanding + amount = s.vesting.outstanding) : surplus this ⟨token, v'⟩ = surplus this s := by
  have hpaid : token.balanceOf this = s.token.balanceOf this - amount := by
    rw [hbalance, Erc20.balanceOf_move_src s.token.toErc20 b hamount, if_neg hdst]
  unfold surplus
  simp only [hpaid]
  omega

/-- A new schedule adds its amount to what is owed. -/
theorem create_posts {msg : Msg} {start cliff duration amount : Nat} {vlogs : List VestingLog}
    (hbooks : VestingBooks this s)
    (h : s.vesting.createVestingSchedule msg b start cliff duration amount = .ok (v', vlogs)) :
    VestingBooks this { s with vesting := v' } ∧ Posts this s { s with vesting := v' } amount := by
  obtain ⟨hb, hamount, hnew, hschedules⟩ := TokenVesting.createVestingSchedule_ok h
  have hzero : (s.vesting.vestingSchedules b).owed = 0 := by
    unfold VestingSchedule.owed
    rw [hnew, Nat.zero_sub, ite_self]
  have hout := outstanding_update hschedules
  rw [hzero] at hout
  refine ⟨⟨hbooks.noApproval, wellKept_update hbooks.schedules ?_ hschedules⟩, .of_eq ?_⟩
  · exact ⟨fun _ => ⟨rfl, hb⟩, Nat.le_add_right _ _, Nat.zero_le _⟩
  · have howed : VestingSchedule.owed
        { beneficiary := b, start, cliff := start + cliff, duration, totalAmount := amount } = amount := rfl
    rw [howed] at hout
    unfold surplus
    simp only
    omega

/-- A release pays what it takes off the books. -/
theorem release_posts {msg : Msg} {token : StorageToken} {paid : List TokenLog} {vlogs : List VestingLog}
    (hbooks : VestingBooks this s) (hthis : msg.sender ≠ this)
    (h : s.vesting.release this s.token msg = .ok (token, v', paid, vlogs)) :
    VestingBooks this ⟨token, v'⟩ ∧ Posts this s ⟨token, v'⟩ 0 := by
  obtain ⟨vested, hvested, hrevoked, hlt, htransfer, rfl⟩ := TokenVesting.release_ok h
  have hkept := hbooks.schedules msg.sender
  have hle : vested ≤ (s.vesting.vestingSchedules msg.sender).totalAmount :=
    eq_vestedAmount hvested ▸ vestedAmount_le hkept.cliff
  obtain ⟨hbeneficiary, -⟩ := hkept.beneficiary (by omega)
  rw [hbeneficiary] at htransfer
  obtain ⟨-, -, hcovered, hout⟩ := StorageToken.transfer_eq_ok.mp htransfer
  obtain ⟨rfl, -⟩ := Prod.mk.inj hout
  have hsum := outstanding_setSchedule s.vesting msg.sender
    { s.vesting.vestingSchedules msg.sender with releasedAmount := vested }
  have hbefore : (s.vesting.vestingSchedules msg.sender).owed =
      (s.vesting.vestingSchedules msg.sender).totalAmount - (s.vesting.vestingSchedules msg.sender).releasedAmount :=
    if_neg (by rw [hrevoked]; exact Bool.false_ne_true)
  have hafter : VestingSchedule.owed { s.vesting.vestingSchedules msg.sender with releasedAmount := vested } =
      (s.vesting.vestingSchedules msg.sender).totalAmount - vested :=
    if_neg (by rw [hrevoked]; exact Bool.false_ne_true)
  rw [hbefore, hafter] at hsum
  have hnew : ScheduleKept msg.sender { s.vesting.vestingSchedules msg.sender with releasedAmount := vested } :=
    { hkept with released := hle }
  refine ⟨⟨hbooks.noApproval, wellKept_update hbooks.schedules hnew rfl⟩, .of_eq ?_⟩
  have hout : (s.vesting.setSchedule msg.sender
      { s.vesting.vestingSchedules msg.sender with releasedAmount := vested }).outstanding +
        (vested - (s.vesting.vestingSchedules msg.sender).releasedAmount) = s.vesting.outstanding := by
    omega
  rw [surplus_paid hcovered hthis rfl hout, Nat.cast_zero, Int.sub_zero]

/-- A revocation pays from what is there, and no allowance changes. -/
theorem revoke_covered {msg : Msg} {token token' : StorageToken} {paid : List TokenLog} {vlogs : List VestingLog}
    (h : v.revoke this token msg b = .ok (token', v', paid, vlogs)) :
    (v.vestingSchedules b).totalAmount - (v.vestingSchedules b).releasedAmount ≤ token.balanceOf this ∧
      token'.allowance = token.allowance := by
  simp only [TokenVesting.revoke, bind_eq_ok, require_eq_ok, onlyOwner_eq_ok, checkedSub_eq_ok, pure_eq_ok, Prod.exists,
    Prod.mk.injEq, exists_const] at h
  obtain ⟨-, -, -, _, ⟨-, rfl⟩, _, _, hpaid, rfl, rfl, -⟩ := h
  split at hpaid
  · obtain ⟨-, -, hcovered, hout⟩ := StorageToken.transfer_eq_ok.mp hpaid
    obtain ⟨rfl, -⟩ := Prod.mk.inj hout
    exact ⟨hcovered, rfl⟩
  · next hnone =>
    obtain ⟨rfl, -⟩ := Prod.mk.inj (Except.ok.inj hpaid)
    exact ⟨by omega, rfl⟩

/-- So does a revocation. -/
theorem revoke_posts {msg : Msg} {token : StorageToken} {paid : List TokenLog} {vlogs : List VestingLog}
    (hbooks : VestingBooks this s) (hthis : msg.sender ≠ this)
    (h : s.vesting.revoke this s.token msg b = .ok (token, v', paid, vlogs)) :
    VestingBooks this ⟨token, v'⟩ ∧ Posts this s ⟨token, v'⟩ 0 := by
  obtain ⟨hcovered, hallowance⟩ := revoke_covered h
  obtain ⟨howner, hrevoked, hle, hbalance, rfl⟩ := TokenVesting.revoke_ok h
  have hsum := outstanding_setSchedule s.vesting b { s.vesting.vestingSchedules b with revoked := true }
  have hbefore : (s.vesting.vestingSchedules b).owed =
      (s.vesting.vestingSchedules b).totalAmount - (s.vesting.vestingSchedules b).releasedAmount :=
    if_neg (by rw [hrevoked]; exact Bool.false_ne_true)
  have hafter : VestingSchedule.owed { s.vesting.vestingSchedules b with revoked := true } = 0 := if_pos rfl
  rw [hbefore, hafter, Nat.add_zero] at hsum
  have hnew : ScheduleKept b { s.vesting.vestingSchedules b with revoked := true } :=
    { hbooks.schedules b with }
  have hnoApproval : ∀ spender, token.allowance this spender = 0 := by
    rw [hallowance]
    exact hbooks.noApproval
  refine ⟨⟨hnoApproval, wellKept_update hbooks.schedules hnew rfl⟩, .of_eq ?_⟩
  have howner' : s.vesting.owner ≠ this := howner ▸ hthis
  rw [surplus_paid hcovered howner' hbalance hsum, Nat.cast_zero, Int.sub_zero]

/-- Calls of others leave what the contract holds, but for a privileged burn. -/
theorem token_posts {msg : Msg} {c : StorageToken.Call} {token : StorageToken} {tlogs : List TokenLog}
    (hbooks : VestingBooks this s) (hthis : msg.sender ≠ this) (h : s.token.step msg c = .ok (token, tlogs)) :
    VestingBooks this { s with token } ∧ Posts this s { s with token } (c.burnedFrom this) := by
  by_cases hburn : c.burnsFrom this
  · cases c with
    | burnFrom src amount =>
      obtain rfl : src = this := hburn
      obtain ⟨_, -, hburned⟩ := bind_eq_ok.mp h
      obtain ⟨hbalance, -, -, hallowance⟩ := StorageToken.burnCounted_ok hburned
      refine ⟨⟨fun spender => ?_, hbooks.schedules⟩, .of_eq ?_⟩
      · exact (congrFun (congrFun hallowance src) spender).trans (hbooks.noApproval spender)
      · have hclaimed : (StorageToken.Call.burnFrom src amount).burnedFrom src = amount := if_pos rfl
        rw [hclaimed]
        unfold surplus
        simp only
        omega
    | _ => exact hburn.elim
  · obtain ⟨hle, hnoApproval⟩ := StorageToken.step_frame hthis hburn hbooks.noApproval h
    have hzero : c.burnedFrom this = 0 := by
      cases c with
      | burnFrom src amount => exact if_neg hburn
      | _ => rfl
    refine ⟨⟨hnoApproval, hbooks.schedules⟩, ?_⟩
    rw [hzero]
    refine ⟨?_, fun hpos => absurd hpos (Nat.lt_irrefl 0)⟩
    unfold surplus
    simp only
    omega

/-- How the books and the balance move with a call. -/
theorem step_posts (hbooks : VestingBooks this s) (h : VestingSystem.step this s a = .ok (s', logs)) :
    VestingBooks this s' ∧ Posts this s s' a.claims := by
  obtain ⟨msg, call, hsender, hthis⟩ := a
  cases call with
  | token c =>
    obtain ⟨⟨token, tlogs⟩, htoken, hout⟩ := bind_eq_ok.mp h
    obtain ⟨rfl, -⟩ := Prod.mk.inj (pure_eq_ok.mp hout)
    exact token_posts hbooks hthis htoken
  | vesting c =>
    obtain ⟨⟨token, v', paid, vlogs⟩, hstep, hout⟩ := bind_eq_ok.mp h
    obtain ⟨rfl, -⟩ := Prod.mk.inj (pure_eq_ok.mp hout)
    cases c with
    | createVestingSchedule beneficiary start cliff duration amount =>
      obtain ⟨⟨w, wlogs⟩, hcreate, hout⟩ := bind_eq_ok.mp hstep
      simp only [pure_eq_ok, Prod.mk.injEq] at hout
      obtain ⟨rfl, rfl, -, -⟩ := hout
      exact create_posts hbooks hcreate
    | release => exact release_posts hbooks hthis hstep
    | revoke beneficiary => exact revoke_posts hbooks hthis hstep
    | transferOwnership newOwner | renounceOwnership =>
      obtain ⟨_, -, hout⟩ := bind_eq_ok.mp hstep
      simp only [pure_eq_ok, Prod.mk.injEq] at hout
      obtain ⟨rfl, rfl, -, -⟩ := hout
      exact ⟨⟨hbooks.noApproval, hbooks.schedules⟩, posts_same rfl rfl⟩

/-! ## Runs -/

/-- The call claims no more than is there beyond what is owed. -/
def ClaimsCovered (this : Address) (s : VestingSystem) (a : VestingAction this) : Prop :=
  s.vesting.outstanding + a.claims ≤ s.token.balanceOf this

/-- A call keeps the vesting backed exactly if there are tokens for what it promises. -/
theorem backed_step_iff (hbooks : VestingBooks this s) (hbacked : VestingBacked this s)
    (h : VestingSystem.step this s a = .ok (s', logs)) : VestingBacked this s' ↔ ClaimsCovered this s a := by
  obtain ⟨-, hatMost, hexact⟩ := step_posts hbooks h
  have haffordable : ClaimsCovered this s a ↔ 0 ≤ surplus this s - a.claims := by
    unfold ClaimsCovered surplus
    omega
  rw [backed_iff_surplus] at *
  rw [haffordable]
  rcases Nat.eq_zero_or_pos a.claims with hzero | hpos
  · omega
  · rw [hexact hpos]

theorem books_deploy {token : StorageToken} (msg : Msg) (hnoApproval : ∀ spender, token.allowance this spender = 0) :
    VestingBooks this ⟨token, .deploy msg⟩ where
  noApproval := hnoApproval
  schedules _ := ⟨fun h => absurd h (Nat.lt_irrefl 0), Nat.le_refl _, Nat.le_refl _⟩

theorem outstanding_deploy (msg : Msg) : (TokenVesting.deploy msg).outstanding = 0 := by
  unfold TokenVesting.outstanding
  exact Finset.sum_eq_zero fun _ _ => rfl

theorem backed_deploy {token : StorageToken} (msg : Msg) : VestingBacked this ⟨token, .deploy msg⟩ :=
  (outstanding_deploy msg).le.trans (Nat.zero_le _)

/-- **The contract always has what it owes exactly if no call claims more than is there beyond that.** -/
theorem backed_along_iff {token : StorageToken} (msg : Msg) (hnoApproval : ∀ spender, token.allowance this spender = 0)
    (as : List (VestingAction this)) :
    Along (VestingSystem.step this) (VestingBacked this) ⟨token, .deploy msg⟩ as ↔
      Meets (VestingSystem.step this) (ClaimsCovered this) ⟨token, .deploy msg⟩ as := by
  apply along_iff_meets (I := VestingBooks this)
  · exact backed_deploy msg
  · exact books_deploy msg hnoApproval
  · exact fun _ _ _ _ hbooks h => (step_posts hbooks h).1
  · exact fun _ _ _ _ hbooks hbacked h => backed_step_iff hbooks hbacked h

/-! ## Payments -/

/-- What can be released is what is vested and has not been released. -/
theorem releasable_ok {timestamp n : Nat} (h : v.getReleasableAmount timestamp b = .ok n) (hpos : 0 < n) :
    0 < (v.vestingSchedules b).totalAmount ∧ (v.vestingSchedules b).revoked = false ∧
      ∃ vested, TokenVesting.calculateVestedAmount (v.vestingSchedules b) timestamp = .ok vested ∧
        (v.vestingSchedules b).releasedAmount + n = vested := by
  unfold TokenVesting.getReleasableAmount at h
  simp only at h
  split at h
  · cases h
    exact absurd hpos (Nat.lt_irrefl 0)
  · next hnot =>
    obtain ⟨htotal, hrevoked⟩ := not_or.mp hnot
    obtain ⟨vested, hvested, hsub⟩ := bind_eq_ok.mp h
    obtain ⟨hle, rfl⟩ := checkedSub_eq_ok.mp hsub
    exact ⟨Nat.pos_of_ne_zero htotal, Bool.eq_false_of_not_eq_true hrevoked, vested, hvested, Nat.add_sub_of_le hle⟩

/-- If the vesting is backed, a release pays what can be released. -/
theorem release_pays {msg : Msg} {n : Nat} (hthis : this ≠ 0) (hbooks : VestingBooks this s)
    (hbacked : VestingBacked this s) (hsender : msg.sender ≠ this)
    (hfits : (s.vesting.vestingSchedules msg.sender).totalAmount < uint256Size)
    (hn : s.vesting.getReleasableAmount msg.timestamp msg.sender = .ok n) (hpos : 0 < n) :
    ∃ token v' paid logs, s.vesting.release this s.token msg = .ok (token, v', paid, logs) ∧
      token.balanceOf msg.sender = s.token.balanceOf msg.sender + n := by
  obtain ⟨hexists, hrevoked, vested, hvested, hsum⟩ := releasable_ok hn hpos
  have hkept := hbooks.schedules msg.sender
  obtain ⟨hbeneficiary, hne⟩ := hkept.beneficiary hexists
  have hle : vested ≤ (s.vesting.vestingSchedules msg.sender).totalAmount :=
    eq_vestedAmount hvested ▸ vestedAmount_le hkept.cliff
  have howed : (s.vesting.vestingSchedules msg.sender).owed =
      (s.vesting.vestingSchedules msg.sender).totalAmount - (s.vesting.vestingSchedules msg.sender).releasedAmount :=
    if_neg (by rw [hrevoked]; exact Bool.false_ne_true)
  -- what is owed to all of them includes what is released now
  have hcovered : (s.vesting.vestingSchedules msg.sender).owed ≤ s.token.balanceOf this :=
    (owed_le_outstanding s.vesting msg.sender).trans hbacked
  have hbeneficiary' : (s.vesting.vestingSchedules msg.sender).beneficiary ≠ 0 := by
    rw [hbeneficiary]
    exact hne
  have hreleased := hkept.released
  have hfunded : vested ≤ s.token.balanceOf this + (s.vesting.vestingSchedules msg.sender).releasedAmount := by
    omega
  rcases TokenVesting.release_attempt hthis rfl hexists hrevoked hbeneficiary' hvested (hle.trans_lt hfits) (by omega)
    hfunded with ⟨⟨token, v', paid, logs⟩, hok⟩ | ⟨hnone, -⟩
  · refine ⟨token, v', paid, logs, hok, ?_⟩
    obtain ⟨vested', hvested', -, -, htransfer, -⟩ := TokenVesting.release_ok hok
    obtain rfl : vested = vested' := Except.ok.inj (hvested.symm.trans hvested')
    rw [hbeneficiary] at htransfer
    obtain ⟨-, -, -, hout⟩ := StorageToken.transfer_eq_ok.mp htransfer
    obtain ⟨rfl, -⟩ := Prod.mk.inj hout
    show (s.token.toErc20.move this msg.sender _).balanceOf msg.sender = _
    rw [Erc20.balanceOf_move_dst s.token.toErc20 _ (Ne.symm hsender)]
    omega
  · omega

/-- If the vesting is backed, the owner can revoke. -/
theorem revoke_pays {msg : Msg} (hthis : this ≠ 0) (hbooks : VestingBooks this s) (hbacked : VestingBacked this s)
    (hsender : msg.sender ≠ this) (hne : msg.sender ≠ 0) (howner : msg.sender = s.vesting.owner)
    (hexists : 0 < (s.vesting.vestingSchedules b).totalAmount)
    (hrevoked : (s.vesting.vestingSchedules b).revoked = false) :
    ∃ token v' paid logs, s.vesting.revoke this s.token msg b = .ok (token, v', paid, logs) ∧
      token.balanceOf msg.sender = s.token.balanceOf msg.sender +
        ((s.vesting.vestingSchedules b).totalAmount - (s.vesting.vestingSchedules b).releasedAmount) := by
  have hkept := hbooks.schedules b
  have howed : (s.vesting.vestingSchedules b).owed =
      (s.vesting.vestingSchedules b).totalAmount - (s.vesting.vestingSchedules b).releasedAmount :=
    if_neg (by rw [hrevoked]; exact Bool.false_ne_true)
  have hcovered : (s.vesting.vestingSchedules b).owed ≤ s.token.balanceOf this :=
    (owed_le_outstanding s.vesting b).trans hbacked
  rw [howed] at hcovered
  have hsucceeds : ∃ r, s.vesting.revoke this s.token msg b = .ok r := by
    simp only [TokenVesting.revoke, bind_eq_ok, require_eq_ok, onlyOwner_eq_ok, checkedSub_eq_ok, pure_eq_ok,
      exists_const]
    by_cases hpos : 0 < (s.vesting.vestingSchedules b).totalAmount - (s.vesting.vestingSchedules b).releasedAmount
    · have htransfer := StorageToken.transfer_eq_ok.mpr ⟨hthis, howner ▸ hne, hcovered, rfl⟩
      exact ⟨_, howner, hexists, hrevoked, _, ⟨hkept.released, rfl⟩, _, (if_pos hpos).trans htransfer, rfl⟩
    · exact ⟨_, howner, hexists, hrevoked, _, ⟨hkept.released, rfl⟩, _, if_neg hpos, rfl⟩
  obtain ⟨⟨token, v', paid, logs⟩, hok⟩ := hsucceeds
  refine ⟨token, v', paid, logs, hok, ?_⟩
  obtain ⟨-, -, -, hbalance, -⟩ := TokenVesting.revoke_ok hok
  rw [hbalance, ← howner]
  exact Erc20.balanceOf_move_dst s.token.toErc20 _ (Ne.symm hsender)

theorem backed_run {token : StorageToken} (msg : Msg) (hnoApproval : ∀ spender, token.allowance this spender = 0)
    (as : List (VestingAction this))
    (hmeets : Meets (VestingSystem.step this) (ClaimsCovered this) ⟨token, .deploy msg⟩ as) :
    VestingBooks this (run (VestingSystem.step this) ⟨token, .deploy msg⟩ as) ∧
      VestingBacked this (run (VestingSystem.step this) ⟨token, .deploy msg⟩ as) :=
  run_invariant (I := fun s => VestingBooks this s ∧ VestingBacked this s)
    ⟨books_deploy msg hnoApproval, backed_deploy msg⟩
    (fun _ _ _ _ h hC hstep => ⟨(step_posts h.1 hstep).1, (backed_step_iff h.1 h.2 hstep).mpr hC⟩) as hmeets

/-- **What is owed is paid**, as long as no call has claimed too much: a release pays the releasable amount, and a
revocation the rest of the schedule, whatever others have released before. -/
theorem backed_pays {token : StorageToken} (hthis : this ≠ 0) (msg : Msg)
    (hnoApproval : ∀ spender, token.allowance this spender = 0) (as : List (VestingAction this))
    (hmeets : Meets (VestingSystem.step this) (ClaimsCovered this) ⟨token, .deploy msg⟩ as) (a : VestingAction this)
    (hs : run (VestingSystem.step this) ⟨token, .deploy msg⟩ as = s) :
    (∀ n, a.call = .vesting .release → s.vesting.getReleasableAmount a.time a.msg.sender = .ok n → 0 < n →
      (s.vesting.vestingSchedules a.msg.sender).totalAmount < uint256Size →
        ∃ s' logs, VestingSystem.step this s a = .ok (s', logs) ∧
          s'.token.balanceOf a.msg.sender = s.token.balanceOf a.msg.sender + n) ∧
    (∀ b, a.call = .vesting (.revoke b) → a.msg.sender = s.vesting.owner →
      0 < (s.vesting.vestingSchedules b).totalAmount → (s.vesting.vestingSchedules b).revoked = false →
        ∃ s' logs, VestingSystem.step this s a = .ok (s', logs) ∧
          s'.token.balanceOf a.msg.sender = s.token.balanceOf a.msg.sender +
            ((s.vesting.vestingSchedules b).totalAmount - (s.vesting.vestingSchedules b).releasedAmount)) := by
  subst hs
  obtain ⟨hbooks, hbacked⟩ := backed_run msg hnoApproval as hmeets
  obtain ⟨m, call, hne, hsender⟩ := a
  constructor
  · rintro n hcall hn hpos hfits
    obtain rfl : call = _ := hcall
    obtain ⟨token', v', paid, logs, hok, hpaid⟩ := release_pays hthis hbooks hbacked hsender hfits hn hpos
    exact ⟨_, _, bind_eq_ok.mpr ⟨_, hok, rfl⟩, hpaid⟩
  · rintro b hcall howner hexists hrevoked
    obtain rfl : call = _ := hcall
    obtain ⟨token', v', paid, logs, hok, hpaid⟩ :=
      revoke_pays hthis hbooks hbacked hsender hne howner hexists hrevoked
    exact ⟨_, _, bind_eq_ok.mpr ⟨_, hok, rfl⟩, hpaid⟩

end Books

/-! ### A schedule for all that is there -/

namespace SmallVesting

theorem backed_along_small :
    Along (VestingSystem.step this) (VestingBacked this) funded [creation] ↔
      Meets (VestingSystem.step this) (ClaimsCovered this) funded [creation] :=
  backed_along_iff ⟨1, 0⟩ (fun _ => rfl) [creation]

theorem creation_claims : creation.claims = 1000 := rfl

theorem creation_affordable : Meets (VestingSystem.step this) (ClaimsCovered this) funded [creation] := by
  refine ⟨fun _ => ?_, trivial⟩
  unfold ClaimsCovered
  have hzero : funded.vesting.outstanding = 0 := outstanding_deploy ⟨1, 0⟩
  rw [hzero, creation_claims]
  decide

theorem run_creation : run (VestingSystem.step this) funded [creation] = created := rfl

theorem releasable_half : created.vesting.getReleasableAmount 150 2 = .ok 500 := by rfl

theorem total_fits : (created.vesting.vestingSchedules 2).totalAmount < uint256Size := by decide

/-- At time 150 half of the schedule is paid to account 2. -/
theorem release_paid_small :
    ∃ s' logs, VestingSystem.step this created (call 1 150 .release) = .ok (s', logs) ∧
      s'.token.balanceOf 2 = created.token.balanceOf 2 + 500 :=
  (backed_pays (by decide) ⟨1, 0⟩ (fun _ => rfl) [creation] creation_affordable (call 1 150 .release) run_creation).1
    500 rfl releasable_half (by decide) total_fits

end SmallVesting

end Kyneto
