import Kyneto.TokenVesting

/-!
# Releases of vested tokens

What a beneficiary has received after a release depends on the time only, and not on the releases before: it is the
vested amount. The amount grows with time, over the jump at the cliff and the change of formula at the end, so that no
release finds more released than vested.

The times come from `createVestingSchedule`, which puts the cliff at the start or later. That is why the division by the
duration is never one by zero: a schedule without a duration is at its end when the cliff is reached.
-/

namespace Kyneto

open Evm

/-! ## The vested amount -/

/-- The vested amount as a number, where `calculateVestedAmount` does not overflow. -/
def vestedAmount (schedule : VestingSchedule) (timestamp : Nat) : Nat :=
  if timestamp < schedule.cliff then 0
  else if schedule.start + schedule.duration ≤ timestamp then schedule.totalAmount
  else schedule.totalAmount * (timestamp - schedule.start) / schedule.duration

/-- The numbers of a schedule stay in range at a time. The first is the argument of `createVestingSchedule`. -/
structure VestingFits (schedule : VestingSchedule) (timestamp : Nat) : Prop where
  amount : schedule.totalAmount < uint256Size
  finish : schedule.start + schedule.duration < uint256Size
  scaled : schedule.totalAmount * (timestamp - schedule.start) < uint256Size

section Amount

variable {schedule : VestingSchedule} {timestamp later vested after : Nat}

theorem vestedAmount_before (h : timestamp < schedule.cliff) : vestedAmount schedule timestamp = 0 := if_pos h

theorem vestedAmount_finished (hcliff : schedule.cliff ≤ timestamp)
    (hfinish : schedule.start + schedule.duration ≤ timestamp) :
    vestedAmount schedule timestamp = schedule.totalAmount := by
  unfold vestedAmount
  rw [if_neg (Nat.not_lt.mpr hcliff), if_pos hfinish]

theorem vestedAmount_between (hcliff : schedule.cliff ≤ timestamp)
    (hfinish : timestamp < schedule.start + schedule.duration) :
    vestedAmount schedule timestamp = schedule.totalAmount * (timestamp - schedule.start) / schedule.duration := by
  unfold vestedAmount
  rw [if_neg (Nat.not_lt.mpr hcliff), if_neg (Nat.not_le.mpr hfinish)]

/-- No more is vested than the total amount. -/
theorem vestedAmount_le (hcliff : schedule.start ≤ schedule.cliff) :
    vestedAmount schedule timestamp ≤ schedule.totalAmount := by
  rcases Nat.lt_or_ge timestamp schedule.cliff with hbefore | hreached
  · rw [vestedAmount_before hbefore]
    exact Nat.zero_le _
  · rcases Nat.lt_or_ge timestamp (schedule.start + schedule.duration) with hearly | hfinished
    · rw [vestedAmount_between hreached hearly]
      have hpart : timestamp - schedule.start ≤ schedule.duration := by omega
      calc schedule.totalAmount * (timestamp - schedule.start) / schedule.duration
          ≤ schedule.totalAmount * schedule.duration / schedule.duration :=
            Nat.div_le_div_right (Nat.mul_le_mul_left _ hpart)
        _ ≤ schedule.totalAmount := Nat.div_le_of_le_mul (Nat.mul_comm _ _).le
    · rw [vestedAmount_finished hreached hfinished]

/-- Nothing that has vested is taken back. -/
theorem vestedAmount_mono (hcliff : schedule.start ≤ schedule.cliff) (h : timestamp ≤ later) :
    vestedAmount schedule timestamp ≤ vestedAmount schedule later := by
  rcases Nat.lt_or_ge timestamp schedule.cliff with hbefore | hreached
  · rw [vestedAmount_before hbefore]
    exact Nat.zero_le _
  · have hreached' : schedule.cliff ≤ later := hreached.trans h
    rcases Nat.lt_or_ge later (schedule.start + schedule.duration) with hearly | hfinished
    · rw [vestedAmount_between hreached (lt_of_le_of_lt h hearly), vestedAmount_between hreached' hearly]
      exact Nat.div_le_div_right (Nat.mul_le_mul_left _ (Nat.sub_le_sub_right h _))
    · rw [vestedAmount_finished hreached' hfinished]
      exact vestedAmount_le hcliff

/-- What the contract computes is the vesting curve. -/
theorem eq_vestedAmount (h : TokenVesting.calculateVestedAmount schedule timestamp = .ok vested) :
    vested = vestedAmount schedule timestamp := by
  unfold TokenVesting.calculateVestedAmount at h
  unfold vestedAmount
  split at h
  · next hbefore =>
    rw [if_pos hbefore]
    exact (Except.ok.inj h).symm
  · next hreached =>
    rw [if_neg hreached]
    obtain ⟨_, hfinish, h⟩ := bind_eq_ok.mp h
    obtain ⟨-, rfl⟩ := checkedAdd_eq_ok.mp hfinish
    split at h
    · next hfinished =>
      rw [if_pos hfinished]
      exact pure_eq_ok.mp h
    · next hearly =>
      rw [if_neg hearly]
      simp only [bind_eq_ok, checkedSub_eq_ok, checkedMul_eq_ok, checkedDiv_eq_ok] at h
      obtain ⟨_, ⟨-, rfl⟩, _, ⟨-, rfl⟩, -, rfl⟩ := h
      rfl

/-- Before the end the duration is not zero, and the start is over. -/
theorem calculateVestedAmount_eq (hcliff : schedule.start ≤ schedule.cliff) (h : VestingFits schedule timestamp) :
    TokenVesting.calculateVestedAmount schedule timestamp = .ok (vestedAmount schedule timestamp) := by
  unfold TokenVesting.calculateVestedAmount vestedAmount
  split
  · rfl
  · next hreached =>
    refine bind_eq_ok.mpr ⟨_, checkedAdd_eq_ok.mpr ⟨h.finish, rfl⟩, ?_⟩
    split
    · rfl
    · next hearly =>
      -- the cliff is reached and the end is not, so there is time between the start and the end
      have hstarted : schedule.start ≤ timestamp := by omega
      have hduration : schedule.duration ≠ 0 := by omega
      simp only [bind_eq_ok, checkedSub_eq_ok, checkedMul_eq_ok, checkedDiv_eq_ok]
      exact ⟨_, ⟨hstarted, rfl⟩, _, ⟨h.scaled, rfl⟩, hduration, rfl⟩

end Amount

/-- What `calculateVestedAmount` says about a schedule, over time. -/
structure VestingCurve (schedule : VestingSchedule) : Prop where
  computed : ∀ timestamp, VestingFits schedule timestamp →
    ∃ vested, TokenVesting.calculateVestedAmount schedule timestamp = .ok vested
  monotone : ∀ timestamp later vested after, timestamp ≤ later →
    TokenVesting.calculateVestedAmount schedule timestamp = .ok vested →
    TokenVesting.calculateVestedAmount schedule later = .ok after → vested ≤ after
  before : ∀ timestamp, timestamp < schedule.cliff → TokenVesting.calculateVestedAmount schedule timestamp = .ok 0
  finished : ∀ timestamp, max schedule.cliff (schedule.start + schedule.duration) ≤ timestamp →
    schedule.start + schedule.duration < uint256Size →
    TokenVesting.calculateVestedAmount schedule timestamp = .ok schedule.totalAmount

/-- The curve rises from nothing to the total amount. -/
theorem vestingCurve {schedule : VestingSchedule} (hcliff : schedule.start ≤ schedule.cliff) :
    VestingCurve schedule where
  computed := by
    intro timestamp hfits
    exact ⟨_, calculateVestedAmount_eq hcliff hfits⟩
  monotone := by
    intro timestamp later vested after hle hvested hafter
    rw [eq_vestedAmount hvested, eq_vestedAmount hafter]
    exact vestedAmount_mono hcliff hle
  before := by
    intro timestamp hbefore
    exact if_pos hbefore
  finished := by
    intro timestamp hfinished hfits
    have hreached : ¬ timestamp < schedule.cliff := Nat.not_lt.mpr (le_of_max_le_left hfinished)
    unfold TokenVesting.calculateVestedAmount
    rw [if_neg hreached]
    apply bind_eq_ok.mpr
    refine ⟨_, checkedAdd_eq_ok.mpr ⟨hfits, rfl⟩, ?_⟩
    rw [if_pos (le_of_max_le_right hfinished)]
    rfl

/-! ## The operations -/

namespace TokenVesting

variable {this : Address} {v v' : TokenVesting} {token token' : StorageToken} {msg : Msg} {paid : List TokenLog}
  {logs : List VestingLog} {beneficiary b : Address}

@[simp] theorem setSchedule_self (schedule : VestingSchedule) :
    (v.setSchedule b schedule).vestingSchedules b = schedule := Function.update_self ..

theorem setSchedule_of_ne {b' : Address} (h : b' ≠ b) (schedule : VestingSchedule) :
    (v.setSchedule b schedule).vestingSchedules b' = v.vestingSchedules b' := Function.update_of_ne h ..

/-- A release pays what has vested since the last one, and then as much is released as has vested. -/
theorem release_ok (h : v.release this token msg = .ok (token', v', paid, logs)) :
    ∃ vested, calculateVestedAmount (v.vestingSchedules msg.sender) msg.timestamp = .ok vested ∧
      (v.vestingSchedules msg.sender).revoked = false ∧
      (v.vestingSchedules msg.sender).releasedAmount < vested ∧
      token.transfer this (v.vestingSchedules msg.sender).beneficiary
        (vested - (v.vestingSchedules msg.sender).releasedAmount) = .ok (token', paid) ∧
      v' = v.setSchedule msg.sender { v.vestingSchedules msg.sender with releasedAmount := vested } := by
  simp only [release, bind_eq_ok, require_eq_ok, checkedSub_eq_ok, checkedAdd_eq_ok, pure_eq_ok, Prod.exists,
    Prod.mk.injEq, exists_const] at h
  obtain ⟨-, hrevoked, vested, hvested, _, ⟨hle, rfl⟩, hpos, _, ⟨-, rfl⟩, _, _, htransfer, rfl, rfl, rfl, -⟩ := h
  refine ⟨vested, hvested, hrevoked, by omega, htransfer, ?_⟩
  rw [Nat.add_sub_cancel' hle]

/-- A release goes through, or there is nothing to release. -/
theorem release_attempt (hthis : this ≠ 0) {schedule : VestingSchedule}
    (hschedule : v.vestingSchedules msg.sender = schedule)
    (hexists : 0 < schedule.totalAmount) (hrevoked : schedule.revoked = false) (hbeneficiary : schedule.beneficiary ≠ 0)
    {vested : Nat} (hvested : calculateVestedAmount schedule msg.timestamp = .ok vested) (hfits : vested < uint256Size)
    (hle : schedule.releasedAmount ≤ vested) (hfunded : vested ≤ token.balanceOf this + schedule.releasedAmount) :
    (∃ r, v.release this token msg = .ok r) ∨
      schedule.releasedAmount = vested ∧
        v.release this token msg = .error (.reason "TokenVesting: no tokens releasable") := by
  have hfound : require (0 < schedule.totalAmount) "TokenVesting: no vesting schedule found" = .ok () :=
    require_eq_ok.mpr hexists
  have hkept : require (schedule.revoked = false) "TokenVesting: vesting schedule revoked" = .ok () :=
    require_eq_ok.mpr hrevoked
  have hreleasable : checkedSub vested schedule.releasedAmount = .ok (vested - schedule.releasedAmount) :=
    checkedSub_eq_ok.mpr ⟨hle, rfl⟩
  unfold release
  -- up to the last check the call goes through, whatever is left to release
  simp only [hschedule, hfound, hkept, hvested, hreleasable, ok_bind]
  rcases Nat.eq_or_lt_of_le hle with heq | hlt
  · right
    refine ⟨heq, ?_⟩
    have hnone : ¬ 0 < vested - schedule.releasedAmount := by omega
    unfold require
    rw [if_neg hnone]
    rfl
  · left
    have hpos : 0 < vested - schedule.releasedAmount := by omega
    have hfits' : schedule.releasedAmount + (vested - schedule.releasedAmount) < uint256Size := by omega
    have hcovered : vested - schedule.releasedAmount ≤ token.balanceOf this := by omega
    have htransfer := StorageToken.transfer_eq_ok.mpr ⟨hthis, hbeneficiary, hcovered, rfl⟩
    simp only [bind_eq_ok, require_eq_ok, checkedAdd_eq_ok, pure_eq_ok]
    exact ⟨_, (), hpos, _, ⟨hfits', rfl⟩, _, htransfer, rfl⟩

/-- What a revocation checks, and what it pays. -/
theorem revoke_ok (h : v.revoke this token msg beneficiary = .ok (token', v', paid, logs)) :
    msg.sender = v.owner ∧ (v.vestingSchedules beneficiary).revoked = false ∧
      (v.vestingSchedules beneficiary).releasedAmount ≤ (v.vestingSchedules beneficiary).totalAmount ∧
      token'.balanceOf = (token.toErc20.move this v.owner ((v.vestingSchedules beneficiary).totalAmount -
        (v.vestingSchedules beneficiary).releasedAmount)).balanceOf ∧
      v' = v.setSchedule beneficiary { v.vestingSchedules beneficiary with revoked := true } := by
  simp only [revoke, bind_eq_ok, require_eq_ok, onlyOwner_eq_ok, checkedSub_eq_ok, pure_eq_ok, Prod.exists,
    Prod.mk.injEq, exists_const] at h
  obtain ⟨howner, -, hrevoked, _, ⟨hle, rfl⟩, _, _, hpaid, rfl, rfl, -⟩ := h
  refine ⟨howner, hrevoked, hle, ?_, rfl⟩
  split at hpaid
  · obtain ⟨-, -, -, hout⟩ := StorageToken.transfer_eq_ok.mp hpaid
    obtain ⟨rfl, -⟩ := Prod.mk.inj hout
    rfl
  · next hnone =>
    obtain ⟨rfl, -⟩ := Prod.mk.inj (Except.ok.inj hpaid)
    have hzero :
        (v.vestingSchedules beneficiary).totalAmount - (v.vestingSchedules beneficiary).releasedAmount = 0 := by
      omega
    rw [hzero]
    exact (Erc20.balanceOf_move_zero _ _ _).symm

theorem createVestingSchedule_ok {start cliff duration amount : Nat}
    (h : v.createVestingSchedule msg beneficiary start cliff duration amount = .ok (v', logs)) :
    beneficiary ≠ 0 ∧ 0 < amount ∧ (v.vestingSchedules beneficiary).totalAmount = 0 ∧
      v'.vestingSchedules = Function.update v.vestingSchedules beneficiary
        { beneficiary, start, cliff := start + cliff, duration, totalAmount := amount } := by
  simp only [createVestingSchedule, bind_eq_ok, require_eq_ok, onlyOwner_eq_ok, checkedAdd_eq_ok, pure_eq_ok,
    Prod.mk.injEq, exists_const] at h
  obtain ⟨-, hbeneficiary, hamount, hnew, _, ⟨-, rfl⟩, rfl, -⟩ := h
  exact ⟨hbeneficiary, hamount, hnew, rfl⟩

end TokenVesting

/-! ## Runs -/

section Runs

variable {this b : Address} {s s' : VestingSystem} {a : VestingAction this} {logs : List VestingEvent}

/-- Whose release a call is. -/
def VestingAction.releaseBy (a : VestingAction this) : Option Address :=
  match a.call with
  | .vesting .release => some a.msg.sender
  | _ => none

/-- What the releases of `b` have paid `b`. -/
def received (b : Address) (hist : List (VestingEntry this)) : Nat :=
  ((hist.filter fun e => e.act.releaseBy = some b).map fun e => e.post.token.balanceOf b - e.pre.token.balanceOf b).sum

theorem received_append (hist later : List (VestingEntry this)) :
    received b (hist ++ later) = received b hist + received b later := by
  simp [received]

theorem received_snoc_of_ne {hist : List (VestingEntry this)} {e : VestingEntry this} (h : e.act.releaseBy ≠ some b) :
    received b (hist ++ [e]) = received b hist := by
  simp [received, h]

theorem received_snoc {hist : List (VestingEntry this)} {e : VestingEntry this} (h : e.act.releaseBy = some b) :
    received b (hist ++ [e]) = received b hist + (e.post.token.balanceOf b - e.pre.token.balanceOf b) := by
  simp [received, h]

/-- What a call can do to a schedule that exists. -/
inductive ScheduleStep (b : Address) (s s' : VestingSystem) (a : VestingAction this) : Prop
  | kept (hother : a.releaseBy ≠ some b) (hsame : s'.vesting.vestingSchedules b = s.vesting.vestingSchedules b)
  | revoked (hother : a.releaseBy ≠ some b)
      (hrevoked : s'.vesting.vestingSchedules b = { s.vesting.vestingSchedules b with revoked := true })
  | released (hrelease : a.releaseBy = some b) (vested : Nat)
      (hvested : TokenVesting.calculateVestedAmount (s.vesting.vestingSchedules b) a.time = .ok vested)
      (hkept : (s.vesting.vestingSchedules b).revoked = false)
      (hlt : (s.vesting.vestingSchedules b).releasedAmount < vested)
      (hschedule : s'.vesting.vestingSchedules b = { s.vesting.vestingSchedules b with releasedAmount := vested })
      (hpaid : (s.vesting.vestingSchedules b).beneficiary = b →
        s'.token.balanceOf b = s.token.balanceOf b + (vested - (s.vesting.vestingSchedules b).releasedAmount))

/-- What a call does to one schedule, one case for each function. -/
theorem step_schedule (hexists : 0 < (s.vesting.vestingSchedules b).totalAmount)
    (h : VestingSystem.step this s a = .ok (s', logs)) : ScheduleStep b s s' a := by
  obtain ⟨msg, call, hsender, hthis⟩ := a
  cases call with
  | token c =>
    obtain ⟨r, -, hout⟩ := bind_eq_ok.mp h
    obtain ⟨rfl, -⟩ := Prod.mk.inj (pure_eq_ok.mp hout)
    exact .kept nofun rfl
  | vesting c =>
    obtain ⟨⟨token', v', paid, vlogs⟩, hstep, hout⟩ := bind_eq_ok.mp h
    obtain ⟨rfl, -⟩ := Prod.mk.inj (pure_eq_ok.mp hout)
    cases c with
    | createVestingSchedule beneficiary start cliff duration amount =>
      obtain ⟨⟨w, wlogs⟩, hcreate, hout⟩ := bind_eq_ok.mp hstep
      simp only [pure_eq_ok, Prod.mk.injEq] at hout
      obtain ⟨-, rfl, -, -⟩ := hout
      obtain ⟨-, -, hnew, hschedules⟩ := TokenVesting.createVestingSchedule_ok hcreate
      -- nobody who has a schedule gets another one
      have hne : b ≠ beneficiary := by
        rintro rfl
        omega
      refine .kept nofun ?_
      show v'.vestingSchedules b = s.vesting.vestingSchedules b
      rw [hschedules, Function.update_of_ne hne]
    | release =>
      obtain ⟨vested, hvested, hrevoked, hlt, htransfer, rfl⟩ := TokenVesting.release_ok hstep
      by_cases hsame : msg.sender = b
      · subst hsame
        refine .released rfl vested hvested hrevoked hlt (TokenVesting.setSchedule_self _) ?_
        intro hbeneficiary
        rw [hbeneficiary] at htransfer
        obtain ⟨-, -, -, hout⟩ := StorageToken.transfer_eq_ok.mp htransfer
        obtain ⟨rfl, -⟩ := Prod.mk.inj hout
        exact Erc20.balanceOf_move_dst _ _ (Ne.symm hthis)
      · apply ScheduleStep.kept
        · intro hrelease
          exact hsame (Option.some.inj hrelease)
        · exact TokenVesting.setSchedule_of_ne (Ne.symm hsame) _
    | revoke beneficiary =>
      obtain ⟨-, -, -, -, rfl⟩ := TokenVesting.revoke_ok hstep
      by_cases hsame : b = beneficiary
      · subst hsame
        exact .revoked nofun (TokenVesting.setSchedule_self _)
      · exact .kept nofun (TokenVesting.setSchedule_of_ne hsame _)
    | transferOwnership newOwner =>
      obtain ⟨_, -, hout⟩ := bind_eq_ok.mp hstep
      simp only [pure_eq_ok, Prod.mk.injEq] at hout
      obtain ⟨-, rfl, -, -⟩ := hout
      exact .kept nofun rfl
    | renounceOwnership =>
      obtain ⟨_, -, hout⟩ := bind_eq_ok.mp hstep
      simp only [pure_eq_ok, Prod.mk.injEq] at hout
      obtain ⟨-, rfl, -, -⟩ := hout
      exact .kept nofun rfl

/-- The schedule of `b` in a state is the one that was created, except for the amount that its releases paid, and
nothing was paid that has not vested. -/
structure Vesting (schedule : VestingSchedule) (b : Address) (s : VestingSystem) (hist : List (VestingEntry this))
    (now : Nat) : Prop where
  terms : ∃ revoked, s.vesting.vestingSchedules b = { schedule with releasedAmount := received b hist, revoked }
  vested : received b hist ≤ vestedAmount schedule now

/-- A schedule as `createVestingSchedule` writes it. -/
structure Created (b : Address) (schedule : VestingSchedule) : Prop where
  beneficiary : schedule.beneficiary = b
  beneficiary_ne : b ≠ 0
  amount : 0 < schedule.totalAmount
  cliff : schedule.start ≤ schedule.cliff
  unreleased : schedule.releasedAmount = 0
  unrevoked : schedule.revoked = false

/-- Every call keeps what has been released equal to what was vested at the last release. -/
theorem Vesting.step {schedule : VestingSchedule} {hist : List (VestingEntry this)} (hcreated : Created b schedule)
    (h : Vesting schedule b s hist a.time) (hstep : VestingSystem.step this s a = .ok (s', logs)) :
    Vesting schedule b s' (hist ++ [⟨s, a, logs, s'⟩]) a.time ∧
      (a.releaseBy = some b → received b (hist ++ [⟨s, a, logs, s'⟩]) = vestedAmount schedule a.time) := by
  obtain ⟨revoked, hterms⟩ := h.terms
  have hexists : 0 < (s.vesting.vestingSchedules b).totalAmount := by
    rw [hterms]
    exact hcreated.amount
  cases step_schedule hexists hstep with
  | kept hother hsame =>
    refine ⟨?_, fun hrelease => absurd hrelease hother⟩
    constructor
    · rw [received_snoc_of_ne hother]
      exact ⟨revoked, hsame.trans hterms⟩
    · rw [received_snoc_of_ne hother]
      exact h.vested
  | revoked hother hrevoked =>
    refine ⟨?_, fun hrelease => absurd hrelease hother⟩
    constructor
    · rw [received_snoc_of_ne hother]
      refine ⟨true, ?_⟩
      rw [hrevoked, hterms]
    · rw [received_snoc_of_ne hother]
      exact h.vested
  | released hrelease vested hvested hkept hlt hnew hpaid =>
    -- the payment tops up what was received before to the vested amount
    have hbalance := hpaid (by rw [hterms]; exact hcreated.beneficiary)
    rw [hterms] at hvested hlt hbalance hnew
    obtain rfl : vested = vestedAmount schedule a.time := eq_vestedAmount hvested
    have hall : received b (hist ++ [⟨s, a, logs, s'⟩]) = vestedAmount schedule a.time := by
      rw [received_snoc hrelease]
      show received b hist + (s'.token.balanceOf b - s.token.balanceOf b) = vestedAmount schedule a.time
      rw [hbalance, Nat.add_sub_cancel_left]
      exact Nat.add_sub_cancel' hlt.le
    refine ⟨?_, fun _ => hall⟩
    constructor
    · rw [hall]
      exact ⟨revoked, hnew⟩
    · rw [hall]

/-- So in every run with monotone times. -/
theorem vesting_run {schedule : VestingSchedule} (hcreated : Created b schedule)
    (hschedule : s.vesting.vestingSchedules b = schedule) (as : List (VestingAction this))
    (hmono : as.Pairwise fun a a' => a.time ≤ a'.time) :
    Vesting schedule b (run (VestingSystem.step this) s as) (history (VestingSystem.step this) s as)
      (lastTime VestingAction.time as) := by
  apply timed_induction (C := fun _ _ => True) _ _ _ as hmono (meets_true _ as)
  · refine ⟨⟨false, ?_⟩, Nat.zero_le _⟩
    show s.vesting.vestingSchedules b = { schedule with releasedAmount := 0, revoked := false }
    rw [hschedule, ← hcreated.unreleased, ← hcreated.unrevoked]
  · intro s hist now later hle h
    exact ⟨h.terms, h.vested.trans (vestedAmount_mono hcreated.cliff hle)⟩
  · intro s hist a s' logs h _ hstep
    exact (h.step hcreated hstep).1

/-- The same before a further call, at the time of the call. -/
theorem vesting_before {schedule : VestingSchedule} (hcreated : Created b schedule)
    (hschedule : s.vesting.vestingSchedules b = schedule) (as : List (VestingAction this))
    (hmono : (as ++ [a]).Pairwise fun a a' => a.time ≤ a'.time) :
    Vesting schedule b (run (VestingSystem.step this) s as) (history (VestingSystem.step this) s as) a.time := by
  have h := vesting_run hcreated hschedule as (List.pairwise_append.mp hmono).1
  exact ⟨h.terms, h.vested.trans (vestedAmount_mono hcreated.cliff (lastTime_le hmono))⟩

/-- A creation that goes through writes the schedule of its arguments. -/
theorem created_of_step {start cliff duration amount : Nat}
    (hcall : a.call = .vesting (.createVestingSchedule b start cliff duration amount))
    (h : VestingSystem.step this s a = .ok (s', logs)) :
    s'.vesting.vestingSchedules b =
        { beneficiary := b, start, cliff := start + cliff, duration, totalAmount := amount } ∧
      Created b (s'.vesting.vestingSchedules b) := by
  simp only [VestingSystem.step, hcall, TokenVesting.step, bind_eq_ok, pure_eq_ok, Prod.exists, Prod.mk.injEq] at h
  obtain ⟨_, v', _, _, ⟨_, _, hcreate, -, rfl, -, -⟩, rfl, -⟩ := h
  obtain ⟨hbeneficiary, hamount, -, hschedules⟩ := TokenVesting.createVestingSchedule_ok hcreate
  have hnew : v'.vestingSchedules b =
      { beneficiary := b, start, cliff := start + cliff, duration, totalAmount := amount } := by
    rw [hschedules, Function.update_self]
  refine ⟨hnew, ?_⟩
  show Created b (v'.vestingSchedules b)
  rw [hnew]
  exact ⟨rfl, hbeneficiary, hamount, Nat.le_add_right _ _, rfl, rfl⟩

/-- An attempt of the beneficiary goes through, or all that has vested is released already. -/
theorem Vesting.attempt {schedule : VestingSchedule} {hist : List (VestingEntry this)} (hthis : this ≠ 0)
    (hcreated : Created b schedule) (h : Vesting schedule b s hist a.time) (hrelease : a.releaseBy = some b)
    (hrevoked : (s.vesting.vestingSchedules b).revoked = false) (hfits : VestingFits schedule a.time)
    (hfunded : schedule.totalAmount ≤ s.token.balanceOf this + received b hist) :
    (∃ r, VestingSystem.step this s a = .ok r) ∨
      received b hist = vestedAmount schedule a.time ∧
        VestingSystem.step this s a = .error (.reason "TokenVesting: no tokens releasable") := by
  have hle : vestedAmount schedule a.time ≤ schedule.totalAmount := vestedAmount_le hcreated.cliff
  have hvested := calculateVestedAmount_eq hcreated.cliff hfits
  obtain ⟨msg, call, hsender, houtside⟩ := a
  obtain ⟨revoked, hterms⟩ := h.terms
  rw [hterms] at hrevoked
  obtain rfl : revoked = false := hrevoked
  cases call with
  | token c => cases hrelease
  | vesting c =>
    cases c with
    | release =>
      obtain rfl : msg.sender = b := Option.some.inj hrelease
      have hbeneficiary : schedule.beneficiary ≠ 0 := hcreated.beneficiary ▸ hcreated.beneficiary_ne
      have hcovered : vestedAmount schedule msg.timestamp ≤
          s.token.balanceOf this + received msg.sender hist := le_trans hle hfunded
      rcases TokenVesting.release_attempt hthis hterms hcreated.amount rfl hbeneficiary hvested
        (lt_of_le_of_lt hle hfits.amount) h.vested hcovered with ⟨r, hr⟩ | ⟨heq, herror⟩
      · left
        exact (bind_succeeds fun _ => ⟨_, rfl⟩).mpr ⟨r, hr⟩
      · right
        refine ⟨heq, ?_⟩
        show (s.vesting.release this s.token msg >>= _) = _
        rw [herror]
        rfl
    | _ => cases hrelease

/-- **A release pays what has vested**: whatever has happened since the schedule was created, an attempt of the
beneficiary at a time leaves the vested amount of that time released, and fails only if that is so already. -/
theorem released_run {start cliff duration amount : Nat} (hthis : this ≠ 0)
    (hcreation : a.call = .vesting (.createVestingSchedule b start cliff duration amount))
    (hcreated : VestingSystem.step this s a = .ok (s', logs)) (as : List (VestingAction this))
    {attempt : VestingAction this} (hrelease : attempt.releaseBy = some b)
    (hmono : (as ++ [attempt]).Pairwise fun a a' => a.time ≤ a'.time)
    (hrevoked : ((run (VestingSystem.step this) s' as).vesting.vestingSchedules b).revoked = false)
    (hfits : VestingFits (s'.vesting.vestingSchedules b) attempt.time)
    (hfunded : amount ≤ (run (VestingSystem.step this) s' as).token.balanceOf this +
      received b (history (VestingSystem.step this) s' as)) :
    VestingCurve (s'.vesting.vestingSchedules b) ∧
      ∃ vested, TokenVesting.calculateVestedAmount (s'.vesting.vestingSchedules b) attempt.time = .ok vested ∧
        (run (VestingSystem.step this) s' as).vesting.getReleasableAmount attempt.time b =
          .ok (vested - received b (history (VestingSystem.step this) s' as)) ∧
        received b (history (VestingSystem.step this) s' as) ≤ vested ∧
        received b (history (VestingSystem.step this) s' (as ++ [attempt])) = vested ∧
        ((run (VestingSystem.step this) s' (as ++ [attempt])).vesting.vestingSchedules b).releasedAmount = vested ∧
        ∀ e, VestingSystem.step this (run (VestingSystem.step this) s' as) attempt = .error e →
          e = .reason "TokenVesting: no tokens releasable" := by
  obtain ⟨hterms, hnew⟩ := created_of_step hcreation hcreated
  have hamount : amount = (s'.vesting.vestingSchedules b).totalAmount := by rw [hterms]
  generalize hschedule : s'.vesting.vestingSchedules b = schedule at *
  have h := vesting_before hnew hschedule as hmono
  have hvested := calculateVestedAmount_eq hnew.cliff hfits
  refine ⟨vestingCurve hnew.cliff, _, hvested, ?_, h.vested, ?_⟩
  · obtain ⟨revoked, hnow⟩ := h.terms
    rw [hnow] at hrevoked
    obtain rfl : revoked = false := hrevoked
    have hexists : ¬ (schedule.totalAmount = 0 ∨ (false : Bool) = true) := by
      intro hgone
      rcases hgone with hzero | hfalse
      · exact absurd hzero (Nat.ne_of_gt hnew.amount)
      · cases hfalse
    unfold TokenVesting.getReleasableAmount
    simp only [hnow]
    rw [if_neg hexists]
    exact bind_eq_ok.mpr ⟨_, hvested, checkedSub_eq_ok.mpr ⟨h.vested, rfl⟩⟩
  · rcases h.attempt hthis hnew hrelease hrevoked hfits (hamount ▸ hfunded) with ⟨⟨s'', l⟩, hok⟩ | ⟨heq, herror⟩
    · obtain ⟨hafter, hall⟩ := h.step hnew hok
      obtain ⟨revoked, hnow⟩ := hafter.terms
      rw [history_snoc_ok hok, run_snoc, exec_of_ok hok, hall hrelease, hnow, hok]
      exact ⟨rfl, hall hrelease, nofun⟩
    · obtain ⟨revoked, hnow⟩ := h.terms
      rw [history_snoc_error herror, run_snoc, exec_of_error herror, hnow, herror]
      refine ⟨heq, heq, ?_⟩
      intro e he
      exact (Except.error.inj he).symm

end Runs

/-! ### Two releases and a third -/

namespace SmallVesting

def this : Address := 101

theorem account_ne_this (i : Fin 99) : BitVec.ofNat 160 (i + 1) ≠ this := by
  revert i
  decide

/-- A call of the contract by the account with address `i + 1`. -/
def call (i : Fin 99) (timestamp : Nat) (c : TokenVesting.Call) : VestingAction this where
  msg := ⟨BitVec.ofNat 160 (i + 1), timestamp⟩
  call := .vesting c
  sender_ne_zero := account_ne_zero i
  sender_ne_this := account_ne_this i

/-- The token and the contract, deployed by account 1, and a thousand units of the token sent to the contract. -/
def funded : VestingSystem where
  token := { StorageToken.deploy ⟨1, 0⟩ with
    balanceOf := Function.update (Function.update (fun _ => 0) 1 (INITIAL_SUPPLY - 1000)) this 1000 }
  vesting := .deploy ⟨1, 0⟩

/-- A thousand units for account 2, from time 100 to time 200, and nothing before time 110. -/
def creation : VestingAction this := call 0 100 (.createVestingSchedule 2 100 10 100 1000)

def created : VestingSystem := exec (VestingSystem.step this) funded creation

def releases : List (VestingAction this) := [call 1 105 .release, call 1 125 .release, call 1 130 .release]

theorem created_ok : ∃ logs, VestingSystem.step this funded creation = .ok (created, logs) := by
  refine ⟨_, rfl⟩

/-- At time 150 half has vested, and half is released then. -/
theorem releases_half :
    received 2 (history (VestingSystem.step this) created (releases ++ [call 1 150 .release])) = 500 := by
  obtain ⟨logs, hcreated⟩ := created_ok
  have hfits : VestingFits (created.vesting.vestingSchedules 2) 150 :=
    ⟨by decide +kernel, by decide +kernel, by decide +kernel⟩
  have hattempt : (call 1 150 .release).releaseBy = some 2 := rfl
  obtain ⟨-, vested, hvested, -, -, hreceived, -⟩ := released_run (by decide) rfl hcreated releases hattempt (by decide)
    (by decide +kernel) hfits (by decide +kernel)
  rw [hreceived]
  have hhalf : TokenVesting.calculateVestedAmount (created.vesting.vestingSchedules 2) 150 = .ok 500 := by
    decide +kernel
  exact Except.ok.inj (hvested.symm.trans hhalf)

end SmallVesting

end Kyneto
