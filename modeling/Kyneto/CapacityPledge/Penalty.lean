import Kyneto.CapacityPledge.Collateral

/-!
# The penalty for an early exit

A share of a fifth of the collateral, by the time that is left, and at least a hundredth while there is any. A pledge
that `createPledge` offers lasts for one of four durations and locks at least 0.75 tokens, so there is always something
to pay. When the time is over, an early exit and a completion are the same.
-/

namespace Kyneto

open Evm

/-- What `createPledge` asks for. -/
structure Offered (p : Pledge) : Prop where
  duration : p.duration ∈ [30 * 86400, 90 * 86400, 180 * 86400, 365 * 86400]
  collateral : 75 * 10 ^ 16 ≤ p.collateral

theorem Offered.of_terms {p p' : Pledge} (h : Offered p) (hterms : SameTerms p p') : Offered p' where
  duration := hterms.duration ▸ h.duration
  collateral := hterms.collateral ▸ h.collateral

theorem Offered.duration_pos {p : Pledge} (h : Offered p) : 0 < p.duration := by
  have hall : ∀ d ∈ [30 * 86400, 90 * 86400, 180 * 86400, 365 * 86400], 0 < d := by decide
  exact hall _ h.duration

theorem Offered.duration_le {p : Pledge} (h : Offered p) : p.duration ≤ 365 * 86400 := by
  have hall : ∀ d ∈ [30 * 86400, 90 * 86400, 180 * 86400, 365 * 86400], d ≤ 365 * 86400 := by decide
  exact hall _ h.duration

/-! ## The amount -/

/-- The penalty with `remaining` seconds left. -/
def exitPenalty (p : Pledge) (remaining : Nat) : Nat :=
  if 0 < remaining then max (p.collateral * remaining * 20 / (p.duration * 100)) (p.collateral / 100) else 0

section Amount

variable {p : Pledge} {remaining more : Nat}

theorem exitPenalty_of_pos (h : 0 < remaining) :
    exitPenalty p remaining = max (p.collateral * remaining * 20 / (p.duration * 100)) (p.collateral / 100) := if_pos h

theorem exitPenalty_zero : exitPenalty p 0 = 0 := rfl

/-- No number of an exit overflows: a billion tokens, for a year, times twenty. -/
theorem penaltyOf_eq (h : Offered p) (hcollateral : p.collateral ≤ MAX_SUPPLY) (hle : remaining ≤ p.duration) :
    CapacityPledge.penaltyOf p remaining = .ok (exitPenalty p remaining) := by
  have hyear := h.duration_le
  have hscaled : p.collateral * remaining ≤ MAX_SUPPLY * (365 * 86400) :=
    Nat.mul_le_mul hcollateral (hle.trans hyear)
  have hshare : p.collateral * remaining * 20 < uint256Size :=
    Nat.lt_of_le_of_lt (Nat.mul_le_mul_right _ hscaled) (by decide)
  have htotal : p.duration * 100 < uint256Size :=
    Nat.lt_of_le_of_lt (Nat.mul_le_mul_right _ hyear) (by decide)
  have hpos : p.duration * 100 ≠ 0 := Nat.ne_of_gt (Nat.mul_pos h.duration_pos (by decide))
  simp only [CapacityPledge.penaltyOf, bind_eq_ok, checkedMul_eq_ok, checkedDiv_eq_ok, pure_eq_ok]
  refine ⟨_, ⟨by omega, rfl⟩, _, ⟨hshare, rfl⟩, _, ⟨htotal, rfl⟩, _, ⟨hpos, rfl⟩, ?_⟩
  unfold EARLY_EXIT_PENALTY_PERCENT
  rcases Nat.eq_zero_or_pos remaining with rfl | hremaining
  · simp [exitPenalty_zero]
  · rw [exitPenalty_of_pos hremaining]
    -- the contract takes the hundredth if the share is smaller
    split
    · next hless => exact max_eq_right hless.1.le
    · next hless =>
      apply max_eq_left
      apply Nat.le_of_not_lt
      exact fun hlt => hless ⟨hlt, hremaining⟩

theorem exitPenalty_pos (h : Offered p) (hremaining : 0 < remaining) : 0 < exitPenalty p remaining := by
  have hhundredth : 0 < p.collateral / 100 := Nat.div_pos (le_trans (by decide) h.collateral) (by decide)
  rw [exitPenalty_of_pos hremaining]
  exact lt_of_lt_of_le hhundredth (le_max_right _ _)

theorem le_exitPenalty (hremaining : 0 < remaining) : p.collateral / 100 ≤ exitPenalty p remaining := by
  rw [exitPenalty_of_pos hremaining]
  exact le_max_right _ _

/-- A fifth of the collateral is the most, since no more than the whole time can be left. -/
theorem exitPenalty_le (hle : remaining ≤ p.duration) : exitPenalty p remaining ≤ p.collateral * 20 / 100 := by
  rcases Nat.eq_zero_or_pos remaining with rfl | hremaining
  · exact Nat.zero_le _
  · rw [exitPenalty_of_pos hremaining]
    apply max_le
    · have hpos : 0 < p.duration := lt_of_lt_of_le hremaining hle
      calc p.collateral * remaining * 20 / (p.duration * 100)
          ≤ p.collateral * p.duration * 20 / (p.duration * 100) :=
            Nat.div_le_div_right (Nat.mul_le_mul_right _ (Nat.mul_le_mul_left _ hle))
        _ = p.duration * (p.collateral * 20) / (p.duration * 100) := by
            congr 1
            ring
        _ = p.collateral * 20 / 100 := Nat.mul_div_mul_left _ _ hpos
    · omega

theorem exitPenalty_mono (h : remaining ≤ more) : exitPenalty p remaining ≤ exitPenalty p more := by
  rcases Nat.eq_zero_or_pos remaining with rfl | hremaining
  · exact Nat.zero_le _
  · rw [exitPenalty_of_pos hremaining, exitPenalty_of_pos (lt_of_lt_of_le hremaining h)]
    apply max_le_max_right
    exact Nat.div_le_div_right (Nat.mul_le_mul_right _ (Nat.mul_le_mul_left _ h))

end Amount

/-! ## One pledge -/

/-- The penalty of a pledge falls with time, from a fifth of the collateral to a hundredth, and is
nothing at the end. -/
structure FairExit (p : Pledge) : Prop where
  computed : ∀ timestamp, p.startTime ≤ timestamp →
    ∃ penalty returned, CapacityPledge.penaltyAt p timestamp = .ok (penalty, returned)
  before : ∀ timestamp penalty returned, timestamp < p.startTime + p.duration →
    CapacityPledge.penaltyAt p timestamp = .ok (penalty, returned) →
      0 < penalty ∧ p.collateral / 100 ≤ penalty ∧ penalty ≤ p.collateral * 20 / 100
  antitone : ∀ timestamp later penalty returned after returned', timestamp ≤ later →
    CapacityPledge.penaltyAt p timestamp = .ok (penalty, returned) →
      CapacityPledge.penaltyAt p later = .ok (after, returned') → after ≤ penalty
  ended : ∀ timestamp penalty returned, p.startTime + p.duration ≤ timestamp →
    CapacityPledge.penaltyAt p timestamp = .ok (penalty, returned) → penalty = 0

section Exit

variable {p : Pledge} {timestamp penalty returned : Nat}

/-- The penalty at a time, in numbers: it depends on the time that is left. -/
theorem penaltyAt_eq_ok (h : Offered p) (hcollateral : p.collateral ≤ MAX_SUPPLY) :
    CapacityPledge.penaltyAt p timestamp = .ok (penalty, returned) ↔
      p.startTime ≤ timestamp ∧ penalty = exitPenalty p (CapacityPledge.remainingOf p timestamp) ∧
        returned = p.collateral - penalty := by
  have hremaining : (if timestamp - p.startTime < p.duration then p.duration - (timestamp - p.startTime) else 0) =
      CapacityPledge.remainingOf p timestamp := by
    unfold CapacityPledge.remainingOf
    split <;> omega
  have hle : CapacityPledge.remainingOf p timestamp ≤ p.duration := Nat.sub_le _ _
  have hfifth := exitPenalty_le hle
  have hcomputed := penaltyOf_eq h hcollateral hle
  simp only [CapacityPledge.penaltyAt, bind_eq_ok, checkedSub_eq_ok, pure_eq_ok, Prod.mk.injEq]
  constructor
  · rintro ⟨_, ⟨hstarted, rfl⟩, x, hx, _, ⟨-, rfl⟩, rfl, rfl⟩
    rw [hremaining, hcomputed] at hx
    exact ⟨hstarted, (Except.ok.inj hx).symm, rfl⟩
  · rintro ⟨hstarted, rfl, rfl⟩
    refine ⟨_, ⟨hstarted, rfl⟩, _, ?_, _, ⟨?_, rfl⟩, rfl, rfl⟩
    · rw [hremaining]
      exact hcomputed
    · omega

/-- Whatever `createPledge` has accepted has a fair penalty. -/
theorem Offered.fairExit (h : Offered p) (hcollateral : p.collateral ≤ MAX_SUPPLY) : FairExit p where
  computed := by
    intro timestamp hstarted
    exact ⟨_, _, (penaltyAt_eq_ok h hcollateral).mpr ⟨hstarted, rfl, rfl⟩⟩
  before := by
    intro timestamp penalty returned hbefore hpenalty
    obtain ⟨hstarted, rfl, -⟩ := (penaltyAt_eq_ok h hcollateral).mp hpenalty
    have hpos : 0 < CapacityPledge.remainingOf p timestamp := by
      unfold CapacityPledge.remainingOf
      omega
    exact ⟨exitPenalty_pos h hpos, le_exitPenalty hpos, exitPenalty_le (Nat.sub_le _ _)⟩
  antitone := by
    intro timestamp later penalty returned after returned' hle hpenalty hafter
    obtain ⟨-, rfl, -⟩ := (penaltyAt_eq_ok h hcollateral).mp hpenalty
    obtain ⟨-, rfl, -⟩ := (penaltyAt_eq_ok h hcollateral).mp hafter
    apply exitPenalty_mono
    unfold CapacityPledge.remainingOf
    omega
  ended := by
    intro timestamp penalty returned hend hpenalty
    obtain ⟨-, rfl, -⟩ := (penaltyAt_eq_ok h hcollateral).mp hpenalty
    have hzero : CapacityPledge.remainingOf p timestamp = 0 := by
      unfold CapacityPledge.remainingOf
      omega
    rw [hzero, exitPenalty_zero]

/-- What an exit at a time does: the penalty of that time is burned and the rest goes back, the pledge leaves the books,
and the log says so. -/
structure Exits (this provider : Address) (id : Nat) (p : Pledge) (timestamp : Nat) (c c' : CapacityPledge)
    (token token' : StorageToken) (logs : List PledgeLog) (penalty returned : Nat) : Prop where
  penalty_eq : CapacityPledge.penaltyAt p timestamp = .ok (penalty, returned)
  leaves : Leaves this provider p.collateral penalty returned token token'
  retired : c.retire provider id = .ok c'
  logged : logs = [.PledgeExitedEarly provider id penalty returned]

theorem exits_of_ok {this provider : Address} {id : Nat} {c c' : CapacityPledge} {token token' : StorageToken}
    {paid : List TokenLog} {logs : List PledgeLog} (h : Offered (c.pledges provider id))
    (hcollateral : (c.pledges provider id).collateral ≤ MAX_SUPPLY) (hne : provider ≠ this)
    (hexit : c.exitPledgeEarly this token ⟨provider, timestamp⟩ id = .ok (token', c', paid, logs)) :
    ∃ penalty returned,
      Exits this provider id (c.pledges provider id) timestamp c c' token token' logs penalty returned := by
  obtain ⟨penalty, t₁, burned, returned, -, hstarted, hpenalty, hle, hretire, hburn, hpay, -, hlogs⟩ :=
    CapacityPledge.exitPledgeEarly_ok hexit
  have hcomputed := Except.ok.inj ((penaltyOf_eq h hcollateral (Nat.sub_le _ _)).symm.trans hpenalty)
  exact ⟨penalty, _, (penaltyAt_eq_ok h hcollateral).mpr ⟨hstarted, hcomputed.symm, rfl⟩,
    (Leaves.of_exit hne hle hburn hpay).1, hretire, hlogs⟩

end Exit

/-! ## At the end -/

/-- The token, the pledges and the payments after a call. -/
def exitState (r : StorageToken × CapacityPledge × List TokenLog × List PledgeLog) :
    StorageToken × CapacityPledge × List TokenLog := (r.1, r.2.1, r.2.2.1)

/-- An early exit that comes too late is a completion: it goes through in the same states, and does the same. -/
theorem exitPledgeEarly_eq_completePledge {this : Address} {c : CapacityPledge} {token : StorageToken} {msg : Msg}
    {pledgeId : Nat} (h : Offered (c.pledges msg.sender pledgeId))
    (hcollateral : (c.pledges msg.sender pledgeId).collateral ≤ MAX_SUPPLY)
    (hend : (c.pledges msg.sender pledgeId).startTime + (c.pledges msg.sender pledgeId).duration ≤ msg.timestamp)
    (htime : msg.timestamp < uint256Size) :
    (c.exitPledgeEarly this token msg pledgeId).map exitState =
      (c.completePledge this token msg pledgeId).map exitState := by
  have hdue : checkedAdd (c.pledges msg.sender pledgeId).startTime (c.pledges msg.sender pledgeId).duration =
      .ok ((c.pledges msg.sender pledgeId).startTime + (c.pledges msg.sender pledgeId).duration) :=
    checkedAdd_eq_ok.mpr ⟨lt_of_le_of_lt hend htime, rfl⟩
  have hnothing : CapacityPledge.remainingOf (c.pledges msg.sender pledgeId) msg.timestamp = 0 := by
    unfold CapacityPledge.remainingOf
    omega
  have hpenalty : CapacityPledge.penaltyAt (c.pledges msg.sender pledgeId) msg.timestamp =
      .ok (0, (c.pledges msg.sender pledgeId).collateral) := by
    rw [penaltyAt_eq_ok h hcollateral, hnothing]
    exact ⟨le_trans (Nat.le_add_right _ _) hend, rfl, rfl⟩
  have hpos : 0 < (c.pledges msg.sender pledgeId).collateral := lt_of_lt_of_le (by decide) h.collateral
  have hover : require ((c.pledges msg.sender pledgeId).startTime + (c.pledges msg.sender pledgeId).duration ≤
      msg.timestamp) "Pledge period not complete" = .ok () := require_eq_ok.mpr hend
  unfold CapacityPledge.exitPledgeEarly CapacityPledge.completePledge
  simp only [hdue, hover, ok_bind, hpenalty, if_pos hpos, Nat.lt_irrefl, if_false]
  -- the two differ in their logs only
  cases require ((c.pledges msg.sender pledgeId).active = true) "Pledge not active" with
  | error e => rfl
  | ok _ =>
    cases c.retire msg.sender pledgeId with
    | error e => rfl
    | ok c' =>
      cases token.transfer this msg.sender (c.pledges msg.sender pledgeId).collateral with
      | error e => rfl
      | ok paid => rfl

/-! ## Runs -/

section Runs

variable {this : Address} {s s' s₀ : PledgeSystem} {a : PledgeAction this} {logs : List PledgeEvent}

/-- The checks of `createPledge` are the ones that the penalty needs. -/
theorem offered_createPledge {c c' : CapacityPledge} {token token' : StorageToken} {msg : Msg}
    {capacityGB duration collateralAmount : Nat} {paid : List TokenLog} {l : List PledgeLog}
    (h : c.createPledge this token msg capacityGB duration collateralAmount = .ok (token', c', paid, l)) :
    ∃ p, Offered p ∧
      c'.pledges = Function.update c.pledges msg.sender
        (Function.update (c.pledges msg.sender) (c.pledgeCount msg.sender) p) ∧
      c'.pledgeCount = Function.update c.pledgeCount msg.sender (c.pledgeCount msg.sender + 1) := by
  simp only [CapacityPledge.createPledge, CapacityPledge.calculateMinimumCollateral, bind_eq_ok, require_eq_ok,
    checkedMul_eq_ok, checkedAdd_eq_ok, pure_eq_ok, Prod.exists, Prod.mk.injEq, exists_const] at h
  obtain ⟨hcapacity, multiplier, hmultiplier, _, ⟨_, ⟨-, rfl⟩, -, rfl⟩, hmin, _, _, -, _, ⟨-, rfl⟩, _, -, _, -, -, rfl,
    -⟩ := h
  have hduration : duration ∈ [30 * 86400, 90 * 86400, 180 * 86400, 365 * 86400] := by
    unfold CapacityPledge.multiplierOf at hmultiplier
    simp only [List.mem_cons, List.not_mem_nil, or_false]
    split_ifs at hmultiplier <;> tauto
  -- a gigabyte at least, and 0.75 tokens for each
  have hone : 1 * 75 * 10 ^ 16 ≤ capacityGB * 75 * 10 ^ 16 :=
    Nat.mul_le_mul_right _ (Nat.mul_le_mul_right _ hcapacity)
  exact ⟨_, ⟨hduration, hone.trans hmin⟩, rfl, rfl⟩

/-- All pledges stay such that `createPledge` has accepted them. -/
theorem offered_step (hno : ∀ spender, s.token.allowance this spender = 0)
    (hall : ∀ provider id, id < s.pledges.pledgeCount provider → Offered (s.pledges.pledges provider id))
    (h : s.step this a = .ok (s', logs)) {provider : Address} {id : Nat}
    (hid : id < s'.pledges.pledgeCount provider) : Offered (s'.pledges.pledges provider id) := by
  have heffect := (PledgeSystem.step_effect hno h).1
  by_cases hold : id < s.pledges.pledgeCount provider
  · exact (hall provider id hold).of_terms (terms_kept heffect hold).1
  · -- only a creation makes a new slot
    cases heffect with
    | idle _ _ books _ =>
      rw [books.pledgeCount] at hid
      exact absurd hid hold
    | ended _ _ _ _ _ pledgeCount | utilized _ _ _ _ _ _ pledgeCount =>
      rw [pledgeCount] at hid
      exact absurd hid hold
    | created _ creates =>
      cases hcall : a.call with
      | token c => simp [PledgeAction.creates, hcall] at creates
      | pledge c =>
        cases c with
        | createPledge capacityGB duration collateralAmount =>
          simp only [PledgeSystem.step, hcall, CapacityPledge.step, bind_eq_ok, pure_eq_ok, Prod.exists,
            Prod.mk.injEq] at h
          obtain ⟨token, pledges, paid, l, hcreate, rfl, -⟩ := h
          obtain ⟨p, hp, hpledges, hcount⟩ := offered_createPledge hcreate
          show Offered (pledges.pledges provider id)
          have hnew : provider = a.msg.sender ∧ id = s.pledges.pledgeCount a.msg.sender := by
            change id < pledges.pledgeCount provider at hid
            rw [hcount] at hid
            rcases eq_or_ne provider a.msg.sender with rfl | hne
            · rw [Function.update_self] at hid
              exact ⟨rfl, by omega⟩
            · rw [Function.update_of_ne hne] at hid
              exact absurd hid hold
          rw [hpledges, update_update_apply, if_pos hnew]
          exact hp
        | _ => simp [PledgeAction.creates, hcall] at creates

/-- The contract has no pledges itself. -/
theorem pledgeCount_this (hno : ∀ spender, s.token.allowance this spender = 0)
    (h : s.step this a = .ok (s', logs)) (hnone : s.pledges.pledgeCount this = 0) :
    s'.pledges.pledgeCount this = 0 := by
  cases (PledgeSystem.step_effect hno h).1 with
  | idle _ _ books _ => rw [books.pledgeCount, hnone]
  | created _ _ _ _ _ _ _ pledgeCount => rw [pledgeCount, Function.update_of_ne a.sender_ne_this.symm, hnone]
  | ended _ _ _ _ _ pledgeCount | utilized _ _ _ _ _ _ pledgeCount => rw [pledgeCount, hnone]

/-- Every pledge of a state that can be reached was accepted by `createPledge`, and belongs to somebody else
than the contract. -/
theorem offered_run (h : s₀.Deployed this) (as : List (PledgeAction this)) {provider : Address} {id : Nat}
    (hid : id < (run (PledgeSystem.step this) s₀ as).pledges.pledgeCount provider) :
    Offered ((run (PledgeSystem.step this) s₀ as).pledges.pledges provider id) ∧ provider ≠ this := by
  have hrun : (∀ spender, (run (PledgeSystem.step this) s₀ as).token.allowance this spender = 0) ∧
      (run (PledgeSystem.step this) s₀ as).pledges.pledgeCount this = 0 ∧
      ∀ provider id, id < (run (PledgeSystem.step this) s₀ as).pledges.pledgeCount provider →
        Offered ((run (PledgeSystem.step this) s₀ as).pledges.pledges provider id) := by
    apply run_invariant
      (I := fun s : PledgeSystem => (∀ spender, s.token.allowance this spender = 0) ∧ s.pledges.pledgeCount this = 0 ∧
        ∀ provider id, id < s.pledges.pledgeCount provider → Offered (s.pledges.pledges provider id))
      (C := fun _ _ => True) _ _ as (meets_true s₀ as)
    · obtain ⟨msg, hfresh⟩ := h.fresh
      refine ⟨h.noApproval, by rw [hfresh]; rfl, fun provider id hid => ?_⟩
      rw [hfresh] at hid
      cases hid
    · intro s a s' logs ⟨hno, hnone, hall⟩ _ hstep
      exact ⟨(PledgeSystem.step_effect hno hstep).2, pledgeCount_this hno hstep hnone,
        fun provider id => offered_step hno hall hstep⟩
  obtain ⟨-, hnone, hall⟩ := hrun
  refine ⟨hall provider id hid, ?_⟩
  rintro rfl
  exact Nat.not_lt_zero id (hnone ▸ hid)

/-- **The penalty for an early exit**: for every pledge of every state that the contract can reach, the penalty can be
computed and falls with time. An exit burns and logs the penalty of its time and returns the rest, and when the pledge
is over it does what a completion does. -/
theorem exits_run (h : s₀.Deployed this) (as : List (PledgeAction this)) {provider : Address} {id : Nat} {p : Pledge}
    (hid : id < (run (PledgeSystem.step this) s₀ as).pledges.pledgeCount provider)
    (hp : p = (run (PledgeSystem.step this) s₀ as).pledges.pledges provider id)
    (hcollateral : p.collateral ≤ MAX_SUPPLY) :
    FairExit p ∧
      (∀ timestamp token' pledges' paid logs,
        (run (PledgeSystem.step this) s₀ as).pledges.exitPledgeEarly this
            (run (PledgeSystem.step this) s₀ as).token ⟨provider, timestamp⟩ id = .ok (token', pledges', paid, logs) →
          ∃ penalty returned, Exits this provider id p timestamp (run (PledgeSystem.step this) s₀ as).pledges pledges'
            (run (PledgeSystem.step this) s₀ as).token token' logs penalty returned) ∧
      ∀ timestamp, p.startTime + p.duration ≤ timestamp → timestamp < uint256Size →
        ((run (PledgeSystem.step this) s₀ as).pledges.exitPledgeEarly this
            (run (PledgeSystem.step this) s₀ as).token ⟨provider, timestamp⟩ id).map exitState =
          ((run (PledgeSystem.step this) s₀ as).pledges.completePledge this
            (run (PledgeSystem.step this) s₀ as).token ⟨provider, timestamp⟩ id).map exitState := by
  obtain ⟨hoffered, hne⟩ := offered_run h as hid
  subst hp
  refine ⟨hoffered.fairExit hcollateral, ?_, ?_⟩
  · intro timestamp token' pledges' paid logs hexit
    exact exits_of_ok hoffered hcollateral hne hexit
  · intro timestamp hend htime
    exact exitPledgeEarly_eq_completePledge hoffered hcollateral hend htime

end Runs

/-! ### A pledge, before its end and at it -/

namespace SmallPledges

/-- The pledge of 20 GB has not ended when its 30 days are over. -/
def pledged : List (PledgeAction this) := twoPledges.take 5

/-- What an exit from that pledge does. -/
def exitOfPledged (timestamp : Nat) : Tx (StorageToken × CapacityPledge × List TokenLog × List PledgeLog) :=
  (run (PledgeSystem.step this) deployed pledged).pledges.exitPledgeEarly this
    (run (PledgeSystem.step this) deployed pledged).token ⟨2, timestamp⟩ 1

theorem pledged_exits :
    FairExit ((run (PledgeSystem.step this) deployed pledged).pledges.pledges 2 1) ∧
      (∃ token' pledges' paid logs penalty returned,
        exitOfPledged (10 * 86400) = .ok (token', pledges', paid, logs) ∧
          Exits this 2 1 ((run (PledgeSystem.step this) deployed pledged).pledges.pledges 2 1) (10 * 86400)
            (run (PledgeSystem.step this) deployed pledged).pledges pledges'
            (run (PledgeSystem.step this) deployed pledged).token token' logs penalty returned) ∧
      (exitOfPledged (30 * 86400)).map exitState =
        ((run (PledgeSystem.step this) deployed pledged).pledges.completePledge this
          (run (PledgeSystem.step this) deployed pledged).token ⟨2, 30 * 86400⟩ 1).map exitState := by
  have hid : 1 < (run (PledgeSystem.step this) deployed pledged).pledges.pledgeCount 2 := by decide +kernel
  obtain ⟨hfair, hexits, hsame⟩ := exits_run deployed_fresh pledged hid rfl (by decide +kernel)
  have hearly := eq_resultOf (x := exitOfPledged (10 * 86400)) (by decide +kernel)
  obtain ⟨penalty, returned, hexit⟩ := hexits (10 * 86400) _ _ _ _ hearly
  exact ⟨hfair, ⟨_, _, _, _, penalty, returned, hearly, hexit⟩, hsame (30 * 86400) (by decide +kernel) (by decide)⟩

end SmallPledges

end Kyneto
