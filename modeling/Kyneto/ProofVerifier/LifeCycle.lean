import Kyneto.ProofVerifier.Effect

/-!
# The life of a challenge

A challenge is created with its flags down. It is answered in time (`submitted`, `verified`) or found overdue
(`checked`), once and for all. `submitPoSt` does not look at `checked`: that an answer and a miss exclude each
other is a matter of time, since the one needs a call not later than the deadline and the other a call after
it.
-/

namespace Kyneto

open Evm

namespace ProofVerifier

/-! ## What a call does to one challenge -/

/-- The guards of a recorded miss. -/
structure Overdue (v : ProofVerifier) (msg : BlockMsg) (challengeId : Nat) : Prop where
  owner : msg.sender = v.owner
  late : (v.postChallenges challengeId).deadline < msg.timestamp
  pending : (v.postChallenges challengeId).submitted = false
  unchecked : (v.postChallenges challengeId).checked = false

/-- The call checks the challenge for a missed answer. -/
def Call.checks (id : Nat) : Call → Bool
  | .checkMissedPoSt challengeId => challengeId = id
  | _ => false

/-- What a successful call does to a challenge that exists. -/
inductive ChallengeEffect (v : ProofVerifier) (a : Action) (id : Nat) (v' : ProofVerifier) : Prop
  | same (other : a.call.checks id = false) (unchanged : v'.postChallenges id = v.postChallenges id)
  | answered {leafData : List Bytes32} {proofs : List (List Bytes32)} {providerSeed : Bytes32}
      (call : a.call = .submitPoSt id leafData proofs providerSeed)
      (accepts : v.Accepts a.msg id leafData proofs providerSeed)
      (changed : v'.postChallenges id =
        { v.postChallenges id with submitted := true, verified := true })
  | missed (call : a.call = .checkMissedPoSt id) (overdue : v.Overdue a.msg id)
      (changed : v'.postChallenges id = { v.postChallenges id with checked := true })

section Steps

variable {v v' : ProofVerifier} {a : Action} {logs : List ProofLog} {id : Nat}

theorem checkMissedPoSt_overdue {msg : BlockMsg}
    (h : v.checkMissedPoSt msg id = .ok (v', logs)) : v.Overdue msg id := by
  simp only [checkMissedPoSt, bind_eq_ok, onlyOwner_eq_ok, require_eq_ok, exists_const] at h
  obtain ⟨howner, hlate, hpending, hunchecked, -⟩ := h
  exact ⟨howner, hlate, hpending, hunchecked⟩

/-- Only answers and checks move a miss counter, the sender's and the challenged provider's. -/
theorem step_misses (h : v.step a = .ok (v', logs)) :
    v'.consecutiveMisses =
      match a.call with
      | .submitPoSt _ _ _ _ => Function.update v.consecutiveMisses a.msg.sender 0
      | .checkMissedPoSt id =>
        Function.update v.consecutiveMisses (v.postChallenges id).provider
          (v.consecutiveMisses (v.postChallenges id).provider + 1)
      | _ => v.consecutiveMisses := by
  obtain ⟨msg, call, hzero⟩ := a
  unfold step at h
  cases call with
  | setPoRepDifficulty bits =>
    simp only [setPoRepDifficulty, bind_eq_ok, pure_eq_ok, Prod.mk.injEq] at h
    obtain ⟨_, -, _, -, rfl, -⟩ := h
    rfl
  | submitPoRep dealId sealedCID unsealedCID proofData =>
    simp only [submitPoRep, bind_eq_ok, pure_eq_ok, Prod.mk.injEq] at h
    obtain ⟨_, -, _, -, _, -, rfl, -⟩ := h
    rfl
  | createPoStChallenge dealId provider leafIndices seedCommitment =>
    simp only [createPoStChallenge, bind_eq_ok, pure_eq_ok, Prod.mk.injEq] at h
    obtain ⟨_, -, _, -, _, -, _, -, _, -, rfl, -⟩ := h
    rfl
  | submitPoSt challengeId leafData proofs providerSeed =>
    simp only [submitPoSt, bind_eq_ok, pure_eq_ok, Prod.mk.injEq] at h
    obtain ⟨_, -, _, -, _, -, _, -, _, -, _, -, _, -, rfl, -⟩ := h
    rfl
  | checkMissedPoSt challengeId =>
    simp only [checkMissedPoSt, bind_eq_ok, checkedAdd_eq_ok, pure_eq_ok, Prod.mk.injEq] at h
    obtain ⟨_, -, _, -, _, -, _, -, _, ⟨-, rfl⟩, rfl, -⟩ := h
    rfl
  | markNonceUsed provider nonce =>
    simp only [markNonceUsed, bind_eq_ok, pure_eq_ok, Prod.mk.injEq] at h
    obtain ⟨_, -, rfl, -⟩ := h
    rfl
  | transferOwnership _ | renounceOwnership =>
    simp only [bind_eq_ok, pure_eq_ok, Prod.mk.injEq] at h
    obtain ⟨_, -, rfl, -⟩ := h
    rfl

theorem challengeCount_le (h : v.step a = .ok (v', logs)) : v.challengeCount ≤ v'.challengeCount := by
  obtain ⟨msg, call, hzero⟩ := a
  cases step_effect h with
  | admin _ same => exact same.challengeCount.ge
  | proved _ _ _ _ hcount => exact hcount.ge
  | challenged _ _ _ hcount => omega
  | answered _ _ _ hcount => exact hcount.ge
  | missed _ _ hcount => exact hcount.ge

/-- A challenge starts with its flags down, whatever its slot held before. -/
theorem fresh_challenge (h : v.step a = .ok (v', logs)) (hold : v.challengeCount ≤ id)
    (hnew : id < v'.challengeCount) :
    (v'.postChallenges id).submitted = false ∧ (v'.postChallenges id).verified = false ∧
      (v'.postChallenges id).checked = false := by
  obtain ⟨msg, call, hzero⟩ := a
  cases step_effect h with
  | admin _ same =>
    have := same.challengeCount
    omega
  | proved _ _ _ _ hcount => omega
  | challenged hchallenge _ hpost hcount =>
    obtain rfl : id = v.challengeCount := by omega
    rw [hpost, Function.update_self, hchallenge]
    exact ⟨rfl, rfl, rfl⟩
  | answered _ _ _ hcount => omega
  | missed _ _ hcount => omega

/-- **What a call does to a challenge that exists.** -/
theorem challenge_effect (h : v.step a = .ok (v', logs)) (hid : id < v.challengeCount) :
    ChallengeEffect v a id v' := by
  obtain ⟨msg, call, hzero⟩ := a
  cases step_effect h with
  | admin isAdmin same =>
    apply ChallengeEffect.same
    · cases call <;> first | rfl | cases isAdmin
    · rw [same.postChallenges]
  | proved _ _ _ hpost _ => exact .same rfl (by rw [hpost])
  | challenged _ _ hpost _ =>
    -- the new challenge goes into the next slot
    apply ChallengeEffect.same rfl
    rw [hpost, Function.update_of_ne hid.ne]
  | @answered challengeId _ _ _ _ accepts _ hpost _ =>
    rcases eq_or_ne id challengeId with rfl | hne
    · apply ChallengeEffect.answered rfl accepts
      rw [hpost, Function.update_self]
    · apply ChallengeEffect.same rfl
      rw [hpost, Function.update_of_ne hne]
  | @missed challengeId _ _ hpost _ =>
    rcases eq_or_ne id challengeId with rfl | hne
    · apply ChallengeEffect.missed rfl (checkMissedPoSt_overdue h)
      rw [hpost, Function.update_self]
    · apply ChallengeEffect.same
      · simpa [Call.checks] using hne.symm
      · rw [hpost, Function.update_of_ne hne]

end Steps

/-! ## What a run does to it -/

/-- The challenge exists before the call, and the call raises the flag. -/
def raises (flag : PoStChallenge → Bool) (id : Nat) (e : Entry ProofVerifier Action ProofLog) : Bool :=
  decide (id < e.pre.challengeCount) && !flag (e.pre.postChallenges id) &&
    flag (e.post.postChallenges id)

/-- The challenge exists before the call, and the call counts it as a miss of its provider. -/
def countsMiss (id : Nat) (e : Entry ProofVerifier Action ProofLog) : Bool :=
  decide (id < e.pre.challengeCount) && e.act.call.checks id &&
    decide (e.pre.consecutiveMisses (e.pre.postChallenges id).provider <
      e.post.consecutiveMisses (e.pre.postChallenges id).provider)

/-- What one call may do to a challenge that exists before it. -/
structure Passage (e : Entry ProofVerifier Action ProofLog) (id : Nat) : Prop where
  /-- Only the flags of a challenge ever change. -/
  terms : e.post.postChallenges id =
    { e.pre.postChallenges id with
      submitted := (e.post.postChallenges id).submitted
      verified := (e.post.postChallenges id).verified
      checked := (e.post.postChallenges id).checked }
  submitted_stays : (e.pre.postChallenges id).submitted = true →
    (e.post.postChallenges id).submitted = true
  checked_stays : (e.pre.postChallenges id).checked = true →
    (e.post.postChallenges id).checked = true
  submitted_by : raises PoStChallenge.submitted id e = true →
    ∃ leafData proofs providerSeed,
      e.act.call = .submitPoSt id leafData proofs providerSeed ∧
        e.act.msg.sender = (e.pre.postChallenges id).provider ∧
        e.act.msg.timestamp ≤ (e.pre.postChallenges id).deadline ∧
        keccak256 (packWord providerSeed) = (e.pre.postChallenges id).commitment
  checked_by : raises PoStChallenge.checked id e = true →
    e.act.call = .checkMissedPoSt id ∧ (e.pre.postChallenges id).deadline < e.act.msg.timestamp

/-- The life cycle of every challenge of a run. -/
structure LifeCycle (v : ProofVerifier) (hist : List (Entry ProofVerifier Action ProofLog)) : Prop where
  exclusive : ∀ id < v.challengeCount,
    ¬ ((v.postChallenges id).submitted = true ∧ (v.postChallenges id).checked = true)
  verified : ∀ id < v.challengeCount,
    (v.postChallenges id).submitted = true ↔ (v.postChallenges id).verified = true
  passages : ∀ e ∈ hist, ∀ id < e.pre.challengeCount, Passage e id
  submitted_once : ∀ id, hist.countP (raises PoStChallenge.submitted id) ≤ 1
  checked_once : ∀ id, hist.countP (raises PoStChallenge.checked id) ≤ 1
  /-- A counter goes up by one, for a challenge of its provider that is checked. -/
  increments : ∀ e ∈ hist, ∀ provider,
    e.pre.consecutiveMisses provider < e.post.consecutiveMisses provider →
      e.post.consecutiveMisses provider = e.pre.consecutiveMisses provider + 1 ∧
        ∃ id, e.act.call = .checkMissedPoSt id ∧ (e.pre.postChallenges id).provider = provider
  missed_once : ∀ id, hist.countP (countsMiss id) ≤ 1

/-- What the life cycle rests on at time `now`. A flag has been raised once if it is up, and not at all if it
is down. -/
structure Cycle (v : ProofVerifier) (hist : List (Entry ProofVerifier Action ProofLog)) (now : Nat) :
    Prop where
  overdue : ∀ id < v.challengeCount, (v.postChallenges id).checked = true →
    (v.postChallenges id).deadline < now
  exclusive : ∀ id < v.challengeCount, (v.postChallenges id).checked = true →
    (v.postChallenges id).submitted = false
  verified : ∀ id < v.challengeCount,
    (v.postChallenges id).verified = (v.postChallenges id).submitted
  submits : ∀ id, hist.countP (raises PoStChallenge.submitted id) =
    (decide (id < v.challengeCount) && (v.postChallenges id).submitted).toNat
  checks : ∀ id, hist.countP (raises PoStChallenge.checked id) =
    (decide (id < v.challengeCount) && (v.postChallenges id).checked).toNat

section Runs

variable {v v' : ProofVerifier} {a : Action} {logs : List ProofLog} {id now : Nat}
  {hist : List (Entry ProofVerifier Action ProofLog)} {e : Entry ProofVerifier Action ProofLog}

/-- A flag that is down at creation and never taken down is raised as often as it is up. -/
theorem countP_raises_snoc {flag : PoStChallenge → Bool}
    (hstays : id < v.challengeCount → flag (v.postChallenges id) = true →
      flag (v'.postChallenges id) = true)
    (hcount : v.challengeCount ≤ v'.challengeCount)
    (hfresh : v.challengeCount ≤ id → id < v'.challengeCount → flag (v'.postChallenges id) = false)
    (h : hist.countP (raises flag id) =
      (decide (id < v.challengeCount) && flag (v.postChallenges id)).toNat) :
    (hist ++ [Entry.mk v a logs v']).countP (raises flag id) =
      (decide (id < v'.challengeCount) && flag (v'.postChallenges id)).toNat := by
  rw [List.countP_append, List.countP_singleton, h]
  unfold raises
  by_cases hid : id < v.challengeCount
  · have hid' : id < v'.challengeCount := by omega
    cases hpre : flag (v.postChallenges id) with
    | true => simp [hid, hid', hstays hid hpre]
    | false => cases hpost : flag (v'.postChallenges id) <;> simp [hid, hid']
  · -- not there before the call: if it is there now, its flag is down
    by_cases hid' : id < v'.challengeCount
    · simp [hid, hid', hfresh (Nat.le_of_not_lt hid) hid']
    · simp [hid, hid']

/-- A call raises flags of a challenge that exists, and changes nothing else of it. -/
theorem passage_of_step (h : e.pre.step e.act = .ok (e.post, e.logs)) (hid : id < e.pre.challengeCount) :
    Passage e id := by
  cases challenge_effect h hid with
  | same _ hsame =>
    constructor
    · rw [hsame]
    · rw [hsame]
      exact fun h => h
    · rw [hsame]
      exact fun h => h
    · simp [raises, hsame]
    · simp [raises, hsame]
  | @answered leafData proofs providerSeed call accepts hchanged =>
    constructor
    · rw [hchanged]
    · rw [hchanged]
      exact fun _ => rfl
    · rw [hchanged]
      exact fun h => h
    · intro _
      exact ⟨leafData, proofs, providerSeed, call, accepts.provider.symm, accepts.inTime, accepts.seed⟩
    · simp [raises, hchanged]
  | missed call overdue hchanged =>
    constructor
    · rw [hchanged]
    · rw [hchanged]
      exact fun h => h
    · rw [hchanged]
      exact fun _ => rfl
    · simp [raises, hchanged]
    · intro _
      exact ⟨call, overdue.late⟩

/-- A miss is counted by one, and only for a challenge of the provider. -/
theorem increment_of_step (h : v.step a = .ok (v', logs)) {provider : Address}
    (hmore : v.consecutiveMisses provider < v'.consecutiveMisses provider) :
    v'.consecutiveMisses provider = v.consecutiveMisses provider + 1 ∧
      ∃ id, a.call = .checkMissedPoSt id ∧ (v.postChallenges id).provider = provider := by
  have hmisses := step_misses h
  obtain ⟨msg, call, hzero⟩ := a
  cases call with
  | submitPoSt challengeId leafData proofs providerSeed =>
    simp only [hmisses, Function.update_apply] at hmore
    split at hmore <;> omega
  | checkMissedPoSt challengeId =>
    rcases eq_or_ne provider (v.postChallenges challengeId).provider with rfl | hne
    · refine ⟨?_, challengeId, rfl, rfl⟩
      rw [hmisses]
      exact Function.update_self _ _ _
    · simp [hmisses, Function.update_of_ne hne] at hmore
  | setPoRepDifficulty _ | submitPoRep _ _ _ _ | createPoStChallenge _ _ _ _ | markNonceUsed _ _
  | transferOwnership _ | renounceOwnership =>
    rw [hmisses] at hmore
    exact absurd hmore (lt_irrefl _)

/-- A challenge is counted as a miss exactly when it is marked as checked. -/
theorem countsMiss_eq_raises (h : e.pre.step e.act = .ok (e.post, e.logs)) :
    countsMiss id e = raises PoStChallenge.checked id e := by
  unfold countsMiss raises
  by_cases hid : id < e.pre.challengeCount
  · cases challenge_effect h hid with
    | same hother hsame => simp [hother, hsame]
    | answered call _ hchanged => simp [call, Call.checks, hchanged]
    | missed call overdue hchanged =>
      have hmisses := step_misses h
      rw [call] at hmisses
      simp [hmisses, call, Call.checks, hchanged, overdue.unchecked]
  · simp [hid]

theorem cycle_deploy (msg : Msg) : Cycle (deploy msg) [] 0 where
  overdue id hid := absurd hid (Nat.not_lt_zero id)
  exclusive id hid := absurd hid (Nat.not_lt_zero id)
  verified id hid := absurd hid (Nat.not_lt_zero id)
  submits id := by simp [deploy]
  checks id := by simp [deploy]

theorem Cycle.wait {later : Nat} (h : Cycle v hist now) (hle : now ≤ later) : Cycle v hist later :=
  { h with overdue := fun id hid hchecked => (h.overdue id hid hchecked).trans_le hle }

/-- A challenge after a call, its flags in order. -/
theorem Cycle.flags (h : Cycle v hist a.time) (hstep : v.step a = .ok (v', logs))
    (hid' : id < v'.challengeCount) :
    ((v'.postChallenges id).checked = true →
        (v'.postChallenges id).deadline < a.time ∧ (v'.postChallenges id).submitted = false) ∧
      (v'.postChallenges id).verified = (v'.postChallenges id).submitted := by
  by_cases hid : id < v.challengeCount
  · cases challenge_effect hstep hid with
    | same _ hsame =>
      rw [hsame]
      exact ⟨fun hchecked => ⟨h.overdue id hid hchecked, h.exclusive id hid hchecked⟩, h.verified id hid⟩
    | answered _ accepts hchanged =>
      rw [hchanged]
      refine ⟨?_, rfl⟩
      -- had it been checked, the answer would be late
      intro hchecked
      have hlate : (v.postChallenges id).deadline < a.time := h.overdue id hid hchecked
      exact absurd accepts.inTime (Nat.not_le_of_lt hlate)
    | missed _ overdue hchanged =>
      rw [hchanged]
      exact ⟨fun _ => ⟨overdue.late, overdue.pending⟩, h.verified id hid⟩
  · obtain ⟨hsubmitted, hverified, hchecked⟩ := fresh_challenge hstep (Nat.le_of_not_lt hid) hid'
    rw [hsubmitted, hverified, hchecked]
    exact ⟨fun hup => absurd hup Bool.false_ne_true, rfl⟩

/-- Every call keeps the life cycle of all challenges. -/
theorem cycle_step (h : Cycle v hist a.time) (hstep : v.step a = .ok (v', logs)) :
    Cycle v' (hist ++ [⟨v, a, logs, v'⟩]) a.time := by
  have hpassage : ∀ id < v.challengeCount, Passage ⟨v, a, logs, v'⟩ id := fun id hid =>
    passage_of_step hstep hid
  constructor
  · intro id hid hchecked
    exact ((h.flags hstep hid).1 hchecked).1
  · intro id hid hchecked
    exact ((h.flags hstep hid).1 hchecked).2
  · intro id hid
    exact (h.flags hstep hid).2
  · intro id
    apply countP_raises_snoc _ (challengeCount_le hstep) _ (h.submits id)
    · exact fun hid => (hpassage id hid).submitted_stays
    · exact fun hold hnew => (fresh_challenge hstep hold hnew).1
  · intro id
    apply countP_raises_snoc _ (challengeCount_le hstep) _ (h.checks id)
    · exact fun hid => (hpassage id hid).checked_stays
    · exact fun hold hnew => (fresh_challenge hstep hold hnew).2.2

theorem cycle_run (msg : Msg) (as : List Action) (hmono : as.Pairwise fun a b => a.time ≤ b.time) :
    Cycle (run step (deploy msg) as) (history step (deploy msg) as) (lastTime Action.time as) := by
  apply timed_induction (C := fun _ _ => True) (cycle_deploy msg) _ _ as hmono (meets_true _ as)
  · intro v hist now later hle h
    exact h.wait hle
  · intro v hist a v' logs h _ hstep
    exact cycle_step h hstep

/-- **The life cycle of a challenge.** -/
theorem lifeCycle_run (msg : Msg) (as : List Action) (hmono : as.Pairwise fun a b => a.time ≤ b.time) :
    LifeCycle (run step (deploy msg) as) (history step (deploy msg) as) := by
  have hcycle := cycle_run msg as hmono
  have hmissed : ∀ id, (history step (deploy msg) as).countP (countsMiss id) =
      (history step (deploy msg) as).countP (raises PoStChallenge.checked id) := by
    intro id
    apply List.countP_congr
    intro e he
    rw [countsMiss_eq_raises (history_ok he)]
  constructor
  · rintro id hid ⟨hsubmitted, hchecked⟩
    rw [hcycle.exclusive id hid hchecked] at hsubmitted
    cases hsubmitted
  · intro id hid
    rw [hcycle.verified id hid]
  · intro e he id hid
    exact passage_of_step (history_ok he) hid
  · intro id
    rw [hcycle.submits id]
    exact Bool.toNat_le _
  · intro id
    rw [hcycle.checks id]
    exact Bool.toNat_le _
  · intro e he provider hmore
    exact increment_of_step (history_ok he) hmore
  · intro id
    rw [hmissed id, hcycle.checks id]
    exact Bool.toNat_le _

end Runs

end ProofVerifier

/-! ### In the small deployment -/

section Concrete

open ProofVerifier SmallVerifier

/-- A challenge that nobody answers. One that is answered comes after `prepared`. -/
def SmallVerifier.unanswered : List Action :=
  [challenge (List.range CHALLENGE_SECTORS) 1000, account 0 100000 (.checkMissedPoSt 0)]

theorem lifeCycle_both :
    ((run step (deploy ⟨1, 0⟩) unanswered).postChallenges 0).checked = true ∧
      LifeCycle (run step (deploy ⟨1, 0⟩) unanswered) (history step (deploy ⟨1, 0⟩) unanswered) ∧
      ((run step (deploy ⟨1, 0⟩) (prepared ++ [answer 3000])).postChallenges 0).verified = true ∧
      LifeCycle (run step (deploy ⟨1, 0⟩) (prepared ++ [answer 3000]))
        (history step (deploy ⟨1, 0⟩) (prepared ++ [answer 3000])) := by
  refine ⟨?_, lifeCycle_run ⟨1, 0⟩ unanswered (by decide), ?_, lifeCycle_run ⟨1, 0⟩ _ (by decide)⟩
  · decide +kernel
  · rw [run_snoc, (answer_ok ready_prepared).2]

end Concrete

end Kyneto
