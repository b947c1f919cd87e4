import Kyneto.ProofVerifier.LifeCycle

/-!
# The miss counter

`consecutiveMisses` goes up when a miss is recorded and back to zero when an answer is accepted, in the order
of the calls. The misses that are consecutive in the order of the challenges are those after the newest
challenge that was answered. A miss that is recorded only after the provider has answered a newer challenge
is none of these, but it is counted; in runs without such calls the counter is right (`missCounter_run`).
-/

namespace Kyneto

open Evm

namespace ProofVerifier

/-! ## Is the counter the number of consecutive misses? -/

/-- The challenge is newer than all that the provider has answered. -/
def NewerThanVerified (v : ProofVerifier) (provider : Address) (id : Nat) : Prop :=
  ∀ other < v.challengeCount, (v.postChallenges other).provider = provider →
    (v.postChallenges other).verified = true → other < id

instance (v : ProofVerifier) (provider : Address) (id : Nat) :
    Decidable (v.NewerThanVerified provider id) :=
  Nat.decidableBallLT _ _

/-- The provider's missed challenges after the newest one it has answered. -/
def missedSince (v : ProofVerifier) (provider : Address) (now : Nat) : Finset Nat :=
  (Finset.range v.challengeCount).filter fun id =>
    (v.postChallenges id).provider = provider ∧
      ((v.postChallenges id).submitted = false ∧ (v.postChallenges id).deadline < now) ∧
      v.NewerThanVerified provider id

/-- Every missed challenge of the provider has been checked. -/
def AllChecked (v : ProofVerifier) (provider : Address) (now : Nat) : Prop :=
  ∀ id < v.challengeCount, (v.postChallenges id).provider = provider →
    (v.postChallenges id).submitted = false → (v.postChallenges id).deadline < now →
      (v.postChallenges id).checked = true

instance (v : ProofVerifier) (provider : Address) (now : Nat) : Decidable (v.AllChecked provider now) :=
  Nat.decidableBallLT _ _

/-- A challenge of the provider is not checked after the provider has answered a newer one. (A slot that
holds no challenge yet has the zero address for its provider.) -/
def ChecksInOrder (provider : Address) (v : ProofVerifier) (a : Action) : Prop :=
  match a.call with
  | .checkMissedPoSt id => (v.postChallenges id).provider = provider →
    id < v.challengeCount ∧ v.NewerThanVerified provider id
  | _ => True

/-- The same as `missedSince`, of the misses that have been recorded. -/
def recordedSince (v : ProofVerifier) (provider : Address) : Finset Nat :=
  (Finset.range v.challengeCount).filter fun id =>
    (v.postChallenges id).provider = provider ∧ (v.postChallenges id).checked = true ∧
      v.NewerThanVerified provider id

/-- At time `now`, deadlines are in the order of the challenges, and the counter is right. -/
structure Tally (v : ProofVerifier) (provider : Address) (now : Nat) : Prop where
  unused : ∀ id, v.challengeCount ≤ id → (v.postChallenges id).provider = 0
  deadlines : ∀ id other, id ≤ other → other < v.challengeCount →
    (v.postChallenges id).deadline ≤ (v.postChallenges other).deadline
  bounded : ∀ id < v.challengeCount,
    (v.postChallenges id).deadline ≤ now + POST_INTERVAL + GRACE_PERIOD
  counter : v.consecutiveMisses provider = (v.recordedSince provider).card

/-- The state an accepted answer leaves. -/
def withAnswer (v : ProofVerifier) (msg : BlockMsg) (id : Nat) : ProofVerifier :=
  { v.setChallenge id { v.postChallenges id with submitted := true, verified := true } with
    lastPostSubmission := Function.update v.lastPostSubmission msg.sender
      (Function.update (v.lastPostSubmission msg.sender) (v.postChallenges id).dealId msg.timestamp)
    consecutiveMisses := Function.update v.consecutiveMisses msg.sender 0 }

section Misses

variable {v v' : ProofVerifier} {a : Action} {logs : List ProofLog} {provider : Address} {id now : Nat}
  {hist : List (Entry ProofVerifier Action ProofLog)}

theorem mem_recordedSince :
    id ∈ v.recordedSince provider ↔ id < v.challengeCount ∧ (v.postChallenges id).provider = provider ∧
      (v.postChallenges id).checked = true ∧ v.NewerThanVerified provider id := by
  simp [recordedSince]

/-- Only the flags of the provider's own challenges matter. -/
theorem recordedSince_congr (hcount : v'.challengeCount = v.challengeCount)
    (hprovider : ∀ id < v.challengeCount,
      (v'.postChallenges id).provider = (v.postChallenges id).provider)
    (hflags : ∀ id < v.challengeCount, (v.postChallenges id).provider = provider →
      (v'.postChallenges id).checked = (v.postChallenges id).checked ∧
        (v'.postChallenges id).verified = (v.postChallenges id).verified) :
    v'.recordedSince provider = v.recordedSince provider := by
  have hnewer : ∀ id, v'.NewerThanVerified provider id ↔ v.NewerThanVerified provider id := by
    intro id
    unfold NewerThanVerified
    rw [hcount]
    apply forall₂_congr
    intro other hother
    rw [hprovider other hother]
    apply imp_congr_right
    intro hown
    rw [(hflags other hother hown).2]
  ext id
  rw [mem_recordedSince, mem_recordedSince, hcount, hnewer]
  apply and_congr_right
  intro hid
  rw [hprovider id hid]
  apply and_congr_right
  intro hown
  rw [(hflags id hid hown).1]

/-- A new challenge has not been missed or answered. -/
theorem recordedSince_challenged {challenge : PoStChallenge} (hverified : challenge.verified = false)
    (hchecked : challenge.checked = false)
    (hpost : v'.postChallenges = Function.update v.postChallenges v.challengeCount challenge)
    (hcount : v'.challengeCount = v.challengeCount + 1) :
    v'.recordedSince provider = v.recordedSince provider := by
  have hnew : v'.postChallenges v.challengeCount = challenge := by rw [hpost, Function.update_self]
  have hold : ∀ id < v.challengeCount, v'.postChallenges id = v.postChallenges id := by
    intro id hid
    rw [hpost, Function.update_of_ne hid.ne]
  have hnewer : ∀ id, v'.NewerThanVerified provider id ↔ v.NewerThanVerified provider id := by
    intro id
    unfold NewerThanVerified
    constructor
    · intro h other hother
      have hother' : other < v'.challengeCount := by omega
      have := h other hother'
      rwa [hold other hother] at this
    · intro h other hother hown hanswered
      rcases Nat.lt_succ_iff_lt_or_eq.mp (hcount ▸ hother) with hlt | rfl
      · rw [hold other hlt] at hown hanswered
        exact h other hlt hown hanswered
      · rw [hnew, hverified] at hanswered
        cases hanswered
  ext id
  rw [mem_recordedSince, mem_recordedSince, hnewer]
  constructor
  · rintro ⟨hid, hown, hmissed, hsince⟩
    rcases Nat.lt_succ_iff_lt_or_eq.mp (hcount ▸ hid) with hlt | rfl
    · rw [hold id hlt] at hown hmissed
      exact ⟨hlt, hown, hmissed, hsince⟩
    · rw [hnew, hchecked] at hmissed
      cases hmissed
  · rintro ⟨hid, hown, hmissed, hsince⟩
    rw [hold id hid]
    exact ⟨by omega, hown, hmissed, hsince⟩

/-- Once a challenge is answered, a recorded miss that still counts is newer. -/
theorem lt_of_mem_recordedSince {other : Nat} (hother : other < v.challengeCount)
    (hown : (v.postChallenges other).provider = provider)
    (hverified : (v.postChallenges other).verified = true) (hmem : id ∈ v.recordedSince provider) :
    other < id :=
  (mem_recordedSince.mp hmem).2.2.2 other hother hown hverified

/-- A miss recorded in order is one more. -/
theorem recordedSince_missed (hid : id < v.challengeCount)
    (hown : (v.postChallenges id).provider = provider) (hsince : v.NewerThanVerified provider id)
    (hpost : v'.postChallenges =
      Function.update v.postChallenges id { v.postChallenges id with checked := true })
    (hcount : v'.challengeCount = v.challengeCount) :
    v'.recordedSince provider = insert id (v.recordedSince provider) := by
  have hself : v'.postChallenges id = { v.postChallenges id with checked := true } := by
    rw [hpost, Function.update_self]
  have hother : ∀ other, other ≠ id → v'.postChallenges other = v.postChallenges other := by
    intro other hne
    rw [hpost, Function.update_of_ne hne]
  have hnewer : ∀ other, v'.NewerThanVerified provider other ↔ v.NewerThanVerified provider other := by
    intro other
    unfold NewerThanVerified
    rw [hcount]
    apply forall₂_congr
    intro third _
    rcases eq_or_ne third id with rfl | hne
    · rw [hself]
    · rw [hother third hne]
  ext other
  rw [Finset.mem_insert, mem_recordedSince, mem_recordedSince, hnewer, hcount]
  rcases eq_or_ne other id with rfl | hne
  · rw [hself]
    simp [hid, hown, hsince]
  · rw [hother other hne]
    simp [hne]

theorem tally_deploy (msg : Msg) : Tally (deploy msg) provider 0 where
  unused _ _ := rfl
  deadlines _ other _ hother := absurd hother (Nat.not_lt_zero other)
  bounded id hid := absurd hid (Nat.not_lt_zero id)
  counter := rfl

theorem Tally.wait {later : Nat} (h : Tally v provider now) (hle : now ≤ later) :
    Tally v provider later :=
  { h with
    bounded := by
      intro id hid
      have := h.bounded id hid
      omega }

/-- Calls that create no challenge leave the providers and the deadlines as they are. -/
theorem Tally.of_terms (h : Tally v provider now) (hcount : v'.challengeCount = v.challengeCount)
    (hprovider : ∀ id, (v'.postChallenges id).provider = (v.postChallenges id).provider)
    (hdeadline : ∀ id, (v'.postChallenges id).deadline = (v.postChallenges id).deadline)
    (hcounter : v'.consecutiveMisses provider = (v'.recordedSince provider).card) :
    Tally v' provider now := by
  constructor
  · intro id hid
    rw [hprovider]
    exact h.unused id (hcount ▸ hid)
  · intro id other hle hother
    rw [hdeadline, hdeadline]
    exact h.deadlines id other hle (hcount ▸ hother)
  · intro id hid
    rw [hdeadline]
    exact h.bounded id (hcount ▸ hid)
  · exact hcounter

/-- A new challenge has the latest deadline. -/
theorem Tally.of_challenged {challenge : PoStChallenge} (h : Tally v provider now)
    (hdeadline : challenge.deadline = now + POST_INTERVAL + GRACE_PERIOD)
    (hpost : v'.postChallenges = Function.update v.postChallenges v.challengeCount challenge)
    (hcount : v'.challengeCount = v.challengeCount + 1)
    (hcounter : v'.consecutiveMisses provider = (v'.recordedSince provider).card) :
    Tally v' provider now := by
  have hnew : v'.postChallenges v.challengeCount = challenge := by rw [hpost, Function.update_self]
  have hold : ∀ id < v.challengeCount, v'.postChallenges id = v.postChallenges id := by
    intro id hid
    rw [hpost, Function.update_of_ne hid.ne]
  have hbounded : ∀ id < v'.challengeCount,
      (v'.postChallenges id).deadline ≤ now + POST_INTERVAL + GRACE_PERIOD := by
    intro id hid
    rcases Nat.lt_succ_iff_lt_or_eq.mp (hcount ▸ hid) with hlt | rfl
    · rw [hold id hlt]
      exact h.bounded id hlt
    · rw [hnew, hdeadline]
  refine ⟨?_, ?_, hbounded, hcounter⟩
  · intro id hid
    have hne : id ≠ v.challengeCount := by omega
    rw [hpost, Function.update_of_ne hne]
    exact h.unused id (by omega)
  intro id other hle hother
  rcases Nat.lt_succ_iff_lt_or_eq.mp (hcount ▸ hother) with hlt | rfl
  · rw [hold id (by omega), hold other hlt]
    exact h.deadlines id other hle hlt
  · rw [hnew, hdeadline]
    exact hbounded id (by omega)

/-- An answer leaves no recorded miss after it: a newer challenge has a later deadline, so it cannot have been
missed yet. -/
theorem recordedSince_answered (hcycle : Cycle v hist a.time) (htally : Tally v provider a.time)
    (hid : id < v.challengeCount) (hown : (v.postChallenges id).provider = provider)
    (htime : a.msg.timestamp ≤ (v.postChallenges id).deadline)
    (hpost : v'.postChallenges = Function.update v.postChallenges id
      { v.postChallenges id with submitted := true, verified := true })
    (hcount : v'.challengeCount = v.challengeCount) : v'.recordedSince provider = ∅ := by
  rw [Finset.eq_empty_iff_forall_notMem]
  intro other hmem
  have hself : v'.postChallenges id =
      { v.postChallenges id with submitted := true, verified := true } := by
    rw [hpost, Function.update_self]
  have hlt : id < other := by
    apply lt_of_mem_recordedSince _ _ _ hmem
    · rwa [hcount]
    · rwa [hself]
    · rw [hself]
  obtain ⟨hother, -, hchecked, -⟩ := mem_recordedSince.mp hmem
  rw [hcount] at hother
  rw [hpost, Function.update_of_ne hlt.ne'] at hchecked
  have hlater := htally.deadlines id other hlt.le hother
  have hpast : (v.postChallenges other).deadline < a.msg.timestamp :=
    hcycle.overdue other hother hchecked
  omega

/-- Calls that are not about the provider's challenges do not matter to its counter. -/
theorem Tally.of_same (h : Tally v provider now) (hcount : v'.challengeCount = v.challengeCount)
    (hprovider : ∀ id, (v'.postChallenges id).provider = (v.postChallenges id).provider)
    (hdeadline : ∀ id, (v'.postChallenges id).deadline = (v.postChallenges id).deadline)
    (hsame : ∀ id, (v.postChallenges id).provider = provider →
      v'.postChallenges id = v.postChallenges id)
    (hmisses : v'.consecutiveMisses provider = v.consecutiveMisses provider) :
    Tally v' provider now := by
  apply h.of_terms hcount hprovider hdeadline
  rw [hmisses, h.counter]
  congr 1
  apply (recordedSince_congr hcount _ _).symm
  · intro id _
    exact hprovider id
  · intro id _ hown
    rw [hsame id hown]
    exact ⟨rfl, rfl⟩

/-- The same for calls about one challenge of somebody else, which change its flags only. -/
theorem Tally.of_other {challenge : PoStChallenge} (h : Tally v provider now)
    (hother : provider ≠ (v.postChallenges id).provider)
    (hpost : v'.postChallenges = Function.update v.postChallenges id challenge)
    (hcount : v'.challengeCount = v.challengeCount)
    (hprovider : challenge.provider = (v.postChallenges id).provider)
    (hdeadline : challenge.deadline = (v.postChallenges id).deadline)
    (hmisses : v'.consecutiveMisses provider = v.consecutiveMisses provider) :
    Tally v' provider now := by
  apply h.of_same hcount _ _ _ hmisses
  · intro other
    rcases eq_or_ne other id with rfl | hne
    · rw [hpost, Function.update_self, hprovider]
    · rw [hpost, Function.update_of_ne hne]
  · intro other
    rcases eq_or_ne other id with rfl | hne
    · rw [hpost, Function.update_self, hdeadline]
    · rw [hpost, Function.update_of_ne hne]
  · intro other hown
    have hne : other ≠ id := by
      rintro rfl
      exact hother hown.symm
    rw [hpost, Function.update_of_ne hne]

/-- The same for calls about no challenge. -/
theorem Tally.of_postChallenges (h : Tally v provider now)
    (hpost : v'.postChallenges = v.postChallenges) (hcount : v'.challengeCount = v.challengeCount)
    (hmisses : v'.consecutiveMisses = v.consecutiveMisses) : Tally v' provider now := by
  apply h.of_same hcount
  · intro id
    rw [hpost]
  · intro id
    rw [hpost]
  · intro id _
    rw [hpost]
  · rw [hmisses]

/-- A call about one challenge of the provider, with what it makes of the counter. -/
theorem Tally.of_own {challenge : PoStChallenge} (h : Tally v provider now)
    (hpost : v'.postChallenges = Function.update v.postChallenges id challenge)
    (hcount : v'.challengeCount = v.challengeCount)
    (hprovider : challenge.provider = (v.postChallenges id).provider)
    (hdeadline : challenge.deadline = (v.postChallenges id).deadline)
    (hcounter : v'.consecutiveMisses provider = (v'.recordedSince provider).card) :
    Tally v' provider now := by
  apply h.of_terms hcount _ _ hcounter
  · intro other
    rcases eq_or_ne other id with rfl | hne
    · rw [hpost, Function.update_self, hprovider]
    · rw [hpost, Function.update_of_ne hne]
  · intro other
    rcases eq_or_ne other id with rfl | hne
    · rw [hpost, Function.update_self, hdeadline]
    · rw [hpost, Function.update_of_ne hne]

/-- A call that finds the checks in order keeps the counter equal to the number of misses. -/
theorem tally_step (hcycle : Cycle v hist a.time) (htally : Tally v provider a.time)
    (horder : ChecksInOrder provider v a) (h : v.step a = .ok (v', logs)) :
    Tally v' provider a.time := by
  obtain ⟨msg, call, hzero⟩ := a
  have hmisses := step_misses h
  cases step_effect h with
  | admin isAdmin same =>
    apply htally.of_postChallenges same.postChallenges same.challengeCount
    cases call <;> first | exact hmisses | cases isAdmin
  | proved _ _ _ hpost hcount => exact htally.of_postChallenges hpost hcount hmisses
  | challenged hchallenge _ hpost hcount =>
    apply htally.of_challenged _ hpost hcount
    · rw [hmisses, recordedSince_challenged _ _ hpost hcount]
      · exact htally.counter
      · rw [hchallenge]
      · rw [hchallenge]
    · rw [hchallenge]
      rfl
  | @answered id _ _ _ _ accepts _ hpost hcount =>
    have hsender := accepts.provider
    by_cases hown : provider = (v.postChallenges id).provider
    · have hid : id < v.challengeCount := by
        by_contra hge
        rw [htally.unused id (by omega)] at hsender
        exact hzero hsender.symm
      apply htally.of_own hpost hcount rfl rfl
      rw [recordedSince_answered hcycle htally hid hown.symm accepts.inTime hpost hcount, hmisses,
        hown, hsender]
      exact Function.update_self _ _ _
    · apply htally.of_other hown hpost hcount rfl rfl
      rw [hsender] at hown
      rw [hmisses]
      exact Function.update_of_ne hown _ _
  | @missed id _ _ hpost hcount =>
    have hoverdue := checkMissedPoSt_overdue h
    by_cases hown : provider = (v.postChallenges id).provider
    · obtain ⟨hid, hsince⟩ := horder hown.symm
      have hnew : id ∉ v.recordedSince provider := by
        intro hmem
        have hchecked := (mem_recordedSince.mp hmem).2.2.1
        rw [hoverdue.unchecked] at hchecked
        cases hchecked
      apply htally.of_own hpost hcount rfl rfl
      rw [recordedSince_missed hid hown.symm hsince hpost hcount, Finset.card_insert_of_notMem hnew,
        ← htally.counter, hmisses, hown]
      exact Function.update_self _ _ _
    · apply htally.of_other hown hpost hcount rfl rfl
      rw [hmisses]
      exact Function.update_of_ne hown _ _

/-- **If a challenge is never checked after its provider has answered a newer one, the counter is right: once
every missed challenge has been checked, it is the number of those since the last answered one.** -/
theorem missCounter_run (msg : Msg) (as : List Action)
    (hmono : as.Pairwise fun a b => a.time ≤ b.time) (provider : Address)
    (horder : Meets step (ChecksInOrder provider) (deploy msg) as) (now : Nat)
    (hnow : lastTime Action.time as ≤ now)
    (hchecked : AllChecked (run step (deploy msg) as) provider now) :
    (run step (deploy msg) as).consecutiveMisses provider =
      ((run step (deploy msg) as).missedSince provider now).card := by
  obtain ⟨hcycle, htally⟩ : Cycle (run step (deploy msg) as) (history step (deploy msg) as)
      (lastTime Action.time as) ∧ Tally (run step (deploy msg) as) provider (lastTime Action.time as) := by
    apply timed_induction (C := ChecksInOrder provider) (P := fun v hist now =>
      Cycle v hist now ∧ Tally v provider now) ⟨cycle_deploy msg, tally_deploy msg⟩ _ _ as hmono horder
    · rintro v hist now later hle ⟨hcycle, htally⟩
      exact ⟨hcycle.wait hle, htally.wait hle⟩
    · rintro v hist a v' logs ⟨hcycle, htally⟩ horder hstep
      exact ⟨cycle_step hcycle hstep, tally_step hcycle htally horder hstep⟩
  rw [htally.counter]
  congr 1
  apply Finset.filter_congr
  intro id hid
  rw [Finset.mem_range] at hid
  apply and_congr_right
  intro hown
  apply and_congr_left
  intro _
  -- a challenge is marked as checked if and only if it was missed
  constructor
  · intro hup
    exact ⟨hcycle.exclusive id hid hup, (hcycle.overdue id hid hup).trans_le hnow⟩
  · rintro ⟨hpending, hlate⟩
    exact hchecked id hid hown hpending hlate

theorem Accepts.submitPoSt_eq {msg : BlockMsg} {leafData : List Bytes32} {proofs : List (List Bytes32)}
    {providerSeed : Bytes32} (h : v.Accepts msg id leafData proofs providerSeed) :
    v.submitPoSt msg id leafData proofs providerSeed = .ok
      (v.withAnswer msg id, [.PoStSubmitted id msg.sender, .PoStVerified id]) := by
  obtain ⟨r, hr⟩ := submitPoSt_succeeds_iff.mpr h
  rw [hr]
  simp only [submitPoSt, bind_eq_ok, pure_eq_ok] at hr
  obtain ⟨_, -, _, -, _, -, _, -, _, -, _, -, _, -, rfl⟩ := hr
  rfl

end Misses

end ProofVerifier

/-! ### In the small deployment

Challenge 0 is missed, challenge 1 is answered in time. -/

namespace SmallVerifier

open ProofVerifier

def entropyOne : Bytes32 := challengeEntropy providerSeed 1 0 2

def rootOne : Bytes32 := 0x9ac7e4c1939ea0cfe31afe273de967388f229bdafb15f6985458047334b57d22

def answerOne (timestamp : Nat) : Action :=
  account 1 timestamp (.submitPoSt 1 leafData (forgedProofs 4 entropyOne leafData) providerSeed)

def checkZero (timestamp : Nat) : Action := account 0 timestamp (.checkMissedPoSt 0)

/-- The provider's PoRep and two challenges. -/
def challengedTwice : List Action :=
  [lowerDifficulty, porep rootOne 1000, challenge (List.range CHALLENGE_SECTORS) 2000,
    challenge (List.range CHALLENGE_SECTORS) 3000]

/-- The owner checks challenge 0 before the provider answers challenge 1. -/
def checkedFirst : List Action := challengedTwice ++ [checkZero 96000, answerOne 96500]

/-- The provider is faster. -/
def answeredFirst : List Action := challengedTwice ++ [answerOne 96000, checkZero 96500]

theorem rootOf_forgedLeavesOne :
    MerkleProof.rootOf 4 (forgedLeaves entropyOne leafData) = rootOne := by
  decide +kernel

/-- Challenge 1 is open, and so is the way to answer it. -/
def AwaitsOne (v : ProofVerifier) (timestamp : Nat) : Prop :=
  (v.postChallenges 1).provider = 2 ∧ (v.postChallenges 1).submitted = false ∧
    timestamp ≤ (v.postChallenges 1).deadline ∧ (v.postChallenges 1).dealId = 0 ∧
    keccak256 (packWord providerSeed) = (v.postChallenges 1).commitment ∧
    (v.porepProofs 0 2).sealedCID = rootOne

instance (v : ProofVerifier) (timestamp : Nat) : Decidable (AwaitsOne v timestamp) :=
  inferInstanceAs (Decidable (_ ∧ _))

theorem answerOne_accepts {v : ProofVerifier} {timestamp : Nat} (h : AwaitsOne v timestamp) :
    v.Accepts (answerOne timestamp).msg 1 leafData (forgedProofs 4 entropyOne leafData)
      providerSeed := by
  obtain ⟨hprovider, hpending, htime, hdeal, hseed, hroot⟩ := h
  have hsender : (answerOne timestamp).msg.sender = 2 := rfl
  refine ⟨hprovider, hpending, htime, rfl, hseed, ?_, ?_⟩
  · rw [hdeal, hsender, hroot]
    decide
  · rw [hdeal, hsender, hroot, ← rootOf_forgedLeavesOne]
    exact verifyLeaves_forged (by decide)

/-- An answer to challenge 1 once both challenges are there. -/
theorem exec_answerOne {v : ProofVerifier} {timestamp : Nat} (h : AwaitsOne v timestamp) :
    exec step v (answerOne timestamp) = v.withAnswer (answerOne timestamp).msg 1 :=
  exec_of_ok (answerOne_accepts h).submitPoSt_eq

end SmallVerifier

section Concrete

open ProofVerifier SmallVerifier

/-- In the example, checking first gives the number of misses. -/
theorem missCounter_checkedFirst :
    (run step (deploy ⟨1, 0⟩) checkedFirst).consecutiveMisses 2 =
      ((run step (deploy ⟨1, 0⟩) checkedFirst).missedSince 2 96500).card := by
  have hrun : run step (deploy ⟨1, 0⟩) checkedFirst =
      (run step (deploy ⟨1, 0⟩) (challengedTwice ++ [checkZero 96000])).withAnswer
        (answerOne 96500).msg 1 := by
    rw [checkedFirst, List.append_cons, run_snoc]
    exact exec_answerOne (by decide +kernel)
  apply missCounter_run
  · decide
  · -- nothing has been answered when challenge 0 is checked
    refine ⟨fun _ => trivial, fun _ => trivial, fun _ => trivial, fun _ => trivial, fun _ _ => ?_,
      fun _ => trivial, trivial⟩
    show 0 < (run step (deploy ⟨1, 0⟩) challengedTwice).challengeCount ∧
      (run step (deploy ⟨1, 0⟩) challengedTwice).NewerThanVerified 2 0
    decide +kernel
  · decide
  · rw [hrun]
    decide +kernel

/-- The other way round the counter is one although the newest challenge has been answered. -/
theorem answeredFirst_miscounted :
    (answeredFirst.Pairwise fun a b => a.time ≤ b.time) ∧
      lastTime Action.time answeredFirst ≤ 96500 ∧
      AllChecked (run step (deploy ⟨1, 0⟩) answeredFirst) 2 96500 ∧
      (run step (deploy ⟨1, 0⟩) answeredFirst).consecutiveMisses 2 = 1 ∧
      ((run step (deploy ⟨1, 0⟩) answeredFirst).missedSince 2 96500).card = 0 := by
  have hanswer : exec step (run step (deploy ⟨1, 0⟩) challengedTwice) (answerOne 96000) =
      (run step (deploy ⟨1, 0⟩) challengedTwice).withAnswer (answerOne 96000).msg 1 := by
    exact exec_answerOne (by decide +kernel)
  have hrun : run step (deploy ⟨1, 0⟩) answeredFirst =
      exec step ((run step (deploy ⟨1, 0⟩) challengedTwice).withAnswer (answerOne 96000).msg 1)
        (checkZero 96500) := by
    rw [answeredFirst, List.append_cons, run_snoc, run_snoc, hanswer]
  rw [hrun]
  refine ⟨by decide, by decide, ?_⟩
  decide +kernel

end Concrete

end Kyneto
