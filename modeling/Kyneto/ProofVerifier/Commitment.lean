import Kyneto.ProofVerifier.Effect

/-!
# Roots fixed before the challenge

An answer to a challenge opens the `sealedCID` of a PoRep, so it shows something only if that root was fixed
before the challenge. `submitPoRep` does not ask whether challenges are waiting: a provider can see a
challenge first and build a tree of the right leaves after it.

Runs in which no PoRep comes in while a challenge for it is waiting are fine (`committedBefore_run`).
-/

namespace Kyneto

open Evm

namespace ProofVerifier

/-! ## Was the root fixed before the challenge? -/

/-- The PoRep a challenge is answered with. -/
def porepOf (v : ProofVerifier) (id : Nat) : PoRepProof :=
  v.porepProofs (v.postChallenges id).dealId (v.postChallenges id).provider

/-- When the call that created challenge `id` came in, the PoRep was what it is now. -/
structure FixedBefore (hist : List (Entry ProofVerifier Action ProofLog)) (id : Nat)
    (challenge : PoStChallenge) (proof : PoRepProof) : Prop where
  creation : ∃ e ∈ hist, e.pre.challengeCount = id ∧
    e.act.call = .createPoStChallenge challenge.dealId challenge.provider challenge.leafIndices
      challenge.commitment ∧
    e.pre.porepProofs challenge.dealId challenge.provider = proof
  notLater : proof.timestamp ≤ challenge.challengeTimestamp

/-- The provider's PoRep was accepted before the challenge was created. -/
structure CommittedBefore (hist : List (Entry ProofVerifier Action ProofLog)) (v : ProofVerifier)
    (id : Nat) : Prop where
  accepted : (v.porepOf id).verified = true
  fixed : FixedBefore hist id (v.postChallenges id) (v.porepOf id)

/-- The call is not a PoRep for which a challenge is waiting. -/
def NotLate (v : ProofVerifier) (a : Action) : Prop :=
  match a.call with
  | .submitPoRep dealId _ _ _ => ∀ id < v.challengeCount,
    (v.postChallenges id).dealId = dealId → (v.postChallenges id).provider = a.msg.sender →
      (v.postChallenges id).submitted = true ∨ (v.postChallenges id).deadline < a.msg.timestamp
  | _ => True

/-- In a run without late PoReps: as long as challenge `id` can be answered, its PoRep is the one it was
created with, and the same once it has been answered. -/
structure PromptAt (v : ProofVerifier) (hist : List (Entry ProofVerifier Action ProofLog)) (now id : Nat) :
    Prop where
  waiting : (v.postChallenges id).provider ≠ 0 → (v.postChallenges id).submitted = false →
    now ≤ (v.postChallenges id).deadline → FixedBefore hist id (v.postChallenges id) (v.porepOf id)
  settled : (v.postChallenges id).verified = true → CommittedBefore hist v id

/-- What holds at time `now` of a run without late PoReps. -/
structure Prompt (v : ProofVerifier) (hist : List (Entry ProofVerifier Action ProofLog)) (now : Nat) :
    Prop where
  past : ∀ dealId provider, (v.porepProofs dealId provider).timestamp ≤ now
  rooted : ∀ dealId provider, (v.porepProofs dealId provider).sealedCID ≠ 0 →
    (v.porepProofs dealId provider).verified = true
  unused : ∀ id, v.challengeCount ≤ id → (v.postChallenges id).provider = 0
  challenges : ∀ id, PromptAt v hist now id

section Prompt

variable {v v' : ProofVerifier} {hist : List (Entry ProofVerifier Action ProofLog)} {now id : Nat}
  {e : Entry ProofVerifier Action ProofLog}

theorem FixedBefore.snoc {challenge : PoStChallenge} {proof : PoRepProof}
    (h : FixedBefore hist id challenge proof) : FixedBefore (hist ++ [e]) id challenge proof := by
  obtain ⟨⟨e', hmem, hcreation⟩, hlater⟩ := h
  exact ⟨⟨e', List.mem_append_left _ hmem, hcreation⟩, hlater⟩

/-- A call that leaves a challenge and its PoRep alone does not matter to it. -/
theorem PromptAt.snoc (h : PromptAt v hist now id)
    (hchallenge : v'.postChallenges id = v.postChallenges id) (hporep : v'.porepOf id = v.porepOf id) :
    PromptAt v' (hist ++ [e]) now id := by
  constructor
  · intro hprovider hpending hdeadline
    rw [hchallenge] at hprovider hpending hdeadline ⊢
    rw [hporep]
    exact (h.waiting hprovider hpending hdeadline).snoc
  · intro hverified
    rw [hchallenge] at hverified
    obtain ⟨haccepted, hfixed⟩ := h.settled hverified
    constructor
    · rwa [hporep]
    · rw [hchallenge, hporep]
      exact hfixed.snoc

theorem porepOf_congr (hchallenge : v'.postChallenges id = v.postChallenges id)
    (hporep : v'.porepProofs = v.porepProofs) : v'.porepOf id = v.porepOf id := by
  rw [porepOf, porepOf, hchallenge, hporep]

theorem prompt_deploy (msg : Msg) : Prompt (deploy msg) [] 0 where
  past _ _ := Nat.le_refl 0
  rooted _ _ h := absurd rfl h
  unused _ _ := rfl
  challenges _ := ⟨fun h => absurd rfl h, fun h => by cases h⟩

theorem Prompt.wait {later : Nat} (h : Prompt v hist now) (hle : now ≤ later) :
    Prompt v hist later where
  past dealId provider := (h.past dealId provider).trans hle
  rooted := h.rooted
  unused := h.unused
  challenges id :=
    { waiting := fun hprovider hpending hdeadline =>
        (h.challenges id).waiting hprovider hpending (hle.trans hdeadline)
      settled := (h.challenges id).settled }

/-- A call that changes one challenge and no PoRep has to answer for that challenge only. -/
theorem Prompt.of_update {challenge : PoStChallenge} (h : Prompt v hist now)
    (hporep : v'.porepProofs = v.porepProofs)
    (hpost : v'.postChallenges = Function.update v.postChallenges id challenge)
    (hcount : v.challengeCount ≤ v'.challengeCount)
    (hunused : v'.challengeCount ≤ id → challenge.provider = 0)
    (hwaiting : challenge.provider ≠ 0 → challenge.submitted = false → now ≤ challenge.deadline →
      FixedBefore (hist ++ [e]) id challenge (v.porepProofs challenge.dealId challenge.provider))
    (hsettled : challenge.verified = true →
      (v.porepProofs challenge.dealId challenge.provider).verified = true ∧
        FixedBefore (hist ++ [e]) id challenge (v.porepProofs challenge.dealId challenge.provider)) :
    Prompt v' (hist ++ [e]) now where
  past := hporep ▸ h.past
  rooted := hporep ▸ h.rooted
  unused := by
    intro other hother
    rw [hpost]
    rcases eq_or_ne other id with rfl | hne
    · rw [Function.update_self]
      exact hunused hother
    · rw [Function.update_of_ne hne]
      exact h.unused other (hcount.trans hother)
  challenges := by
    intro other
    rcases eq_or_ne other id with rfl | hne
    · have hself : v'.postChallenges other = challenge := by rw [hpost, Function.update_self]
      have hown : v'.porepOf other = v.porepProofs challenge.dealId challenge.provider := by
        rw [porepOf, hself, hporep]
      constructor
      · rw [hself, hown]
        exact hwaiting
      · intro hverified
        rw [hself] at hverified
        obtain ⟨haccepted, hfixed⟩ := hsettled hverified
        constructor
        · rwa [hown]
        · rwa [hself, hown]
    · have hsame : v'.postChallenges other = v.postChallenges other := by
        rw [hpost, Function.update_of_ne hne]
      exact (h.challenges other).snoc hsame (porepOf_congr hsame hporep)

/-- A PoRep that comes in when no challenge for it is waiting touches none that could be answered. -/
theorem prompt_proved {a : Action} {dealId : Nat} {proof : PoRepProof} (h : Prompt v hist a.time)
    (hlate : ∀ id < v.challengeCount, (v.postChallenges id).dealId = dealId →
      (v.postChallenges id).provider = a.msg.sender →
      (v.postChallenges id).submitted = true ∨ (v.postChallenges id).deadline < a.msg.timestamp)
    (hfresh : (v.porepProofs dealId a.msg.sender).verified = false)
    (hverified : proof.verified = true) (htime : proof.timestamp = a.time)
    (hporep : v'.porepProofs = (v.setPoRep dealId a.msg.sender proof).porepProofs)
    (hpost : v'.postChallenges = v.postChallenges) (hcount : v'.challengeCount = v.challengeCount) :
    Prompt v' (hist ++ [e]) a.time := by
  have hself : v'.porepProofs dealId a.msg.sender = proof := by
    rw [hporep, setPoRep_self]
  have hother : ∀ d p, ¬(d = dealId ∧ p = a.msg.sender) → v'.porepProofs d p = v.porepProofs d p := by
    intro d p hne
    rw [hporep, setPoRep_of_ne hne]
  constructor
  · intro d p
    by_cases hp : d = dealId ∧ p = a.msg.sender
    · rw [hp.1, hp.2, hself, htime]
    · rw [hother d p hp]
      exact h.past d p
  · intro d p hroot
    by_cases hp : d = dealId ∧ p = a.msg.sender
    · rw [hp.1, hp.2, hself, hverified]
    · rw [hother d p hp] at hroot ⊢
      exact h.rooted d p hroot
  · rw [hpost, hcount]
    exact h.unused
  · intro id
    have hsame : v'.postChallenges id = v.postChallenges id := by rw [hpost]
    by_cases hid : (v.postChallenges id).dealId = dealId ∧ (v.postChallenges id).provider = a.msg.sender
    · -- the challenge is for this PoRep: it is neither waiting nor answered
      obtain ⟨hdeal, hprovider⟩ := hid
      constructor
      · intro hne hpending hdeadline
        rw [hsame] at hne hpending hdeadline
        have hlt : id < v.challengeCount := by
          by_contra hge
          exact hne (h.unused id (by omega))
        rcases hlate id hlt hdeal hprovider with hsubmitted | hpast
        · rw [hpending] at hsubmitted
          cases hsubmitted
        · exact absurd hdeadline (Nat.not_le_of_lt hpast)
      · intro hanswered
        rw [hsame] at hanswered
        have haccepted := ((h.challenges id).settled hanswered).accepted
        rw [porepOf, hdeal, hprovider, hfresh] at haccepted
        cases haccepted
    · apply (h.challenges id).snoc hsame
      rw [porepOf, porepOf, hsame, hother _ _ hid]

/-- Every call but a late replication proof keeps a run prompt. -/
theorem prompt_step {a : Action} {logs : List ProofLog} (h : Prompt v hist a.time)
    (hlate : NotLate v a) (hstep : v.step a = .ok (v', logs)) :
    Prompt v' (hist ++ [⟨v, a, logs, v'⟩]) a.time := by
  obtain ⟨msg, call, hzero⟩ := a
  cases step_effect hstep with
  | admin _ same =>
    obtain ⟨hporep, hpost, hcount⟩ := same
    constructor
    · rw [hporep]
      exact h.past
    · rw [hporep]
      exact h.rooted
    · rw [hpost, hcount]
      exact h.unused
    · intro id
      have hsame : v'.postChallenges id = v.postChallenges id := by rw [hpost]
      exact (h.challenges id).snoc hsame (porepOf_congr hsame hporep)
  | proved hfresh hnonzero hporep hpost hcount =>
    -- the only call that changes a PoRep
    exact prompt_proved h hlate hfresh rfl rfl hporep hpost hcount
  | challenged hchallenge hporep hpost hcount =>
    subst hchallenge
    apply h.of_update hporep hpost (by omega) (by omega)
    · -- the PoRep is the one the creation finds
      intro _ _ _
      exact ⟨⟨_, List.mem_append_right _ List.mem_cons_self, rfl, rfl, rfl⟩, h.past _ _⟩
    · intro hverified
      cases hverified
  | @answered id _ _ _ _ accepts hporep hpost hcount =>
    have hprovider : (v.postChallenges id).provider ≠ 0 := by
      rw [accepts.provider]
      exact hzero
    -- so far the challenge was waiting, so its PoRep is the one of its creation
    have hfixed := (h.challenges id).waiting hprovider accepts.pending accepts.inTime
    have hroot := accepts.porep
    rw [← accepts.provider] at hroot
    apply h.of_update hporep hpost (by omega)
    · intro hunused
      exact h.unused id (by omega)
    · intro _ hpending
      cases hpending
    · intro _
      exact ⟨h.rooted _ _ hroot, hfixed.snoc.creation, hfixed.notLater⟩
  | @missed id _ hporep hpost hcount =>
    apply h.of_update hporep hpost (by omega)
    · intro hunused
      exact h.unused id (by omega)
    · intro hprovider hpending hdeadline
      have hfixed := (h.challenges id).waiting hprovider hpending hdeadline
      exact ⟨hfixed.snoc.creation, hfixed.notLater⟩
    · intro hverified
      obtain ⟨haccepted, hfixed⟩ := (h.challenges id).settled hverified
      exact ⟨haccepted, hfixed.snoc.creation, hfixed.notLater⟩

/-- **If no PoRep comes in while a challenge for it is waiting, every challenge that has been answered was
answered with a root fixed before its creation.** -/
theorem committedBefore_run (msg : Msg) (as : List Action)
    (hmono : as.Pairwise fun a b => a.time ≤ b.time) (hlate : Meets step NotLate (deploy msg) as)
    (id : Nat) (hverified : ((run step (deploy msg) as).postChallenges id).verified = true) :
    CommittedBefore (history step (deploy msg) as) (run step (deploy msg) as) id := by
  have hprompt : Prompt (run step (deploy msg) as) (history step (deploy msg) as)
      (lastTime Action.time as) := by
    apply timed_induction (C := NotLate) (prompt_deploy msg) _ _ as hmono hlate
    · intro v hist now later hle h
      exact h.wait hle
    · intro v hist a v' logs h hnot hstep
      exact prompt_step h hnot hstep
  exact (hprompt.challenges id).settled hverified

end Prompt

end ProofVerifier

/-! ### In the small deployment -/

namespace SmallVerifier

open ProofVerifier

/-- A PoRep after the challenge. -/
def late : List Action :=
  [lowerDifficulty, challenge (List.range CHALLENGE_SECTORS) 1000, porep root 2000]

theorem ready_late : Ready (run step (deploy ⟨1, 0⟩) late) 3000 := by decide +kernel

end SmallVerifier

section Concrete

open ProofVerifier SmallVerifier

theorem committedBefore_prepared :
    CommittedBefore (history step (deploy ⟨1, 0⟩) (prepared ++ [answer 3000]))
      (run step (deploy ⟨1, 0⟩) (prepared ++ [answer 3000])) 0 := by
  apply committedBefore_run
  · decide
  · -- the only PoRep of the run finds no challenge at all
    refine ⟨fun _ => trivial, fun _ id hid => ?_, fun _ => trivial, fun _ => trivial, trivial⟩
    exact absurd hid (Nat.not_lt_zero id)
  · rw [run_snoc, (answer_ok ready_prepared).2]

/-- The provider sees the challenge, makes up a tree, has its root accepted as a PoRep and answers the
challenge with it. -/
theorem late_not_committedBefore :
    ((late ++ [answer 3000]).Pairwise fun a b => a.time ≤ b.time) ∧
      ((run step (deploy ⟨1, 0⟩) (late ++ [answer 3000])).postChallenges 0).verified = true ∧
      ¬ CommittedBefore (history step (deploy ⟨1, 0⟩) (late ++ [answer 3000]))
        (run step (deploy ⟨1, 0⟩) (late ++ [answer 3000])) 0 := by
  obtain ⟨hporep, hpost⟩ := answer_ok ready_late
  refine ⟨by decide, ?_, ?_⟩
  · rw [run_snoc, hpost]
  · rintro ⟨-, -, hlater⟩
    rw [run_snoc, porepOf, hporep, hpost] at hlater
    -- accepted at 2000, challenged at 1000
    have hafter : ((run step (deploy ⟨1, 0⟩) late).postChallenges 0).challengeTimestamp <
        ((run step (deploy ⟨1, 0⟩) late).porepOf 0).timestamp := by decide +kernel
    exact absurd hlater (Nat.not_le_of_lt hafter)

end Concrete

end Kyneto
