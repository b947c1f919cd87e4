import Kyneto.ProofVerifier.Basic

/-!
# What a call of `ProofVerifier` can do

`step_effect` says what every successful call does to the proofs and the challenges, with the guards of the
branch it took. `submitPoSt_succeeds_iff` says which answers are accepted.

An answer shows little by itself: whoever may choose the root can make one up (`verifyLeaves_forged`).
-/

namespace Kyneto

open Evm

namespace ProofVerifier

/-! ## What a call can do -/

/-- The proofs, the challenges and their number are the same. -/
structure SameProofs (v v' : ProofVerifier) : Prop where
  porepProofs : v'.porepProofs = v.porepProofs
  postChallenges : v'.postChallenges = v.postChallenges
  challengeCount : v'.challengeCount = v.challengeCount

/-- The guards of an accepted answer. -/
structure Accepts (v : ProofVerifier) (msg : BlockMsg) (challengeId : Nat) (leafData : List Bytes32)
    (proofs : List (List Bytes32)) (providerSeed : Bytes32) : Prop where
  provider : (v.postChallenges challengeId).provider = msg.sender
  pending : (v.postChallenges challengeId).submitted = false
  inTime : msg.timestamp ≤ (v.postChallenges challengeId).deadline
  count : leafData.length = CHALLENGE_SECTORS
  seed : keccak256 (packWord providerSeed) = (v.postChallenges challengeId).commitment
  porep : (v.porepProofs (v.postChallenges challengeId).dealId msg.sender).sealedCID ≠ 0
  leaves : verifyLeaves (v.porepProofs (v.postChallenges challengeId).dealId msg.sender).sealedCID
    (challengeEntropy providerSeed challengeId (v.postChallenges challengeId).dealId msg.sender)
    0 leafData proofs = .ok ()

/-- The calls about the owner's settings. -/
def Call.isAdmin : Call → Bool
  | .setPoRepDifficulty _ | .markNonceUsed _ _ | .transferOwnership _ | .renounceOwnership => true
  | _ => false

/-- What a successful call does to the proofs and the challenges. -/
inductive Effect (v : ProofVerifier) (msg : BlockMsg) : Call → ProofVerifier → Prop
  | admin {call v'} (isAdmin : call.isAdmin = true) (same : SameProofs v v') : Effect v msg call v'
  | proved {dealId sealedCID unsealedCID proofData v'}
      (fresh : (v.porepProofs dealId msg.sender).verified = false) (nonzero : sealedCID ≠ 0)
      (porepProofs : v'.porepProofs = (v.setPoRep dealId msg.sender
        { sealedCID, unsealedCID, timestamp := msg.timestamp, verified := true }).porepProofs)
      (postChallenges : v'.postChallenges = v.postChallenges)
      (challengeCount : v'.challengeCount = v.challengeCount) :
      Effect v msg (.submitPoRep dealId sealedCID unsealedCID proofData) v'
  | challenged {dealId provider leafIndices seedCommitment challenge v'}
      (challenge_eq : challenge =
        { dealId, provider, challengeTimestamp := msg.timestamp
          deadline := msg.timestamp + POST_INTERVAL + GRACE_PERIOD, leafIndices
          commitment := seedCommitment })
      (porepProofs : v'.porepProofs = v.porepProofs)
      (postChallenges : v'.postChallenges =
        Function.update v.postChallenges v.challengeCount challenge)
      (challengeCount : v'.challengeCount = v.challengeCount + 1) :
      Effect v msg (.createPoStChallenge dealId provider leafIndices seedCommitment) v'
  | answered {challengeId leafData proofs providerSeed v'}
      (accepts : v.Accepts msg challengeId leafData proofs providerSeed)
      (porepProofs : v'.porepProofs = v.porepProofs)
      (postChallenges : v'.postChallenges = Function.update v.postChallenges challengeId
        { v.postChallenges challengeId with submitted := true, verified := true })
      (challengeCount : v'.challengeCount = v.challengeCount) :
      Effect v msg (.submitPoSt challengeId leafData proofs providerSeed) v'
  | missed {challengeId v'}
      (porepProofs : v'.porepProofs = v.porepProofs)
      (postChallenges : v'.postChallenges = Function.update v.postChallenges challengeId
        { v.postChallenges challengeId with checked := true })
      (challengeCount : v'.challengeCount = v.challengeCount) :
      Effect v msg (.checkMissedPoSt challengeId) v'

section Effects

variable {v v' : ProofVerifier} {msg : BlockMsg} {logs : List ProofLog}

/-- No replica with the identifier zero is accepted. -/
theorem verifyPoRepProof_nonzero {sealedCID unsealedCID : Bytes32} {proofData : Bytes}
    (h : v.verifyPoRepProof msg sealedCID unsealedCID proofData = .ok true) : sealedCID ≠ 0 := by
  unfold verifyPoRepProof at h
  split at h
  · cases h
  · split at h
    · cases h
    · next hzero =>
      rw [not_or] at hzero
      exact hzero.1

/-- An answer is accepted exactly if it passes the guards. -/
theorem submitPoSt_succeeds_iff {challengeId : Nat} {leafData : List Bytes32}
    {proofs : List (List Bytes32)} {providerSeed : Bytes32} :
    (∃ r, v.submitPoSt msg challengeId leafData proofs providerSeed = .ok r) ↔
      v.Accepts msg challengeId leafData proofs providerSeed := by
  simp only [submitPoSt, bind_eq_ok, require_eq_ok, pure_eq_ok, exists_const]
  constructor
  · rintro ⟨r, h₁, h₂, h₃, h₄, h₅, h₆, _, h₇, -⟩
    exact ⟨h₁, h₂, h₃, h₄, h₅, h₆, h₇⟩
  · rintro ⟨h₁, h₂, h₃, h₄, h₅, h₆, h₇⟩
    exact ⟨_, h₁, h₂, h₃, h₄, h₅, h₆, (), h₇, rfl⟩

/-- The loop over the leaves succeeds if every leaf has a proof, and every proof is good. -/
theorem verifyLeaves_ok_iff {root entropy : Bytes32} {i : Nat} {leafData : List Bytes32}
    {proofs : List (List Bytes32)} :
    verifyLeaves root entropy i leafData proofs = .ok () ↔
      ∀ j data, leafData[j]? = some data → ∃ proof, proofs[j]? = some proof ∧
        MerkleProof.verify proof root (keccak256 (leafMessage data entropy (i + j))) = true := by
  induction leafData generalizing i proofs with
  | nil => simp [verifyLeaves]
  | cons first rest ih =>
    cases proofs with
    | nil =>
      constructor
      · intro h
        cases h
      · intro h
        obtain ⟨proof, hproof, -⟩ := h 0 first rfl
        cases hproof
    | cons proof proofs =>
      simp only [verifyLeaves, bind_eq_ok, require_eq_ok, exists_const, ih]
      constructor
      · rintro ⟨hfirst, hrest⟩ j data hj
        cases j with
        | zero =>
          obtain rfl : first = data := by simpa using hj
          exact ⟨proof, rfl, hfirst⟩
        | succ j =>
          have hslot : i + (j + 1) = i + 1 + j := by omega
          rw [hslot]
          exact hrest j data hj
      · intro h
        constructor
        · obtain ⟨proof', hproof, hfirst⟩ := h 0 first rfl
          obtain rfl : proof = proof' := by simpa using hproof
          exact hfirst
        · intro j data hj
          have hslot : i + 1 + j = i + (j + 1) := by omega
          rw [hslot]
          exact h (j + 1) data hj

/-- **Every successful call has one of the effects.** -/
theorem step_effect {a : Action} (h : v.step a = .ok (v', logs)) : Effect v a.msg a.call v' := by
  obtain ⟨msg, call, hzero⟩ := a
  unfold step at h
  cases call with
  | setPoRepDifficulty bits =>
    simp only [setPoRepDifficulty, bind_eq_ok, pure_eq_ok, Prod.mk.injEq] at h
    obtain ⟨_, -, _, -, rfl, -⟩ := h
    exact .admin rfl ⟨rfl, rfl, rfl⟩
  | submitPoRep dealId sealedCID unsealedCID proofData =>
    simp only [submitPoRep, bind_eq_ok, require_eq_ok, pure_eq_ok, Prod.mk.injEq,
      exists_const] at h
    obtain ⟨hfresh, isValid, hvalid, rfl, rfl, -⟩ := h
    exact .proved hfresh (verifyPoRepProof_nonzero hvalid) rfl rfl rfl
  | createPoStChallenge dealId provider leafIndices seedCommitment =>
    simp only [createPoStChallenge, bind_eq_ok, require_eq_ok, checkedAdd_eq_ok, pure_eq_ok,
      Prod.mk.injEq, exists_const] at h
    obtain ⟨_, -, -, _, ⟨-, rfl⟩, _, ⟨-, rfl⟩, _, ⟨-, rfl⟩, rfl, -⟩ := h
    exact .challenged rfl rfl rfl rfl
  | submitPoSt challengeId leafData proofs providerSeed =>
    have haccepts := submitPoSt_succeeds_iff.mp ⟨_, h⟩
    simp only [submitPoSt, bind_eq_ok, pure_eq_ok, Prod.mk.injEq] at h
    obtain ⟨_, -, _, -, _, -, _, -, _, -, _, -, _, -, rfl, -⟩ := h
    exact .answered haccepts rfl rfl rfl
  | checkMissedPoSt challengeId =>
    simp only [checkMissedPoSt, bind_eq_ok, pure_eq_ok, Prod.mk.injEq] at h
    obtain ⟨_, -, _, -, _, -, _, -, _, -, rfl, -⟩ := h
    exact .missed rfl rfl rfl
  | markNonceUsed provider nonce =>
    simp only [markNonceUsed, bind_eq_ok, pure_eq_ok, Prod.mk.injEq] at h
    obtain ⟨_, -, rfl, -⟩ := h
    exact .admin rfl ⟨rfl, rfl, rfl⟩
  | transferOwnership _ | renounceOwnership =>
    simp only [bind_eq_ok, pure_eq_ok, Prod.mk.injEq] at h
    obtain ⟨_, -, rfl, -⟩ := h
    exact .admin rfl ⟨rfl, rfl, rfl⟩

end Effects

/-! ## Made-up answers

With the seed, everything that is hashed for the leaves of an answer is known. Whoever may choose the root
can therefore answer with any data. -/

section Forge

variable {entropy : Bytes32} {height : Nat} {leafData : List Bytes32}

/-- The leaves an answer with the given data is checked against. -/
def forgedLeaves (entropy : Bytes32) (leafData : List Bytes32) : List Bytes32 :=
  leafData.mapIdx fun i data => keccak256 (leafMessage data entropy i)

def forgedProofs (height : Nat) (entropy : Bytes32) (leafData : List Bytes32) : List (List Bytes32) :=
  (List.range leafData.length).map (MerkleProof.pathFrom height (forgedLeaves entropy leafData))

/-- Leaves whose positions nobody asked for can be proved against the root that is computed from them. -/
theorem verifyLeaves_forged (hheight : leafData.length ≤ 2 ^ height) :
    verifyLeaves (MerkleProof.rootOf height (forgedLeaves entropy leafData)) entropy 0 leafData
      (forgedProofs height entropy leafData) = .ok () := by
  rw [verifyLeaves_ok_iff]
  intro j data hj
  have hlt : j < leafData.length := (List.getElem?_eq_some_iff.mp hj).1
  refine ⟨MerkleProof.pathFrom height (forgedLeaves entropy leafData) j, ?_, ?_⟩
  · simp [forgedProofs, hlt]
  · apply MerkleProof.verify_pathFrom
    · simp [forgedLeaves, hj]
    · simpa [forgedLeaves] using hheight

end Forge

end ProofVerifier

/-! ### In the small deployment -/

namespace SmallVerifier

open ProofVerifier

/-- The data of the answer: the numbers 0 to 9. -/
def leafData : List Bytes32 := (List.range CHALLENGE_SECTORS).map (BitVec.ofNat 256)

/-- What the leaves of an answer to challenge 0 are bound to. -/
def entropy : Bytes32 := challengeEntropy providerSeed 0 0 2

/-- The root of the tree over the answer's leaves. -/
def root : Bytes32 := 0xced6f0f821161b5714669ac573c9716be5e4af93a7866b4b676c3e505b2e6fb5

def answer (timestamp : Nat) : Action :=
  account 1 timestamp (.submitPoSt 0 leafData (forgedProofs 4 entropy leafData) providerSeed)

theorem rootOf_forgedLeaves : MerkleProof.rootOf 4 (forgedLeaves entropy leafData) = root := by
  decide +kernel

/-- What the answer needs besides its leaves. -/
def Ready (v : ProofVerifier) (timestamp : Nat) : Prop :=
  (v.postChallenges 0).provider = 2 ∧ (v.postChallenges 0).submitted = false ∧
    timestamp ≤ (v.postChallenges 0).deadline ∧ (v.postChallenges 0).dealId = 0 ∧
    keccak256 (packWord providerSeed) = (v.postChallenges 0).commitment ∧
    (v.porepProofs 0 2).sealedCID = root

instance (v : ProofVerifier) (timestamp : Nat) : Decidable (Ready v timestamp) :=
  inferInstanceAs (Decidable (_ ∧ _))

/-- A PoRep before the challenge. -/
def prepared : List Action :=
  [lowerDifficulty, porep root 1000, challenge (List.range CHALLENGE_SECTORS) 2000]

theorem ready_prepared : Ready (run step (deploy ⟨1, 0⟩) prepared) 3000 := by decide +kernel

/-- The answer of the example is accepted in every state that is ready for it. -/
theorem answer_accepts {v : ProofVerifier} {timestamp : Nat} (h : Ready v timestamp) :
    v.Accepts (answer timestamp).msg 0 leafData (forgedProofs 4 entropy leafData) providerSeed := by
  obtain ⟨hprovider, hpending, htime, hdeal, hseed, hroot⟩ := h
  have hsender : (answer timestamp).msg.sender = 2 := rfl
  constructor
  · exact hprovider
  · exact hpending
  · exact htime
  · rfl
  · exact hseed
  · rw [hdeal, hsender, hroot]
    decide
  · rw [hdeal, hsender, hroot, ← rootOf_forgedLeaves]
    exact verifyLeaves_forged (by decide)

/-- The answer goes through, and changes nothing but the state of the challenge. -/
theorem answer_ok {v : ProofVerifier} {timestamp : Nat} (h : Ready v timestamp) :
    (exec step v (answer timestamp)).porepProofs = v.porepProofs ∧
      (exec step v (answer timestamp)).postChallenges 0 =
        { v.postChallenges 0 with submitted := true, verified := true } := by
  obtain ⟨⟨v', logs⟩, hok⟩ := submitPoSt_succeeds_iff.mpr (answer_accepts h)
  have hstep : v.step (answer timestamp) = .ok (v', logs) := hok
  rw [exec_of_ok hstep]
  cases step_effect hstep with
  | admin hadmin => cases hadmin
  | answered _ hporep hpost _ =>
    constructor
    · exact hporep
    · rw [hpost, Function.update_self]

end SmallVerifier

end Kyneto
