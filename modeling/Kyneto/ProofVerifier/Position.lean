import Kyneto.ProofVerifier.Commitment

/-!
# Answers and positions

A challenge names ten leaves, but `submitPoSt` never reads their indices, and a proof with sorted pairs
carries no position. Two challenges that ask for different leaves therefore accept the same answers, and
they keep apart only where neither accepts any (`positionBound_iff`).
-/

namespace Kyneto

open Evm

/-! ## Are the opened leaves the challenged ones? -/

namespace ProofVerifier

/-- Two states that differ in the indices of one pending challenge only, and there in all of them. -/
structure OtherIndices (v w : ProofVerifier) (id : Nat) : Prop where
  pending : (v.postChallenges id).submitted = false
  same : w = v.setChallenge id { v.postChallenges id with leafIndices := w.getChallengeIndices id }
  disjoint : (v.getChallengeIndices id).Disjoint (w.getChallengeIndices id)

/-- No answer to the challenge is accepted in both states. -/
def PositionBound (v w : ProofVerifier) (id : Nat) : Prop :=
  ∀ a : Action, ∀ leafData proofs providerSeed,
    a.call = .submitPoSt id leafData proofs providerSeed →
      ¬ (Succeeds step v a ∧ Succeeds step w a)

/-- There is something to answer the challenge with: a sender, a root, the seed, and for each slot some
data and a path that leads to the root. -/
structure Answerable (v : ProofVerifier) (id : Nat) : Prop where
  provider : (v.postChallenges id).provider ≠ 0
  porep : (v.porepOf id).sealedCID ≠ 0
  opening : ∃ providerSeed, keccak256 (packWord providerSeed) = (v.postChallenges id).commitment ∧
    ∀ i < CHALLENGE_SECTORS, ∃ data proof,
      MerkleProof.verify proof (v.porepOf id).sealedCID
        (keccak256 (leafMessage data (challengeEntropy providerSeed id (v.postChallenges id).dealId
          (v.postChallenges id).provider) i)) = true

section Positions

variable {v w : ProofVerifier} {id : Nat}

theorem succeeds_iff_accepts {a : Action} {leafData : List Bytes32} {proofs : List (List Bytes32)}
    {providerSeed : Bytes32} (hcall : a.call = .submitPoSt id leafData proofs providerSeed) :
    Succeeds step v a ↔ v.Accepts a.msg id leafData proofs providerSeed := by
  unfold Succeeds step
  rw [hcall]
  exact submitPoSt_succeeds_iff

/-- The guards of an answer do not read the indices. -/
theorem OtherIndices.accepts (h : OtherIndices v w id) {msg : BlockMsg} {leafData : List Bytes32}
    {proofs : List (List Bytes32)} {providerSeed : Bytes32}
    (haccepts : v.Accepts msg id leafData proofs providerSeed) :
    w.Accepts msg id leafData proofs providerSeed := by
  have hporep : w.porepProofs = v.porepProofs := by
    rw [h.same]
    rfl
  have hpost : w.postChallenges id =
      { v.postChallenges id with leafIndices := w.getChallengeIndices id } := by
    nth_rewrite 1 [h.same]
    exact Function.update_self _ _ _
  obtain ⟨hprovider, hpending, htime, hcount, hseed, hroot, hleaves⟩ := haccepts
  refine ⟨?_, ?_, ?_, hcount, ?_, ?_, ?_⟩ <;> rw [hpost]
  · exact hprovider
  · exact hpending
  · exact htime
  · exact hseed
  · rw [hporep]
    exact hroot
  · rw [hporep]
    exact hleaves

/-- Only a challenge that is open can be answered. -/
theorem Accepts.answerable {a : Action} {leafData : List Bytes32} {proofs : List (List Bytes32)}
    {providerSeed : Bytes32} (h : v.Accepts a.msg id leafData proofs providerSeed) :
    v.Answerable id := by
  obtain ⟨hprovider, -, -, hcount, hseed, hroot, hleaves⟩ := h
  rw [← hprovider] at hroot hleaves
  rw [verifyLeaves_ok_iff] at hleaves
  refine ⟨hprovider ▸ a.sender_ne_zero, hroot, providerSeed, hseed, ?_⟩
  intro i hi
  have hlt : i < leafData.length := by rwa [hcount]
  obtain ⟨proof, -, hverify⟩ := hleaves i leafData[i] (List.getElem?_eq_getElem hlt)
  rw [Nat.zero_add] at hverify
  exact ⟨leafData[i], proof, hverify⟩

/-- Whoever has something to answer with has an answer. -/
theorem Answerable.accepts (h : v.Answerable id) (hpending : (v.postChallenges id).submitted = false) :
    ∃ (a : Action) (leafData : List Bytes32) (proofs : List (List Bytes32)) (providerSeed : Bytes32),
      a.call = .submitPoSt id leafData proofs providerSeed ∧
        v.Accepts a.msg id leafData proofs providerSeed := by
  obtain ⟨hprovider, hroot, providerSeed, hseed, hopen⟩ := h
  -- the data and the path for each slot
  choose data proof hverify using fun i : Fin CHALLENGE_SECTORS => hopen i i.isLt
  refine ⟨⟨⟨⟨(v.postChallenges id).provider, 0⟩, 0, 0⟩,
    .submitPoSt id (List.ofFn data) (List.ofFn proof) providerSeed, hprovider⟩,
    List.ofFn data, List.ofFn proof, providerSeed, rfl, ?_⟩
  constructor
  · rfl
  · exact hpending
  · exact Nat.zero_le _
  · exact List.length_ofFn
  · exact hseed
  · exact hroot
  · rw [verifyLeaves_ok_iff]
    intro j d hj
    obtain ⟨hlt, rfl⟩ := List.getElem?_eq_some_iff.mp hj
    rw [List.length_ofFn] at hlt
    refine ⟨proof ⟨j, hlt⟩, ?_, ?_⟩
    · simp [hlt]
    · rw [List.getElem_ofFn, Nat.zero_add]
      exact hverify ⟨j, hlt⟩

/-- **Challenges about other leaves accept the same answers: only where there is nothing to answer with is
none accepted in both states.** -/
theorem positionBound_iff (h : OtherIndices v w id) : PositionBound v w id ↔ ¬ v.Answerable id := by
  constructor
  · intro hbound hanswerable
    obtain ⟨a, leafData, proofs, providerSeed, hcall, haccepts⟩ := hanswerable.accepts h.pending
    apply hbound a leafData proofs providerSeed hcall
    rw [succeeds_iff_accepts hcall, succeeds_iff_accepts hcall]
    exact ⟨haccepts, h.accepts haccepts⟩
  · rintro hnot a leafData proofs providerSeed hcall ⟨hv, -⟩
    rw [succeeds_iff_accepts hcall] at hv
    exact hnot hv.answerable

end Positions

end ProofVerifier

/-! ### In the small deployment -/

namespace SmallVerifier

open ProofVerifier

/-- The same with ten other leaves challenged. -/
def otherLeaves (v : ProofVerifier) : ProofVerifier :=
  v.setChallenge 0
    { v.postChallenges 0 with leafIndices := (List.range CHALLENGE_SECTORS).map (· + 10) }

/-- The state with the other leaves differs in the indices of the challenge only, and there in all of them. -/
theorem otherIndices_otherLeaves {v : ProofVerifier} (hpending : (v.postChallenges 0).submitted = false)
    (hindices : v.getChallengeIndices 0 = List.range CHALLENGE_SECTORS) :
    OtherIndices v (otherLeaves v) 0 := by
  have hother : (otherLeaves v).getChallengeIndices 0 =
      (List.range CHALLENGE_SECTORS).map (· + 10) := by
    simp [getChallengeIndices, otherLeaves, setChallenge]
  constructor
  · exact hpending
  · rw [hother]
    rfl
  · rw [hindices, hother, List.disjoint_left]
    intro i hi hmap
    obtain ⟨j, -, rfl⟩ := List.mem_map.mp hmap
    rw [List.mem_range, CHALLENGE_SECTORS] at hi
    omega

/-- The challenge without a PoRep. -/
def unproved : List Action := [challenge (List.range CHALLENGE_SECTORS) 1000]

end SmallVerifier

section Concrete

open ProofVerifier SmallVerifier

theorem positionBound_unproved :
    PositionBound (run step (deploy ⟨1, 0⟩) unproved) (otherLeaves (run step (deploy ⟨1, 0⟩) unproved))
      0 := by
  have hother := @otherIndices_otherLeaves (run step (deploy ⟨1, 0⟩) unproved) (by decide +kernel)
    (by decide +kernel)
  rw [positionBound_iff hother]
  intro h
  exact h.porep (by decide +kernel)

/-- The same answer is accepted whether the leaves 0 to 9 or 10 to 19 are asked for. -/
theorem prepared_not_positionBound :
    OtherIndices (run step (deploy ⟨1, 0⟩) prepared) (otherLeaves (run step (deploy ⟨1, 0⟩) prepared))
        0 ∧
      Succeeds step (run step (deploy ⟨1, 0⟩) prepared) (answer 3000) ∧
      Succeeds step (otherLeaves (run step (deploy ⟨1, 0⟩) prepared)) (answer 3000) ∧
      ¬ PositionBound (run step (deploy ⟨1, 0⟩) prepared)
        (otherLeaves (run step (deploy ⟨1, 0⟩) prepared)) 0 := by
  have hother := @otherIndices_otherLeaves (run step (deploy ⟨1, 0⟩) prepared) ready_prepared.2.1
    (by decide +kernel)
  have haccepts := answer_accepts ready_prepared
  have hfirst : Succeeds step (run step (deploy ⟨1, 0⟩) prepared) (answer 3000) :=
    (succeeds_iff_accepts rfl).mpr haccepts
  have hsecond : Succeeds step (otherLeaves (run step (deploy ⟨1, 0⟩) prepared)) (answer 3000) :=
    (succeeds_iff_accepts rfl).mpr (hother.accepts haccepts)
  refine ⟨hother, hfirst, hsecond, ?_⟩
  intro hbound
  exact hbound _ _ _ _ rfl ⟨hfirst, hsecond⟩

end Concrete

end Kyneto
