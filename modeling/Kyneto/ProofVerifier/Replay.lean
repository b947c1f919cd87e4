import Kyneto.ProofVerifier.Effect

/-!
# Replayed PoReps

`submitPoRep` looks its nonce up among the used ones but does not record it; that is left to the owner's
`markNonceUsed`. Neither the commitment nor the work mentions the deal, so one mined nonce passes for every
deal until the owner marks it. A run is free of replays exactly if the owner is in time each time
(`replayFree_iff`).
-/

namespace Kyneto

open Evm

namespace ProofVerifier

/-! ## What a PoRep is checked for -/

/-- The provider and the nonce of a PoRep. -/
def nonceOf (a : Action) : Option (Address × Nat) :=
  match a.call with
  | .submitPoRep _ _ _ proofData => some (a.msg.sender, wordAt proofData 32)
  | _ => none

/-- The nonces of the PoReps that were accepted, oldest first. -/
def acceptedNonces (hist : List (Entry ProofVerifier Action ProofLog)) : List (Address × Nat) :=
  hist.filterMap fun e => nonceOf e.act

/-- No provider got two PoReps accepted with the same nonce. -/
def ReplayFree (hist : List (Entry ProofVerifier Action ProofLog)) : Prop :=
  (acceptedNonces hist).Nodup

/-- The checks of a PoRep, except for the one whether its nonce is used. -/
structure PoRepChecks (v : ProofVerifier) (msg : BlockMsg) (dealId : Nat)
    (sealedCID unsealedCID : Bytes32) (proofData : Bytes) : Prop where
  fresh : (v.porepProofs dealId msg.sender).verified = false
  length : 96 ≤ proofData.length
  sealed_ne_zero : sealedCID ≠ 0
  unsealed_ne_zero : unsealedCID ≠ 0
  sealed_ne_unsealed : sealedCID ≠ unsealedCID
  commitment : BitVec.ofNat 256 (wordAt proofData 0) =
    keccak256 (packWord sealedCID ++ packAddress msg.sender ++ packUint msg.chainid)
  work : keccak256 (packUint (wordAt proofData 32) ++ packWord sealedCID ++ packWord unsealedCID ++
    packWord msg.lastBlockhash) = BitVec.ofNat 256 (wordAt proofData 64)
  difficulty : hasLeadingZeroBits (BitVec.ofNat 256 (wordAt proofData 64)) v.poregDifficultyBits =
    .ok true

/-- If the call is a PoRep that passes these checks and repeats a nonce its sender got accepted, the nonce
is marked. -/
def MarkedInTime (v : ProofVerifier) (hist : List (Entry ProofVerifier Action ProofLog)) (a : Action) :
    Prop :=
  match a.call with
  | .submitPoRep dealId sealedCID unsealedCID proofData =>
    (a.msg.sender, wordAt proofData 32) ∈ acceptedNonces hist →
      v.PoRepChecks a.msg dealId sealedCID unsealedCID proofData →
        v.usedPoRepNonces a.msg.sender (wordAt proofData 32) = true
  | _ => True

section Replay

variable {v v' : ProofVerifier} {msg : BlockMsg} {dealId : Nat} {sealedCID unsealedCID : Bytes32}
  {proofData : Bytes} {hist : List (Entry ProofVerifier Action ProofLog)}
  {e : Entry ProofVerifier Action ProofLog} {a : Action}

/-- An early `return false` is not taken. -/
theorem ite_return_false_eq_ok {c : Prop} [Decidable c] {x : Tx Bool} :
    (if c then pure false else x) = .ok true ↔ ¬ c ∧ x = .ok true := by
  split
  · next hc => simp [pure_eq_ok, hc]
  · next hc => simp [hc]

theorem verifyPoRepProof_ok_iff :
    v.verifyPoRepProof msg sealedCID unsealedCID proofData = .ok true ↔
      96 ≤ proofData.length ∧ (sealedCID ≠ 0 ∧ unsealedCID ≠ 0) ∧ sealedCID ≠ unsealedCID ∧
        v.usedPoRepNonces msg.sender (wordAt proofData 32) = false ∧
        BitVec.ofNat 256 (wordAt proofData 0) =
          keccak256 (packWord sealedCID ++ packAddress msg.sender ++ packUint msg.chainid) ∧
        keccak256 (packUint (wordAt proofData 32) ++ packWord sealedCID ++ packWord unsealedCID ++
          packWord msg.lastBlockhash) = BitVec.ofNat 256 (wordAt proofData 64) ∧
        hasLeadingZeroBits (BitVec.ofNat 256 (wordAt proofData 64)) v.poregDifficultyBits =
          .ok true := by
  simp only [verifyPoRepProof, ite_return_false_eq_ok, not_lt, not_or, ne_eq, not_not,
    Bool.not_eq_true]

/-- A PoRep goes through exactly if it passes the checks and its nonce is not marked. -/
theorem submitPoRep_succeeds_iff :
    (∃ r, v.submitPoRep msg dealId sealedCID unsealedCID proofData = .ok r) ↔
      v.PoRepChecks msg dealId sealedCID unsealedCID proofData ∧
        v.usedPoRepNonces msg.sender (wordAt proofData 32) = false := by
  simp only [submitPoRep, bind_eq_ok, require_eq_ok, pure_eq_ok, exists_const]
  constructor
  · rintro ⟨r, hfresh, isValid, hvalid, rfl, -⟩
    obtain ⟨h₁, ⟨h₂, h₃⟩, h₄, hunused, h₅, h₆, h₇⟩ := verifyPoRepProof_ok_iff.mp hvalid
    exact ⟨⟨hfresh, h₁, h₂, h₃, h₄, h₅, h₆, h₇⟩, hunused⟩
  · rintro ⟨⟨hfresh, h₁, h₂, h₃, h₄, h₅, h₆, h₇⟩, hunused⟩
    have hvalid := verifyPoRepProof_ok_iff.mpr ⟨h₁, ⟨h₂, h₃⟩, h₄, hunused, h₅, h₆, h₇⟩
    exact ⟨_, hfresh, true, hvalid, rfl, rfl⟩

/-! ## Runs without replays -/

theorem acceptedNonces_snoc :
    acceptedNonces (hist ++ [e]) = acceptedNonces hist ++ (nonceOf e.act).toList := by
  unfold acceptedNonces
  rw [List.filterMap_append]
  cases h : nonceOf e.act <;> simp [h]

theorem ReplayFree.of_prefix {hist' : List (Entry ProofVerifier Action ProofLog)}
    (h : ReplayFree hist) (hle : hist' <+: hist) : ReplayFree hist' := by
  apply List.Nodup.sublist _ h
  exact hle.sublist.filterMap _

/-- One more call keeps a run free of replays if its nonce was marked in time: a marked nonce does not get
through. -/
theorem replayFree_snoc_iff (hfree : ReplayFree hist) {logs : List ProofLog}
    (h : v.step a = .ok (v', logs)) :
    ReplayFree (hist ++ [⟨v, a, logs, v'⟩]) ↔ MarkedInTime v hist a := by
  unfold ReplayFree at hfree ⊢
  rw [acceptedNonces_snoc]
  unfold nonceOf MarkedInTime
  obtain ⟨msg, call, hzero⟩ := a
  cases call with
  | submitPoRep dealId sealedCID unsealedCID proofData =>
    obtain ⟨hchecks, hunused⟩ := submitPoRep_succeeds_iff.mp ⟨_, h⟩
    show (acceptedNonces hist ++ [(msg.sender, wordAt proofData 32)]).Nodup ↔ _
    rw [List.nodup_append]
    constructor
    · rintro ⟨-, -, hdisjoint⟩ hmem
      exact absurd rfl (hdisjoint _ hmem _ (List.mem_singleton_self _))
    · intro hmarked
      refine ⟨hfree, List.nodup_singleton _, ?_⟩
      rintro x hx y hy rfl
      obtain rfl := List.mem_singleton.mp hy
      have hused := hmarked hx hchecks
      rw [hunused] at hused
      cases hused
  | setPoRepDifficulty _ | createPoStChallenge _ _ _ _ | submitPoSt _ _ _ _ | checkMissedPoSt _
  | markNonceUsed _ _ | transferOwnership _ | renounceOwnership =>
    simpa using hfree

/-- A call that reverts was either not about a PoRep, or it failed one of the checks. -/
theorem markedInTime_of_error (h : ¬ Succeeds step v a) : MarkedInTime v hist a := by
  unfold MarkedInTime
  split
  · next dealId sealedCID unsealedCID proofData hcall =>
    intro _ hchecks
    by_contra hunused
    apply h
    unfold Succeeds step
    rw [hcall]
    exact submitPoRep_succeeds_iff.mpr ⟨hchecks, by simpa using hunused⟩
  · trivial

/-- **A run is free of replays exactly if each nonce is marked before its sender comes with it again.** -/
theorem replayFree_iff (msg : Msg) (as : List Action) :
    ReplayFree (history step (deploy msg) as) ↔
      ∀ bs a, bs ++ [a] <+: as →
        MarkedInTime (run step (deploy msg) bs) (history step (deploy msg) bs) a := by
  have hrun : (∀ bs, bs <+: as → ReplayFree (history step (deploy msg) bs)) ↔
      ∀ bs a, bs ++ [a] <+: as → Succeeds step (run step (deploy msg) bs) a →
        MarkedInTime (run step (deploy msg) bs) (history step (deploy msg) bs) a :=
    lookback_iff (P := fun _ hist => ReplayFree hist) (I := fun _ _ => True) (C := MarkedInTime)
      List.nodup_nil trivial (fun _ _ _ _ _ _ _ => trivial)
      (fun _ _ _ _ _ _ hfree h => replayFree_snoc_iff hfree h) as
  constructor
  · intro hfree bs a hbs
    by_cases hsucceeds : Succeeds step (run step (deploy msg) bs) a
    · refine hrun.mp ?_ bs a hbs hsucceeds
      rintro cs ⟨ds, rfl⟩
      rw [history_append] at hfree
      exact hfree.of_prefix (List.prefix_append _ _)
    · exact markedInTime_of_error hsucceeds
  · intro hall
    exact hrun.mpr (fun bs a hbs _ => hall bs a hbs) as (List.prefix_refl as)

end Replay

end ProofVerifier

/-! ### In the small deployment -/

namespace SmallVerifier

open ProofVerifier

/-- A nonce mined for the sealed CID 2 and the unsealed CID 1 at the default difficulty. -/
def minedNonce : Nat := 1524164

def minedProof : Bytes :=
  packWord (keccak256 (packWord 2 ++ packAddress 2 ++ packUint 31337)) ++ packUint minedNonce ++
    packWord (keccak256 (packUint minedNonce ++ packWord 2 ++ packWord 1 ++ packWord 0))

/-- The provider uses its work for two deals in one block. -/
def twoDeals : List Action :=
  [account 1 1000 (.submitPoRep 0 2 1 minedProof), account 1 1000 (.submitPoRep 1 2 1 minedProof)]

/-- Both are accepted. -/
theorem twoDeals_replayed :
    acceptedNonces (history step (deploy ⟨1, 0⟩) twoDeals) = [(2, minedNonce), (2, minedNonce)] ∧
      ¬ ReplayFree (history step (deploy ⟨1, 0⟩) twoDeals) := by
  have hnonces : acceptedNonces (history step (deploy ⟨1, 0⟩) twoDeals) =
      [(2, minedNonce), (2, minedNonce)] := by decide +kernel
  refine ⟨hnonces, ?_⟩
  unfold ReplayFree
  rw [hnonces]
  decide

end SmallVerifier

end Kyneto
