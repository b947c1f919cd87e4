import Kyneto.Evm.Run
import Kyneto.Evm.MerkleProof

/-!
# `ProofVerifier`: state and operations

Proofs of replication (PoRep) and of spacetime (PoSt). A provider submits a PoRep once for each deal,
with the root of a Merkle tree as `sealedCID`. The owner then creates challenges, each with ten leaf
indices and the hash of a seed, and the provider answers one by revealing the seed and opening the root
ten times.

Besides its sender and time, a call sees the chain id and the hash of the block before it.
-/

namespace Kyneto

open Evm

/-- 24 hours. -/
def POST_INTERVAL : Nat := 24 * 3600

/-- 2 hours. -/
def GRACE_PERIOD : Nat := 2 * 3600

def CHALLENGE_SECTORS : Nat := 10

structure PoRepProof where
  sealedCID : Bytes32 := 0
  unsealedCID : Bytes32 := 0
  timestamp : Nat := 0
  verified : Bool := false
  deriving DecidableEq, Repr

structure PoStChallenge where
  dealId : Nat := 0
  provider : Address := 0
  challengeTimestamp : Nat := 0
  deadline : Nat := 0
  leafIndices : List Nat := []
  submitted : Bool := false
  verified : Bool := false
  checked : Bool := false
  commitment : Bytes32 := 0
  deriving DecidableEq, Repr

structure ProofVerifier where
  owner : Address
  poregDifficultyBits : Nat := 20
  porepProofs : Nat → Address → PoRepProof := fun _ _ => {}
  postChallenges : Nat → PoStChallenge := fun _ => {}
  challengeCount : Nat := 0
  lastPostSubmission : Address → Nat → Nat := fun _ _ => 0
  consecutiveMisses : Address → Nat := fun _ => 0
  usedPoRepNonces : Address → Nat → Bool := fun _ _ => false

inductive ProofLog where
  | DifficultyUpdated (newBits : Nat)
  | PoRepSubmitted (dealId : Nat) (provider : Address) (sealedCID : Bytes32)
  | PoRepVerified (dealId : Nat) (provider : Address)
  | PoStChallengeCreated (challengeId dealId : Nat) (provider : Address)
  | PoStSubmitted (challengeId : Nat) (provider : Address)
  | PoStVerified (challengeId : Nat)
  | PoStMissed (challengeId : Nat) (provider : Address)
  deriving DecidableEq, Repr

/-- A call's sender and time, with what the verifier reads of the chain. -/
structure BlockMsg extends Msg where
  chainid : Nat
  lastBlockhash : Bytes32
  deriving DecidableEq, Repr

/-! ## Hashes -/

/-- What binds an answer to its challenge. -/
def challengeEntropy (providerSeed : Bytes32) (challengeId dealId : Nat) (provider : Address) :
    Bytes32 :=
  keccak256 (packWord providerSeed ++ packUint challengeId ++ packUint dealId ++
    packAddress provider)

/-- The message hashed for the leaf in slot `i` of an answer. -/
def leafMessage (leafData entropy : Bytes32) (i : Nat) : Bytes :=
  packWord leafData ++ packWord entropy ++ packUint i

/-- The `i`-th byte of a word, from the left. -/
def byteAt (value : Bytes32) (i : Nat) : Nat := value.toNat / 256 ^ (31 - i) % 256

/-- The loop of `_hasLeadingZeroBits` over whole bytes. -/
def zeroBytes (value : Bytes32) (n : Nat) : Bool := (List.range n).all fun i => byteAt value i = 0

/-- In the last, partial byte the mask keeps the low bits. -/
def hasLeadingZeroBits (value : Bytes32) (bits : Nat) : Tx Bool := do
  require (bits ≤ 256) "Invalid bit count"
  let fullBytes := bits / 8
  let remainingBits := bits % 8
  if zeroBytes value fullBytes then
    if 0 < remainingBits then
      let mask := 0xff >>> remainingBits
      return byteAt value fullBytes &&& mask = 0
    else return true
  else return false

/-- `calldataload` at a byte offset of the proof data. -/
def wordAt (data : Bytes) (offset : Nat) : Nat := bigEndian ((data.drop offset).take 32)

namespace ProofVerifier

def deploy (msg : Msg) : ProofVerifier where
  owner := msg.sender

def setPoRep (v : ProofVerifier) (dealId : Nat) (provider : Address) (proof : PoRepProof) :
    ProofVerifier :=
  { v with
    porepProofs := Function.update v.porepProofs dealId
      (Function.update (v.porepProofs dealId) provider proof) }

theorem setPoRep_self (v : ProofVerifier) (dealId : Nat) (provider : Address) (proof : PoRepProof) :
    (v.setPoRep dealId provider proof).porepProofs dealId provider = proof := by
  simp [setPoRep]

theorem setPoRep_of_ne {v : ProofVerifier} {dealId dealId' : Nat} {provider provider' : Address}
    {proof : PoRepProof} (h : ¬(dealId' = dealId ∧ provider' = provider)) :
    (v.setPoRep dealId provider proof).porepProofs dealId' provider' =
      v.porepProofs dealId' provider' := by
  rcases eq_or_ne dealId' dealId with rfl | hdeal
  · have hprovider : provider' ≠ provider := fun hp => h ⟨rfl, hp⟩
    simp [setPoRep, hprovider]
  · simp [setPoRep, hdeal]

def setChallenge (v : ProofVerifier) (challengeId : Nat) (challenge : PoStChallenge) :
    ProofVerifier :=
  { v with postChallenges := Function.update v.postChallenges challengeId challenge }

/-! ## Operations -/

def setPoRepDifficulty (v : ProofVerifier) (msg : BlockMsg) (bits : Nat) :
    Tx (ProofVerifier × List ProofLog) := do
  onlyOwner v.owner msg.toMsg
  require (bits ≤ 256) "Invalid difficulty"
  return ({ v with poregDifficultyBits := bits }, [.DifficultyUpdated bits])

def verifyPoRepProof (v : ProofVerifier) (msg : BlockMsg) (sealedCID unsealedCID : Bytes32)
    (proofData : Bytes) : Tx Bool :=
  if proofData.length < 96 then return false
  else if sealedCID = 0 ∨ unsealedCID = 0 then return false
  else if sealedCID = unsealedCID then return false
  else
    let commitment := BitVec.ofNat 256 (wordAt proofData 0)
    let nonce := wordAt proofData 32
    let powHash := BitVec.ofNat 256 (wordAt proofData 64)
    -- only `markNonceUsed` ever marks a nonce, so this alone does not stop a replay
    if v.usedPoRepNonces msg.sender nonce then return false
    -- the commitment binds the root to the provider and the chain
    else if commitment ≠
        keccak256 (packWord sealedCID ++ packAddress msg.sender ++ packUint msg.chainid) then
      return false
    -- the work
    else if keccak256 (packUint nonce ++ packWord sealedCID ++ packWord unsealedCID ++
        packWord msg.lastBlockhash) ≠ powHash then return false
    else hasLeadingZeroBits powHash v.poregDifficultyBits

def submitPoRep (v : ProofVerifier) (msg : BlockMsg) (dealId : Nat)
    (sealedCID unsealedCID : Bytes32) (proofData : Bytes) :
    Tx (ProofVerifier × List ProofLog) := do
  require ((v.porepProofs dealId msg.sender).verified = false) "PoRep already verified"
  -- no check against the challenges that are waiting
  let isValid ← v.verifyPoRepProof msg sealedCID unsealedCID proofData
  require (isValid = true) "Invalid PoRep proof"
  return (v.setPoRep dealId msg.sender
      { sealedCID, unsealedCID, timestamp := msg.timestamp, verified := true },
    [.PoRepSubmitted dealId msg.sender sealedCID, .PoRepVerified dealId msg.sender])

def createPoStChallenge (v : ProofVerifier) (msg : BlockMsg) (dealId : Nat) (provider : Address)
    (leafIndices : List Nat) (seedCommitment : Bytes32) : Tx (ProofVerifier × List ProofLog) := do
  onlyOwner v.owner msg.toMsg
  require (leafIndices.length = CHALLENGE_SECTORS) "Invalid sector count"
  let challengeId := v.challengeCount
  let challengeCount ← checkedAdd challengeId 1
  let due ← checkedAdd msg.timestamp POST_INTERVAL
  let deadline ← checkedAdd due GRACE_PERIOD
  let challenge : PoStChallenge :=
    { dealId, provider, challengeTimestamp := msg.timestamp, deadline, leafIndices,
      submitted := false, verified := false, checked := false, commitment := seedCommitment }
  return ({ v.setChallenge challengeId challenge with challengeCount },
    [.PoStChallengeCreated challengeId dealId provider])

/-- The loop of `submitPoSt`, from slot `i` on. A proof that is missing is an access out of bounds. -/
def verifyLeaves (root entropy : Bytes32) (i : Nat) : List Bytes32 → List (List Bytes32) → Tx Unit
  | [], _ => .ok ()
  | _ :: _, [] => .error (.panic 0x32)
  | leafData :: rest, proof :: proofs => do
    require (MerkleProof.verify proof root (keccak256 (leafMessage leafData entropy i)) = true)
      "Invalid Merkle proof"
    verifyLeaves root entropy (i + 1) rest proofs

def submitPoSt (v : ProofVerifier) (msg : BlockMsg) (challengeId : Nat) (leafData : List Bytes32)
    (proofs : List (List Bytes32)) (providerSeed : Bytes32) :
    Tx (ProofVerifier × List ProofLog) := do
  let challenge := v.postChallenges challengeId
  require (challenge.provider = msg.sender) "Not challenge owner"
  require (challenge.submitted = false) "Already submitted"
  require (msg.timestamp ≤ challenge.deadline) "Deadline passed"
  require (leafData.length = CHALLENGE_SECTORS) "Invalid leaf count"
  -- the seed is the one committed to
  require (keccak256 (packWord providerSeed) = challenge.commitment)
    "Seed reveal does not match commitment"
  let entropy := challengeEntropy providerSeed challengeId challenge.dealId msg.sender
  let root := (v.porepProofs challenge.dealId msg.sender).sealedCID
  -- the root as it is now, whenever it was submitted
  require (root ≠ 0) "PoRep not found"
  verifyLeaves root entropy 0 leafData proofs
  let lastPostSubmission := Function.update v.lastPostSubmission msg.sender
    (Function.update (v.lastPostSubmission msg.sender) challenge.dealId msg.timestamp)
  let consecutiveMisses := Function.update v.consecutiveMisses msg.sender 0
  return ({ v.setChallenge challengeId { challenge with submitted := true, verified := true } with
      lastPostSubmission
      consecutiveMisses },
    [.PoStSubmitted challengeId msg.sender, .PoStVerified challengeId])

def checkMissedPoSt (v : ProofVerifier) (msg : BlockMsg) (challengeId : Nat) :
    Tx (ProofVerifier × List ProofLog) := do
  onlyOwner v.owner msg.toMsg
  let challenge := v.postChallenges challengeId
  require (challenge.deadline < msg.timestamp) "Deadline not passed"
  require (challenge.submitted = false) "Already submitted"
  require (challenge.checked = false) "Already checked"
  let misses ← checkedAdd (v.consecutiveMisses challenge.provider) 1
  return ({ v.setChallenge challengeId { challenge with checked := true } with
      consecutiveMisses := Function.update v.consecutiveMisses challenge.provider misses },
    [.PoStMissed challengeId challenge.provider])

def markNonceUsed (v : ProofVerifier) (msg : BlockMsg) (provider : Address) (nonce : Nat) :
    Tx (ProofVerifier × List ProofLog) := do
  onlyOwner v.owner msg.toMsg
  let used := Function.update (v.usedPoRepNonces provider) nonce true
  return ({ v with usedPoRepNonces := Function.update v.usedPoRepNonces provider used }, [])

def getChallengeIndices (v : ProofVerifier) (challengeId : Nat) : List Nat :=
  (v.postChallenges challengeId).leafIndices

/-! ## The contract as a state machine -/

inductive Call where
  | setPoRepDifficulty (bits : Nat)
  | submitPoRep (dealId : Nat) (sealedCID unsealedCID : Bytes32) (proofData : Bytes)
  | createPoStChallenge (dealId : Nat) (provider : Address) (leafIndices : List Nat)
      (seedCommitment : Bytes32)
  | submitPoSt (challengeId : Nat) (leafData : List Bytes32) (proofs : List (List Bytes32))
      (providerSeed : Bytes32)
  | checkMissedPoSt (challengeId : Nat)
  | markNonceUsed (provider : Address) (nonce : Nat)
  | transferOwnership (newOwner : Address)
  | renounceOwnership

/-- A transaction; nobody sends from the zero address. -/
structure Action where
  msg : BlockMsg
  call : Call
  sender_ne_zero : msg.sender ≠ 0

/-- The block time of a call. -/
def Action.time (a : Action) : Nat := a.msg.timestamp

def step (v : ProofVerifier) (a : Action) : Tx (ProofVerifier × List ProofLog) :=
  match a.call with
  | .setPoRepDifficulty bits => v.setPoRepDifficulty a.msg bits
  | .submitPoRep dealId sealedCID unsealedCID proofData =>
    v.submitPoRep a.msg dealId sealedCID unsealedCID proofData
  | .createPoStChallenge dealId provider leafIndices seedCommitment =>
    v.createPoStChallenge a.msg dealId provider leafIndices seedCommitment
  | .submitPoSt challengeId leafData proofs providerSeed =>
    v.submitPoSt a.msg challengeId leafData proofs providerSeed
  | .checkMissedPoSt challengeId => v.checkMissedPoSt a.msg challengeId
  | .markNonceUsed provider nonce => v.markNonceUsed a.msg provider nonce
  | .transferOwnership newOwner => do
    let owner ← Evm.transferOwnership v.owner a.msg.toMsg newOwner
    return ({ v with owner }, [])
  | .renounceOwnership => do
    let owner ← Evm.renounceOwnership v.owner a.msg.toMsg
    return ({ v with owner }, [])

end ProofVerifier

/-! ## A small deployment

Account 1 deploys the contract, account 2 is a provider. -/

namespace SmallVerifier

open ProofVerifier

/-- A call by the account with address `i + 1`. -/
def account (i : Fin 99) (timestamp : Nat) (call : Call) : Action where
  msg := { sender := BitVec.ofNat 160 (i + 1), timestamp, chainid := 31337, lastBlockhash := 0 }
  call := call
  sender_ne_zero := account_ne_zero i

def providerSeed : Bytes32 := 7

def lowerDifficulty : Action := account 0 0 (.setPoRepDifficulty 0)

/-- The provider's PoRep for deal 0, with the nonce 0 and the unsealed CID 1. -/
def porep (sealedCID : Bytes32) (timestamp : Nat) : Action :=
  account 1 timestamp (.submitPoRep 0 sealedCID 1
    (packWord (keccak256 (packWord sealedCID ++ packAddress 2 ++ packUint 31337)) ++ packUint 0 ++
      packWord (keccak256 (packUint 0 ++ packWord sealedCID ++ packWord 1 ++ packWord 0))))

/-- A challenge to the provider about deal 0. -/
def challenge (leafIndices : List Nat) (timestamp : Nat) : Action :=
  account 0 timestamp
    (.createPoStChallenge 0 2 leafIndices (keccak256 (packWord providerSeed)))

end SmallVerifier

end Kyneto
