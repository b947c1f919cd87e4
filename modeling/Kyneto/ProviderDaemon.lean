import Kyneto.ProofVerifier.Effect

/-!
# The provider daemon: answers to challenges

The daemon cuts a shard into sectors of 1024 bytes, keeps a Merkle tree over the hashes of the sectors, and
answers a challenge with the challenged sectors and their proofs.

The contract checks other leaves: 32 bytes of data hashed together with the entropy of the challenge and the
slot. A root of the daemon's tree has none of these below it, so no answer of the daemon is ever accepted
(`handlePoStChallenge_never_accepted`), and would not be with any other data in the place of the sectors.

The tree itself is merkletreejs, which is not part of the repository: it is a parameter, and what is used of
it is that its proofs verify for the leaves of the tree (`OwnProofs`). The daemon fetches the shard and the
indices; here they are arguments.
-/

namespace Kyneto

open Evm

namespace ProviderDaemon

def SECTOR_SIZE : Nat := 1024

/-- `Buffer.alloc(SECTOR_SIZE, 0)`. -/
def zeroSector : Bytes := List.replicate SECTOR_SIZE 0

/-- A tree of merkletreejs with `sortPairs`. -/
structure MerkleTree where
  getHexRoot : Bytes32
  getHexProof : Bytes32 → List Bytes32

/-- What the daemon keeps of a shard. -/
structure ShardTree where
  tree : MerkleTree
  sectors : List Bytes

/-! ## `buildMerkleTree` -/

/-- The shard cut into sectors; the sector `i` starts at the byte `i * SECTOR_SIZE`. -/
def splitSectors (data : Bytes) : List Bytes :=
  (List.range ((data.length + (SECTOR_SIZE - 1)) / SECTOR_SIZE)).map fun i =>
    (data.drop (i * SECTOR_SIZE)).take SECTOR_SIZE

/-- The last sector filled up with zeros, if it is short. -/
def padLast (sectors : List Bytes) : List Bytes :=
  match sectors.getLast? with
  | none => sectors
  | some lastSector =>
    if lastSector.length < SECTOR_SIZE then
      sectors.dropLast ++ [lastSector ++ List.replicate (SECTOR_SIZE - lastSector.length) 0]
    else sectors

/-- Dummy sectors are added up to ten. -/
def addDummies (sectors : List Bytes) : List Bytes :=
  sectors ++ List.replicate (10 - sectors.length) zeroSector

def buildSectors (data : Bytes) : List Bytes := addDummies (padLast (splitSectors data))

def buildMerkleTree (newMerkleTree : List Bytes32 → MerkleTree) (data : Bytes) : ShardTree :=
  let sectors := buildSectors data
  { tree := newMerkleTree (sectors.map keccak256), sectors }

/-! ## `handlePoStChallenge` -/

/-- JavaScript has two kinds of integers. -/
inductive JsInteger where
  | number (n : Nat)
  | bigint (n : Nat)
  deriving DecidableEq, Repr

/-- The operator `%` takes two of the same kind. -/
def JsInteger.mod : JsInteger → JsInteger → Except String JsInteger
  | .number a, .number b => .ok (.number (a % b))
  | .bigint a, .bigint b => .ok (.bigint (a % b))
  | _, _ => .error "Cannot mix BigInt and other types, use explicit conversions"

def JsInteger.toNat : JsInteger → Nat
  | .number n => n
  | .bigint n => n

/-- `sectors[index % sectors.length]`, which has to be there to be made into a hex string. -/
def challengedSector (sectors : List Bytes) (index : JsInteger) : Except String Bytes := do
  let i ← index.mod (.number sectors.length)
  match sectors[i.toNat]? with
  | some sector => return sector
  | none => .error "invalid BytesLike value"

/-- The loop over the indices. -/
def answerEach (shard : ShardTree) : List JsInteger → Except String (List Bytes × List (List Bytes32))
  | [] => .ok ([], [])
  | index :: rest => do
    let sector ← challengedSector shard.sectors index
    let proof := shard.tree.getHexProof (keccak256 sector)
    let (leafData, proofs) ← answerEach shard rest
    return (sector :: leafData, proof :: proofs)

/-- The `leafData` and `proofs` of the daemon's answer. -/
def handlePoStChallenge (newMerkleTree : List Bytes32 → MerkleTree) (data : Bytes)
    (indices : List JsInteger) : Except String (List Bytes × List (List Bytes32)) :=
  answerEach (buildMerkleTree newMerkleTree data) indices

/-- The contract accepts the daemon's answer: what it computes for `leafData` are words, and together with
the proofs and the seed they pass. -/
def AnswerAccepted (newMerkleTree : List Bytes32 → MerkleTree) (data : Bytes)
    (indices : List JsInteger) (v : ProofVerifier) (msg : BlockMsg) (challengeId : Nat)
    (providerSeed : Bytes32) : Prop :=
  ∃ leafData proofs words, handlePoStChallenge newMerkleTree data indices = .ok (leafData, proofs) ∧
    words.map packWord = leafData ∧
    ∃ r, v.submitPoSt msg challengeId words proofs providerSeed = .ok r

/-- The proofs of a tree verify for its own leaves. -/
def OwnProofs (newMerkleTree : List Bytes32 → MerkleTree) : Prop :=
  ∀ leaves, ∀ leaf ∈ leaves,
    MerkleProof.verify ((newMerkleTree leaves).getHexProof leaf) (newMerkleTree leaves).getHexRoot leaf =
      true

/-! ## Sectors -/

/-- Every sector is whole. -/
theorem length_of_mem_padLast {data sector : Bytes} (h : sector ∈ padLast (splitSectors data)) :
    sector.length = SECTOR_SIZE := by
  unfold padLast splitSectors at h
  cases hcount : (data.length + (SECTOR_SIZE - 1)) / SECTOR_SIZE with
  | zero =>
    rw [hcount] at h
    simp at h
  | succ k =>
    -- all sectors before the last one end before the data does
    have hbefore : ∀ s ∈ (List.range k).map fun i => (data.drop (i * SECTOR_SIZE)).take SECTOR_SIZE,
        s.length = SECTOR_SIZE := by
      intro s hs
      obtain ⟨i, hi, rfl⟩ := List.mem_map.mp hs
      rw [List.mem_range] at hi
      rw [List.length_take, List.length_drop]
      unfold SECTOR_SIZE at hcount ⊢
      omega
    rw [hcount, List.range_succ, List.map_append, List.map_singleton, List.getLast?_concat,
      List.dropLast_concat] at h
    simp only at h
    split at h
    · next hshort =>
      rcases List.mem_append.mp h with hmem | hmem
      · exact hbefore sector hmem
      · rw [List.mem_singleton] at hmem
        subst hmem
        rw [List.length_append, List.length_replicate]
        omega
    · next hfull =>
      rcases List.mem_append.mp h with hmem | hmem
      · exact hbefore sector hmem
      · rw [List.mem_singleton] at hmem
        subst hmem
        have hle := List.length_take_le SECTOR_SIZE (data.drop (k * SECTOR_SIZE))
        omega

theorem length_of_mem_buildSectors {data sector : Bytes} (h : sector ∈ buildSectors data) :
    sector.length = SECTOR_SIZE := by
  rcases List.mem_append.mp h with hmem | hmem
  · exact length_of_mem_padLast hmem
  · rw [List.eq_of_mem_replicate hmem, zeroSector, List.length_replicate]

theorem ten_le_length_buildSectors (data : Bytes) : 10 ≤ (buildSectors data).length := by
  rw [buildSectors, addDummies, List.length_append, List.length_replicate]
  omega

/-! ## Answers -/

section Answers

variable {newMerkleTree : List Bytes32 → MerkleTree} {shard : ShardTree} {data : Bytes}
  {indices : List JsInteger} {leafData : List Bytes} {proofs : List (List Bytes32)}

/-- The sector that is taken for a challenge is one of the file. -/
theorem challengedSector_ok {sectors : List Bytes} {index : JsInteger} {sector : Bytes}
    (h : challengedSector sectors index = .ok sector) : sector ∈ sectors := by
  simp only [challengedSector, bind_eq_ok] at h
  obtain ⟨i, -, h⟩ := h
  split at h
  · next found hfound =>
    rw [pure_eq_ok] at h
    subst h
    exact List.mem_of_getElem? hfound
  · cases h

/-- An answer consists of sectors of the shard, with the proofs the tree has for their hashes. -/
theorem answerEach_ok (h : answerEach shard indices = .ok (leafData, proofs)) :
    (∀ sector ∈ leafData, sector ∈ shard.sectors) ∧
      proofs = leafData.map fun sector => shard.tree.getHexProof (keccak256 sector) := by
  induction indices generalizing leafData proofs with
  | nil =>
    cases h
    simp
  | cons index rest ih =>
    simp only [answerEach, bind_eq_ok, pure_eq_ok, Prod.exists, Prod.mk.injEq] at h
    obtain ⟨sector, hsector, restData, restProofs, hrest, rfl, rfl⟩ := h
    obtain ⟨hmem, hproofs⟩ := ih hrest
    constructor
    · intro s hs
      rcases List.mem_cons.mp hs with rfl | hs
      · exact challengedSector_ok hsector
      · exact hmem s hs
    · rw [hproofs, List.map_cons]

/-- ethers returns the challenged indices as bigints, and the daemon fails at the first one. -/
theorem handlePoStChallenge_bigint (n : Nat) (rest : List JsInteger) :
    handlePoStChallenge newMerkleTree data (.bigint n :: rest) =
      .error "Cannot mix BigInt and other types, use explicit conversions" :=
  rfl

theorem challengedSector_number {sectors : List Bytes} (h : 0 < sectors.length) (n : Nat) :
    challengedSector sectors (.number n) = .ok (sectors.get ⟨n % sectors.length, Nat.mod_lt n h⟩) := by
  simp only [challengedSector, bind_eq_ok, JsInteger.mod, Except.ok.injEq, exists_eq_left', JsInteger.toNat]
  rw [List.getElem?_eq_getElem (Nat.mod_lt n h)]
  rfl

/-- With numbers it always has an answer. -/
theorem handlePoStChallenge_number (indices : List Nat) :
    ∃ leafData proofs, handlePoStChallenge newMerkleTree data (indices.map .number) =
      .ok (leafData, proofs) := by
  induction indices with
  | nil => exact ⟨[], [], rfl⟩
  | cons n rest ih =>
    obtain ⟨restData, restProofs, hrest⟩ := ih
    have hten := ten_le_length_buildSectors data
    have hsector := @challengedSector_number (buildSectors data) (by omega) n
    simp only [handlePoStChallenge, List.map_cons, answerEach, bind_eq_ok, Prod.exists]
    exact ⟨_, _, _, hsector, restData, restProofs, hrest, rfl⟩

/-- What the daemon computes for `leafData` are no words. -/
theorem not_answerAccepted {v : ProofVerifier} {msg : BlockMsg} {challengeId : Nat}
    {providerSeed : Bytes32} :
    ¬ AnswerAccepted newMerkleTree data indices v msg challengeId providerSeed := by
  rintro ⟨leafData, proofs, words, hhandle, hwords, haccepted⟩
  have haccepts := ProofVerifier.submitPoSt_succeeds_iff.mp haccepted
  match words with
  | [] => cases haccepts.count
  | word :: rest =>
    have hmem : packWord word ∈ leafData := by
      rw [← hwords]
      exact List.mem_cons_self
    have hsector := length_of_mem_buildSectors ((answerEach_ok hhandle).1 _ hmem)
    rw [length_packWord] at hsector
    cases hsector

end Answers

/-! ## Two kinds of leaves -/

/-- The messages hashed for one slot: what the two sides hash for the leaf, and the nodes above on the way
the proof takes from there. -/
def slotMessages (sector message : Bytes) (proof : List Bytes32) : List Bytes :=
  sector :: message ::
    (MerkleProof.pathMessages proof (keccak256 sector) ++
      MerkleProof.pathMessages proof (keccak256 message))

/-- A proof for the hash of a sector is none for the hash of a shorter message. -/
theorem not_verify_of_sector {sector message : Bytes} {proof : List Bytes32} {root : Bytes32}
    (hlength : sector.length ≠ message.length) (hfree : CollisionFree (slotMessages sector message proof))
    (hverify : MerkleProof.verify proof root (keccak256 sector) = true) :
    ¬ MerkleProof.verify proof root (keccak256 message) = true := by
  intro hmessage
  rw [MerkleProof.verify, decide_eq_true_iff] at hverify hmessage
  have hleaf : keccak256 sector = keccak256 message := by
    apply MerkleProof.processProof_inj (hfree.mono _) (hverify.trans hmessage.symm)
    intro m hm
    exact List.mem_cons_of_mem _ (List.mem_cons_of_mem _ hm)
  apply hlength
  rw [hfree sector List.mem_cons_self message (List.mem_cons_of_mem _ List.mem_cons_self) hleaf]

theorem length_leafMessage (leafData entropy : Bytes32) (i : Nat) :
    (leafMessage leafData entropy i).length = 96 := by
  simp [leafMessage]

section Never

variable {newMerkleTree : List Bytes32 → MerkleTree} {data : Bytes} {v : ProofVerifier} {msg : BlockMsg}
  {challengeId : Nat} {providerSeed : Bytes32}

/-- With any word in the place of a sector, the proof for the sector is refused. -/
theorem not_accepts_of_sector (hown : OwnProofs newMerkleTree)
    (hroot : (v.porepProofs (v.postChallenges challengeId).dealId msg.sender).sealedCID =
      (buildMerkleTree newMerkleTree data).tree.getHexRoot)
    {sector : Bytes} (hsector : sector ∈ buildSectors data) {proofs : List (List Bytes32)}
    {words : List Bytes32} {word : Bytes32} {i : Nat} (hword : words[i]? = some word)
    (hproof : proofs[i]? =
      some ((buildMerkleTree newMerkleTree data).tree.getHexProof (keccak256 sector)))
    (hfree : CollisionFree (slotMessages sector
      (leafMessage word (challengeEntropy providerSeed challengeId
        (v.postChallenges challengeId).dealId msg.sender) i)
      ((buildMerkleTree newMerkleTree data).tree.getHexProof (keccak256 sector)))) :
    ¬ v.Accepts msg challengeId words proofs providerSeed := by
  intro haccepts
  have hleaves := ProofVerifier.verifyLeaves_ok_iff.mp haccepts.leaves
  obtain ⟨proof, hproof', hverify⟩ := hleaves i word hword
  obtain rfl : _ = proof := Option.some.inj (hproof.symm.trans hproof')
  rw [hroot, Nat.zero_add] at hverify
  have hleaf := hown ((buildSectors data).map keccak256) (keccak256 sector)
    (List.mem_map_of_mem hsector)
  apply not_verify_of_sector _ hfree hleaf hverify
  rw [length_of_mem_buildSectors hsector, length_leafMessage]
  decide

/-- **No answer of the daemon is accepted**, whatever the shard, the indices and the challenge. It is not
the format of the data alone: in no slot does the daemon's proof go with any data, unless the hash
collides. -/
theorem handlePoStChallenge_never_accepted (hown : OwnProofs newMerkleTree) (indices : List JsInteger)
    (hroot : (v.porepProofs (v.postChallenges challengeId).dealId msg.sender).sealedCID =
      (buildMerkleTree newMerkleTree data).tree.getHexRoot) :
    ¬ AnswerAccepted newMerkleTree data indices v msg challengeId providerSeed ∧
      ∀ leafData proofs, handlePoStChallenge newMerkleTree data indices = .ok (leafData, proofs) →
        ∀ i sector proof words word, leafData[i]? = some sector → proofs[i]? = some proof →
          words[i]? = some word →
          CollisionFree (slotMessages sector (leafMessage word (challengeEntropy providerSeed
            challengeId (v.postChallenges challengeId).dealId msg.sender) i) proof) →
          ¬ ∃ r, v.submitPoSt msg challengeId words proofs providerSeed = .ok r := by
  refine ⟨not_answerAccepted, ?_⟩
  intro leafData proofs hhandle i sector proof words word hsector hproof hword hfree
  obtain ⟨hsectors, hproofs⟩ := answerEach_ok hhandle
  have hproof' := hproof
  rw [hproofs, List.getElem?_map, hsector, Option.map_some, Option.some.injEq] at hproof'
  subst hproof'
  rw [ProofVerifier.submitPoSt_succeeds_iff]
  exact not_accepts_of_sector hown hroot (hsectors sector (List.mem_of_getElem? hsector)) hword hproof
    hfree

end Never

end ProviderDaemon

/-! ### In the small deployment -/

namespace SmallVerifier

open ProofVerifier ProviderDaemon

/-- The last place a leaf has among the leaves. -/
def lastPlace (leaves : List Bytes32) (leaf : Bytes32) : Nat :=
  leaves.length - 1 - leaves.reverse.idxOf leaf

/-- Trees built level by level. -/
def levelTree (leaves : List Bytes32) : MerkleTree where
  getHexRoot := MerkleProof.rootOf leaves.length leaves
  getHexProof leaf := MerkleProof.pathFrom leaves.length leaves (lastPlace leaves leaf)

theorem getElem?_lastPlace {leaves : List Bytes32} {leaf : Bytes32} (h : leaf ∈ leaves) :
    leaves[lastPlace leaves leaf]? = some leaf := by
  have hlt : leaves.reverse.idxOf leaf < leaves.reverse.length :=
    List.idxOf_lt_length_of_mem (List.mem_reverse.mpr h)
  have hget : leaves.reverse[leaves.reverse.idxOf leaf]? = some leaf := by
    rw [List.getElem?_eq_getElem hlt, List.getElem_idxOf]
  rw [List.length_reverse] at hlt
  rwa [List.getElem?_reverse hlt] at hget

theorem ownProofs_levelTree : OwnProofs levelTree := by
  intro leaves leaf hleaf
  exact MerkleProof.verify_pathFrom (getElem?_lastPlace hleaf) Nat.lt_two_pow_self.le

def tenIndices : List JsInteger := (List.range CHALLENGE_SECTORS).map .number

/-- The root of the tree for an empty shard: ten sectors of zeros. -/
def emptyRoot : Bytes32 := 0x53d2e6541a5db3af8159afb54502c857d4880a8eabb1cb599aa26fa8c052ab00

def emptyProof : List Bytes32 :=
  (buildMerkleTree levelTree []).tree.getHexProof (keccak256 zeroSector)

theorem emptyShard_answer : handlePoStChallenge levelTree [] tenIndices =
    .ok (List.replicate 10 zeroSector, List.replicate 10 emptyProof) := rfl

theorem emptyShard_root : (buildMerkleTree levelTree []).tree.getHexRoot = emptyRoot := by
  decide +kernel

/-- The provider has proved the empty shard and is challenged. -/
def challenged : ProofVerifier :=
  run step (deploy ⟨1, 0⟩)
    [lowerDifficulty, porep emptyRoot 1000, challenge (List.range CHALLENGE_SECTORS) 2000]

def fromProvider : BlockMsg :=
  { sender := 2, timestamp := 3000, chainid := 31337, lastBlockhash := 0 }

theorem challenged_root : (challenged.porepProofs (challenged.postChallenges 0).dealId
    fromProvider.sender).sealedCID = (buildMerkleTree levelTree []).tree.getHexRoot := by
  rw [emptyShard_root]
  decide +kernel

end SmallVerifier

section Concrete

open ProviderDaemon SmallVerifier

theorem never_accepted_emptyShard :
    ¬ AnswerAccepted levelTree [] tenIndices challenged fromProvider 0 providerSeed ∧
      ¬ ∃ r, challenged.submitPoSt fromProvider 0 (List.replicate 10 0) (List.replicate 10 emptyProof)
        providerSeed = .ok r := by
  obtain ⟨hformat, hslot⟩ :=
    @handlePoStChallenge_never_accepted levelTree [] challenged fromProvider 0 providerSeed
      ownProofs_levelTree tenIndices challenged_root
  refine ⟨hformat, ?_⟩
  apply hslot _ _ emptyShard_answer 0 zeroSector emptyProof (List.replicate 10 0) 0 rfl rfl rfl
  unfold CollisionFree
  decide +kernel

/-- Everything is in place: a verified PoRep with the root of the daemon's tree, a challenge that waits for
the provider, the time and the seed. The daemon's answer is not accepted. -/
theorem emptyShard_not_accepted :
    ((challenged.porepProofs 0 2).verified = true ∧
        (challenged.porepProofs 0 2).sealedCID = (buildMerkleTree levelTree []).tree.getHexRoot ∧
        (challenged.postChallenges 0).provider = 2 ∧ (challenged.postChallenges 0).submitted = false ∧
        fromProvider.timestamp ≤ (challenged.postChallenges 0).deadline ∧
        keccak256 (packWord providerSeed) = (challenged.postChallenges 0).commitment ∧
        challenged.getChallengeIndices 0 = tenIndices.map JsInteger.toNat) ∧
      handlePoStChallenge levelTree [] tenIndices =
        .ok (List.replicate 10 zeroSector, List.replicate 10 emptyProof) ∧
      ¬ AnswerAccepted levelTree [] tenIndices challenged fromProvider 0 providerSeed := by
  rw [emptyShard_root]
  exact ⟨by decide +kernel, emptyShard_answer, not_answerAccepted⟩

end Concrete

end Kyneto
