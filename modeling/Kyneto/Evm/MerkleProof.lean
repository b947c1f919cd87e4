import Kyneto.Evm.Keccak

/-!
# Merkle proofs with sorted pairs

OpenZeppelin's `MerkleProof`: a proof is the list of siblings on the way from a leaf to the root, and the
two children of a node are hashed in ascending order. Such a proof therefore carries no position: it says
that the leaf is in the tree, not where.

A proof belongs to one leaf, as long as the hash does not collide on the way (`processProof_inj`). The
other way round, the siblings met on the way up a tree are a proof (`verify_pathFrom`).
-/

namespace Kyneto.Evm.MerkleProof

/-- The message hashed for the parent of two nodes. -/
def pairMessage (a b : Bytes32) : Bytes :=
  if a < b then packWord a ++ packWord b else packWord b ++ packWord a

def commutativeKeccak256 (a b : Bytes32) : Bytes32 := keccak256 (pairMessage a b)

/-- The root a proof leads to from a leaf. -/
def processProof (proof : List Bytes32) (leaf : Bytes32) : Bytes32 :=
  proof.foldl commutativeKeccak256 leaf

def verify (proof : List Bytes32) (root leaf : Bytes32) : Bool := processProof proof leaf = root

/-- The messages hashed on the way. -/
def pathMessages : List Bytes32 → Bytes32 → List Bytes
  | [], _ => []
  | sibling :: rest, node =>
    pairMessage node sibling :: pathMessages rest (commutativeKeccak256 node sibling)

/-- The left part of a pair can be read off its message. -/
theorem pairMessage_inj {a b c : Bytes32} (h : pairMessage a c = pairMessage b c) : a = b := by
  unfold pairMessage at h
  have hlen : ∀ u v : Bytes32, (packWord u).length = (packWord v).length := by
    intro u v
    rw [length_packWord, length_packWord]
  -- equal messages have equal halves; the sibling is one of them in each
  split at h <;> split at h
  · exact packWord_inj (List.append_inj h (hlen _ _)).1
  · next ha hb =>
    obtain ⟨hfst, -⟩ := List.append_inj h (hlen _ _)
    rw [packWord_inj hfst] at ha
    exact absurd ha (BitVec.lt_irrefl c)
  · next ha hb =>
    obtain ⟨hfst, -⟩ := List.append_inj h (hlen _ _)
    rw [← packWord_inj hfst] at hb
    exact absurd hb (BitVec.lt_irrefl c)
  · exact packWord_inj (List.append_inj h (hlen _ _)).2

/-- Two leaves with the same proof and the same root are the same leaf. -/
theorem processProof_inj {proof : List Bytes32} {a b : Bytes32}
    (hfree : CollisionFree (pathMessages proof a ++ pathMessages proof b))
    (h : processProof proof a = processProof proof b) : a = b := by
  induction proof generalizing a b with
  | nil => exact h
  | cons sibling rest ih =>
    have hrest : commutativeKeccak256 a sibling = commutativeKeccak256 b sibling := by
      apply ih _ h
      apply hfree.mono
      intro m hm
      rw [pathMessages, pathMessages]
      rcases List.mem_append.mp hm with hm | hm
      · exact List.mem_append_left _ (List.mem_cons_of_mem _ hm)
      · exact List.mem_append_right _ (List.mem_cons_of_mem _ hm)
    apply pairMessage_inj
    apply hfree _ _ _ _ hrest
    · exact List.mem_append_left _ List.mem_cons_self
    · exact List.mem_append_right _ List.mem_cons_self

/-! ## Trees

A tree is built level by level from its leaves. -/

/-- One level up: neighbours are hashed together, and a node without a neighbour stays as it is. -/
def parents : List Bytes32 → List Bytes32
  | a :: b :: rest => commutativeKeccak256 a b :: parents rest
  | rest => rest

/-- The root of a tree with the given nodes at its bottom. -/
def rootOf : Nat → List Bytes32 → Bytes32
  | 0, nodes => nodes.headD 0
  | height + 1, nodes => rootOf height (parents nodes)

def siblingIndex (i : Nat) : Nat := if i % 2 = 0 then i + 1 else i - 1

/-- The siblings on the way up from position `i`; a node without one adds nothing. -/
def pathFrom : Nat → List Bytes32 → Nat → List Bytes32
  | 0, _, _ => []
  | height + 1, nodes, i =>
    nodes[siblingIndex i]?.toList ++ pathFrom height (parents nodes) (i / 2)

theorem pairMessage_comm (a b : Bytes32) : pairMessage a b = pairMessage b a := by
  unfold pairMessage
  rcases BitVec.lt_trichotomy a b with h | rfl | h
  · rw [if_pos h, if_neg (BitVec.lt_asymm h)]
  · rfl
  · rw [if_neg (BitVec.lt_asymm h), if_pos h]

theorem commutativeKeccak256_comm (a b : Bytes32) :
    commutativeKeccak256 a b = commutativeKeccak256 b a := by
  rw [commutativeKeccak256, pairMessage_comm, commutativeKeccak256]

/-- There are half as many parents, and one more for a node without a partner. -/
theorem length_parents (nodes : List Bytes32) : (parents nodes).length = (nodes.length + 1) / 2 := by
  induction nodes using parents.induct with
  | case1 a b rest ih =>
    simp only [parents, List.length_cons, ih]
    omega
  | case2 rest hshort =>
    match rest with
    | [] => rfl
    | [_] => simp [parents]
    | a :: b :: rest => exact absurd rfl (hshort a b rest)

/-- A node and its sibling, if it has one, lead to the node above. -/
theorem parents_getElem? {nodes : List Bytes32} {i : Nat} {node : Bytes32}
    (h : nodes[i]? = some node) :
    (parents nodes)[i / 2]? = some (processProof nodes[siblingIndex i]?.toList node) := by
  induction nodes using parents.induct generalizing i with
  | case1 a b rest ih =>
    match i with
    | 0 =>
      obtain rfl : a = node := by simpa using h
      rfl
    | 1 =>
      obtain rfl : b = node := by simpa using h
      show some (commutativeKeccak256 a b) = some (commutativeKeccak256 b a)
      rw [commutativeKeccak256_comm]
    | j + 2 =>
      have hdiv : (j + 2) / 2 = j / 2 + 1 := by omega
      have hsib : siblingIndex (j + 2) = siblingIndex j + 2 := by
        unfold siblingIndex
        split <;> split <;> omega
      rw [hdiv, hsib]
      exact ih h
  | case2 rest hshort =>
    match rest with
    | [] => simp at h
    | [leaf] =>
      obtain ⟨rfl, rfl⟩ : i = 0 ∧ leaf = node := by
        rcases i with _ | i
        · simpa using h
        · simp at h
      rfl
    | a :: b :: rest => exact absurd rfl (hshort a b rest)

/-- **The siblings on the way up prove the leaf.** -/
theorem verify_pathFrom {height i : Nat} {nodes : List Bytes32} {node : Bytes32}
    (h : nodes[i]? = some node) (hheight : nodes.length ≤ 2 ^ height) :
    verify (pathFrom height nodes i) (rootOf height nodes) node = true := by
  rw [verify, decide_eq_true_iff]
  induction height generalizing nodes i node with
  | zero =>
    match nodes, i with
    | [leaf], 0 =>
      obtain rfl : leaf = node := by simpa using h
      rfl
    | [_], _ + 1 => simp at h
    | [], _ => simp at h
    | _ :: _ :: _, _ => simp at hheight
  | succ height ih =>
    have hle : (parents nodes).length ≤ 2 ^ height := by
      rw [length_parents]
      rw [pow_succ] at hheight
      omega
    calc processProof (pathFrom (height + 1) nodes i) node
        = processProof (pathFrom height (parents nodes) (i / 2))
            (processProof nodes[siblingIndex i]?.toList node) := by
          rw [pathFrom, processProof, List.foldl_append, processProof, processProof]
      _ = rootOf height (parents nodes) := ih (parents_getElem? h) hle

end Kyneto.Evm.MerkleProof
