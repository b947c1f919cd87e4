import Kyneto.Evm.Basic

/-!
# Bytes and `keccak256`

Byte strings, Solidity's packed encoding of words and addresses, and the hash `keccak256` computed from
them: the Keccak sponge with 1088 bits of rate, 512 bits of capacity and the original padding.

Nothing is proved about the hash. Where a result needs it not to collide, it says so about the messages
that are hashed (`CollisionFree`): on all messages no hash into 256 bits is injective.

The permutation works on the whole state as one number, the lane `(x, y)` in the 64 bits from
`64 * (x + 5 * y)` on, so that θ and χ treat all lanes at once. It is written with the functions on
natural numbers that the kernel computes natively, to keep concrete hashes checkable.
-/

namespace Kyneto.Evm

abbrev Bytes := List (BitVec 8)

/-! ## Packed encoding -/

/-- The last `n` bytes of a number, most significant first. -/
def bytesOf (n v : Nat) : Bytes :=
  match n with
  | 0 => []
  | k + 1 => bytesOf k (v / 256) ++ [BitVec.ofNat 8 v]

/-- `abi.encodePacked` of a `bytes32`. -/
def packWord (w : Bytes32) : Bytes := bytesOf 32 w.toNat

/-- `abi.encodePacked` of a `uint256`. -/
def packUint (v : Nat) : Bytes := bytesOf 32 v

/-- `abi.encodePacked` of an `address`. -/
def packAddress (a : Address) : Bytes := bytesOf 20 a.toNat

/-- The number some bytes spell, least significant byte first. -/
def littleEndian : Bytes → Nat
  | [] => 0
  | b :: rest => b.toNat + 256 * littleEndian rest

/-- The number some bytes spell, most significant byte first. -/
def bigEndian (bs : Bytes) : Nat := littleEndian bs.reverse

/-! ## Keccak-f[1600] -/

namespace Keccak

/-- The same value in the five lanes of a plane. -/
def lanes (v : Nat) : Nat := v * (1 + 2 ^ 64 + 2 ^ 128 + 2 ^ 192 + 2 ^ 256)

/-- The same plane five times. -/
def planes (v : Nat) : Nat := v * (1 + 2 ^ 320 + 2 ^ 640 + 2 ^ 960 + 2 ^ 1280)

def laneSize : Nat := 2 ^ 64
def planeSize : Nat := 2 ^ 320
def allOnes : Nat := 2 ^ 1600 - 1

-- masks: all bits of a lane but the lowest, the lowest, and the first or last lanes of each plane
def upperBits : Nat := lanes (2 ^ 64 - 2)
def lowestBit : Nat := lanes 1
def firstFour : Nat := planes (2 ^ 256 - 1)
def lastOne : Nat := planes (2 ^ 320 - 2 ^ 256)
def firstThree : Nat := planes (2 ^ 192 - 1)
def lastTwo : Nat := planes (2 ^ 320 - 2 ^ 192)

/-- The parities of the five columns, as a plane. -/
def columnParity (s : Nat) : Nat :=
  (s.xor ((s.shiftRight 320).xor ((s.shiftRight 640).xor
    ((s.shiftRight 960).xor (s.shiftRight 1280))))).mod planeSize

/-- The parity of the column to the left, and of the one to the right rotated by one. -/
def spread (c : Nat) : Nat :=
  let left := ((c.shiftLeft 64).lor (c.shiftRight 256)).mod planeSize
  let right := ((c.shiftRight 64).lor (c.shiftLeft 256)).mod planeSize
  left.xor (((right.shiftLeft 1).land upperBits).lor ((right.shiftRight 63).land lowestBit))

def theta (s : Nat) : Nat := s.xor (planes (spread (columnParity s)))

/-- For each lane: where it is, where it goes, and by how much it is rotated. -/
def rotations : List (Nat × Nat × Nat) :=
  [(0, 0, 0), (1, 10, 1), (2, 20, 62), (3, 5, 28), (4, 15, 27),
    (5, 16, 36), (6, 1, 44), (7, 11, 6), (8, 21, 55), (9, 6, 20),
    (10, 7, 3), (11, 17, 10), (12, 2, 43), (13, 12, 25), (14, 22, 39),
    (15, 23, 41), (16, 8, 45), (17, 18, 15), (18, 3, 21), (19, 13, 8),
    (20, 14, 18), (21, 24, 2), (22, 9, 61), (23, 19, 56), (24, 4, 14)]

def rotateLane (v n : Nat) : Nat :=
  ((v.shiftLeft n).lor (v.shiftRight (Nat.sub 64 n))).mod laneSize

/-- ρ and π together. -/
def rhoPi (s : Nat) : List (Nat × Nat × Nat) → Nat
  | [] => 0
  | (i, j, r) :: rest =>
    ((rotateLane ((s.shiftRight (Nat.mul 64 i)).mod laneSize) r).shiftLeft (Nat.mul 64 j)).lor
      (rhoPi s rest)

def chi (s : Nat) : Nat :=
  let next := ((s.shiftRight 64).land firstFour).lor ((s.shiftLeft 256).land lastOne)
  let afterNext := ((s.shiftRight 128).land firstThree).lor ((s.shiftLeft 192).land lastTwo)
  s.xor ((next.xor allOnes).land afterNext)

def round (s roundConstant : Nat) : Nat := (chi (rhoPi (theta s) rotations)).xor roundConstant

def roundConstants : List Nat :=
  [0x0000000000000001, 0x0000000000008082, 0x800000000000808a, 0x8000000080008000,
    0x000000000000808b, 0x0000000080000001, 0x8000000080008081, 0x8000000000008009,
    0x000000000000008a, 0x0000000000000088, 0x0000000080008009, 0x000000008000000a,
    0x000000008000808b, 0x800000000000008b, 0x8000000000008089, 0x8000000000008003,
    0x8000000000008002, 0x8000000000000080, 0x000000000000800a, 0x800000008000000a,
    0x8000000080008081, 0x8000000000008080, 0x0000000080000001, 0x8000000080008008]

def keccakF (s : Nat) : Nat := roundConstants.foldl round s

/-! ## The sponge -/

/-- Bytes absorbed at a time. -/
def rate : Nat := 136

/-- The last block: what is left of the message, a one bit after it, and a one bit at the end. -/
def lastBlock (msg : Bytes) : Nat :=
  littleEndian msg ^^^ (1 <<< (8 * msg.length)) ^^^ (0x80 <<< (8 * (rate - 1)))

/-- Absorb `n` whole blocks and the last one. -/
def absorb : Nat → Nat → Bytes → Nat
  | 0, s, msg => keccakF (s ^^^ lastBlock msg)
  | n + 1, s, msg => absorb n (keccakF (s ^^^ littleEndian (msg.take rate))) (msg.drop rate)

/-- The first `n` bytes of a state as a big-endian number. -/
def squeeze (s : Nat) : Nat → Nat
  | 0 => 0
  | n + 1 => (s % 256) <<< (8 * n) ||| squeeze (s / 256) n

end Keccak

@[irreducible] def keccak256 (msg : Bytes) : Bytes32 :=
  BitVec.ofNat 256 (Keccak.squeeze (Keccak.absorb (msg.length / Keccak.rate) 0 msg) 32)

example : keccak256 [] =
    0xc5d2460186f7233c927e7db2dcc703c0e500b653ca82273b7bfad8045d85a470 := by decide +kernel

/-! ## Collisions and encodings -/

/-- The hash does not collide on the given messages. -/
def CollisionFree (msgs : List Bytes) : Prop :=
  ∀ m ∈ msgs, ∀ m' ∈ msgs, keccak256 m = keccak256 m' → m = m'

theorem CollisionFree.mono {msgs msgs' : List Bytes} (h : CollisionFree msgs)
    (hsub : ∀ m ∈ msgs', m ∈ msgs) : CollisionFree msgs' :=
  fun m hm m' hm' => h m (hsub m hm) m' (hsub m' hm')

@[simp] theorem length_bytesOf (n v : Nat) : (bytesOf n v).length = n := by
  induction n generalizing v with
  | zero => rfl
  | succ k ih => simp [bytesOf, ih]

/-- Numbers that fit into the bytes are written in different ways. -/
theorem bytesOf_inj {n v w : Nat} (hv : v < 256 ^ n) (hw : w < 256 ^ n)
    (h : bytesOf n v = bytesOf n w) : v = w := by
  induction n generalizing v w with
  | zero =>
    rw [pow_zero] at hv hw
    omega
  | succ k ih =>
    rw [bytesOf, bytesOf] at h
    obtain ⟨hhigh, hlow⟩ := List.append_inj h (by simp)
    have hdiv : v / 256 = w / 256 := by
      apply ih _ _ hhigh
      · exact Nat.div_lt_of_lt_mul (by rwa [pow_succ'] at hv)
      · exact Nat.div_lt_of_lt_mul (by rwa [pow_succ'] at hw)
    have hmod : v % 256 = w % 256 := by
      simpa using congrArg BitVec.toNat (List.singleton_inj.mp hlow)
    omega

@[simp] theorem length_packWord (w : Bytes32) : (packWord w).length = 32 := length_bytesOf _ _

@[simp] theorem length_packUint (v : Nat) : (packUint v).length = 32 := length_bytesOf _ _

theorem packWord_inj {v w : Bytes32} (h : packWord v = packWord w) : v = w := by
  apply BitVec.eq_of_toNat_eq
  have hsize : (2 : Nat) ^ 256 = 256 ^ 32 := by norm_num
  exact bytesOf_inj (hsize ▸ v.isLt) (hsize ▸ w.isLt) h

end Kyneto.Evm
