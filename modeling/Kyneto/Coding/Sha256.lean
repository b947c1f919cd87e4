import Kyneto.Evm.Keccak

/-!
# SHA-256

The hash computed from bytes: padding, the message schedule, and 64 rounds on each block of 64 bytes. Nothing is proved
about it; it is here for hashes of concrete bytes.

The eight registers stand in one number, the first in its lowest 32 bits, and so do the sixteen words of the schedule
that are still needed, the next one lowest.
-/

namespace Kyneto.Coding

open Evm

namespace Sha256

def wordSize : Nat := 2 ^ 32

/-- Word `i` of a number. -/
def word (s i : Nat) : Nat := (s.shiftRight (Nat.mul 32 i)).mod wordSize

def rotateRight (x n : Nat) : Nat := ((x.shiftRight n).lor (x.shiftLeft (Nat.sub 32 n))).mod wordSize

def sigma0 (x : Nat) : Nat := (rotateRight x 7).xor ((rotateRight x 18).xor (x.shiftRight 3))
def sigma1 (x : Nat) : Nat := (rotateRight x 17).xor ((rotateRight x 19).xor (x.shiftRight 10))
def bigSigma0 (x : Nat) : Nat := (rotateRight x 2).xor ((rotateRight x 13).xor (rotateRight x 22))
def bigSigma1 (x : Nat) : Nat := (rotateRight x 6).xor ((rotateRight x 11).xor (rotateRight x 25))

/-- Where `x` has ones the bits of `y`, elsewhere those of `z`. -/
def choose (x y z : Nat) : Nat := (x.land y).xor ((x.xor (Nat.sub wordSize 1)).land z)

def majority (x y z : Nat) : Nat := (x.land y).xor ((x.land z).xor (y.land z))

/-- The first 32 bits of the fractional parts of the cube roots of the first 64 primes. -/
def roundConstants : List Nat :=
  [0x428a2f98, 0x71374491, 0xb5c0fbcf, 0xe9b5dba5, 0x3956c25b, 0x59f111f1, 0x923f82a4, 0xab1c5ed5,
    0xd807aa98, 0x12835b01, 0x243185be, 0x550c7dc3, 0x72be5d74, 0x80deb1fe, 0x9bdc06a7, 0xc19bf174,
    0xe49b69c1, 0xefbe4786, 0x0fc19dc6, 0x240ca1cc, 0x2de92c6f, 0x4a7484aa, 0x5cb0a9dc, 0x76f988da,
    0x983e5152, 0xa831c66d, 0xb00327c8, 0xbf597fc7, 0xc6e00bf3, 0xd5a79147, 0x06ca6351, 0x14292967,
    0x27b70a85, 0x2e1b2138, 0x4d2c6dfc, 0x53380d13, 0x650a7354, 0x766a0abb, 0x81c2c92e, 0x92722c85,
    0xa2bfe8a1, 0xa81a664b, 0xc24b8b70, 0xc76c51a3, 0xd192e819, 0xd6990624, 0xf40e3585, 0x106aa070,
    0x19a4c116, 0x1e376c08, 0x2748774c, 0x34b0bcb5, 0x391c0cb3, 0x4ed8aa4a, 0x5b9cca4f, 0x682e6ff3,
    0x748f82ee, 0x78a5636f, 0x84c87814, 0x8cc70208, 0x90befffa, 0xa4506ceb, 0xbef9a3f7, 0xc67178f2]

/-- The first 32 bits of the fractional parts of the square roots of the first eight primes. -/
def initialWords : List Nat :=
  [0x6a09e667, 0xbb67ae85, 0x3c6ef372, 0xa54ff53a, 0x510e527f, 0x9b05688c, 0x1f83d9ab, 0x5be0cd19]

/-- Words in one number, the first lowest. -/
def pack : List Nat → Nat
  | [] => 0
  | w :: rest => Nat.add w ((pack rest).shiftLeft 32)

/-- The schedule moves on by one word. -/
def nextWords (w : Nat) : Nat :=
  let new := (Nat.add (sigma1 (word w 14)) (Nat.add (word w 9) (Nat.add (sigma0 (word w 1)) (word w 0)))).mod wordSize
  Nat.add (w.shiftRight 32) (new.shiftLeft 480)

/-- One round: all registers move up, with the first and the fifth new. -/
def round (s w k : Nat) : Nat :=
  let t1 := Nat.add (word s 7) (Nat.add (bigSigma1 (word s 4))
    (Nat.add (choose (word s 4) (word s 5) (word s 6)) (Nat.add k (word w 0))))
  let t2 := Nat.add (bigSigma0 (word s 0)) (majority (word s 0) (word s 1) (word s 2))
  pack [(Nat.add t1 t2).mod wordSize, word s 0, word s 1, word s 2, (Nat.add (word s 3) t1).mod wordSize, word s 4,
    word s 5, word s 6]

def rounds (s w : Nat) : List Nat → Nat
  | [] => s
  | k :: rest => rounds (round s w k) (nextWords w) rest

/-- Sum of the words of two states. -/
def addWords (s t : Nat) : Nat :=
  pack ((List.range 8).map fun i => (Nat.add (word s i) (word t i)).mod wordSize)

/-- The words of a block. -/
def words : Nat → Bytes → List Nat
  | 0, _ => []
  | n + 1, bs => bigEndian (bs.take 4) :: words n (bs.drop 4)

def compress (s : Nat) (block : Bytes) : Nat := addWords s (rounds s (pack (words 16 block)) roundConstants)

/-- A one bit, zeros, and the number of bits in eight bytes, up to whole blocks. -/
def padding (n : Nat) : Bytes := 0x80 :: List.replicate ((119 - n % 64) % 64) 0 ++ bytesOf 8 (8 * n)

def absorb : Nat → Nat → Bytes → Nat
  | 0, s, _ => s
  | n + 1, s, msg => absorb n (compress s (msg.take 64)) (msg.drop 64)

end Sha256

/-- The words of the last state, the first one first. -/
@[irreducible] def sha256 (msg : Bytes) : BitVec 256 :=
  let padded := msg ++ Sha256.padding msg.length
  let s := Sha256.absorb (padded.length / 64) (Sha256.pack Sha256.initialWords) padded
  BitVec.ofNat 256 (((List.range 8).map (Sha256.word s)).foldl (fun acc w => acc * 2 ^ 32 + w) 0)

example : sha256 [] = 0xe3b0c44298fc1c149afbf4c8996fb92427ae41e4649b934ca495991b7852b855 := by decide +kernel

/-- Two blocks, for 56 bytes. -/
example : sha256 (List.replicate 56 0x61) = 0xb35439a4ac6f0948b6d6f9e3c6af0f5f590ce20f1bde7090ef7970686ec6738a := by
  decide +kernel

end Kyneto.Coding
