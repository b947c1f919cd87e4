import Kyneto.ProofVerifier.Basic

/-!
# The difficulty of a PoRep

`_hasLeadingZeroBits` is meant to say that a word is below `2 ^ (256 - bits)`. It compares whole bytes with zero, and
the part of the next byte that `bits` reaches into with a mask. The mask keeps the other part of that byte: the low bits
instead of the high ones. So the answer is right for a number of bits that is a multiple of eight, and otherwise only
for the words of which the byte does not matter, or has both of its parts zero, or none of them
(`hasLeadingZeroBits_iff`).
-/

namespace Kyneto

open Evm

/-! ## Accesses that are checked -/

/-- `value[i]`: an index from 32 on is a panic. -/
def indexByte (value : Bytes32) (i : Nat) : Tx Nat := if i < 32 then .ok (byteAt value i) else .error (.panic 0x32)

/-- The loop over whole bytes, of which `n` are left, from the byte `i` on. -/
def checkedZeroBytes (value : Bytes32) (i : Nat) : Nat → Tx Bool
  | 0 => return true
  | n + 1 => do
    let byte ← indexByte value i
    if byte ≠ 0 then return false else checkedZeroBytes value (i + 1) n

/-- `_hasLeadingZeroBits`, with the checks that the compiler inserts. -/
def checkedLeadingZeroBits (value : Bytes32) (bits : Nat) : Tx Bool := do
  require (bits ≤ 256) "Invalid bit count"
  let fullBytes := bits / 8
  let zeros ← checkedZeroBytes value 0 fullBytes
  if zeros = false then return false
  let remainingBits := bits % 8
  if 0 < remainingBits then
    let mask := 0xff >>> remainingBits
    let byte ← indexByte value fullBytes
    return byte &&& mask = 0
  else return true

/-! ## What the function is for -/

/-- At this difficulty the answer is right, a word that passes also passes at every lower difficulty, and no byte is
read out of bounds. -/
structure DifficultySound (value : Bytes32) (bits : Nat) : Prop where
  exact : hasLeadingZeroBits value bits = .ok (decide (value.toNat < 2 ^ (256 - bits)))
  monotone : hasLeadingZeroBits value bits = .ok true → ∀ lower ≤ bits, hasLeadingZeroBits value lower = .ok true
  inBounds : checkedLeadingZeroBits value bits = hasLeadingZeroBits value bits

/-- Whole bytes only, or one of them is not zero already, or the next byte is zero, or both of its parts have a one: the
`bits % 8` high bits and the others. -/
def PartsAgree (value : Bytes32) (bits : Nat) : Prop :=
  bits % 8 = 0 ∨ (∃ i < bits / 8, byteAt value i ≠ 0) ∨ byteAt value (bits / 8) = 0 ∨
    2 ^ (8 - bits % 8) ≤ byteAt value (bits / 8) ∧ byteAt value (bits / 8) % 2 ^ (8 - bits % 8) ≠ 0

section Bytes

variable {value : Bytes32} {bits n i : Nat}

theorem zeroBytes_eq_true : zeroBytes value n = true ↔ ∀ i < n, byteAt value i = 0 := by
  simp [zeroBytes]

theorem zeroBytes_succ : zeroBytes value (n + 1) = true ↔ zeroBytes value n = true ∧ byteAt value n = 0 := by
  rw [zeroBytes_eq_true, zeroBytes_eq_true]
  exact Nat.forall_lt_succ_right

/-- Behind bytes that are zero, a byte is what is left of the word. -/
theorem byteAt_of_lt (hn : n < 32) (h : value.toNat < 256 ^ (32 - n)) :
    byteAt value n = value.toNat / 256 ^ (31 - n) := by
  apply Nat.mod_eq_of_lt
  apply Nat.div_lt_of_lt_mul
  have hpow : 256 ^ (31 - n) * 256 = 256 ^ (32 - n) := by
    rw [← Nat.pow_succ]
    congr 1
    omega
  rw [hpow]
  exact h

/-- Leading zero bytes make a small number. -/
theorem zeroBytes_iff (hn : n ≤ 32) : zeroBytes value n = true ↔ value.toNat < 256 ^ (32 - n) := by
  induction n with
  | zero =>
    have hlt : value.toNat < 256 ^ 32 := lt_of_lt_of_eq value.isLt (by decide)
    exact ⟨fun _ => hlt, fun _ => rfl⟩
  | succ n ih =>
    rw [zeroBytes_succ, ih (by omega)]
    have hexp : 32 - (n + 1) = 31 - n := by omega
    rw [hexp]
    constructor
    · rintro ⟨hlt, hbyte⟩
      rw [byteAt_of_lt hn hlt] at hbyte
      exact (Nat.div_eq_zero_iff_lt (by positivity)).mp hbyte
    · intro hlt
      have hle : value.toNat < 256 ^ (32 - n) :=
        lt_of_lt_of_le hlt (Nat.pow_le_pow_right (by decide) (by omega))
      rw [byteAt_of_lt hn hle]
      exact ⟨hle, Nat.div_eq_of_lt hlt⟩

theorem mask_eq : ∀ r < 8, 0xff >>> r = 2 ^ (8 - r) - 1 := by decide

/-- What the function answers. -/
theorem hasLeadingZeroBits_eq (h : bits ≤ 256) : hasLeadingZeroBits value bits =
    .ok (zeroBytes value (bits / 8) &&
      (bits % 8 = 0 || byteAt value (bits / 8) % 2 ^ (8 - bits % 8) = 0)) := by
  have hmask : byteAt value (bits / 8) &&& 0xff >>> (bits % 8) =
      byteAt value (bits / 8) % 2 ^ (8 - bits % 8) := by
    rw [mask_eq _ (Nat.mod_lt _ (by decide)), Nat.and_two_pow_sub_one_eq_mod]
  have hrequire : require (bits ≤ 256) "Invalid bit count" = .ok () := require_eq_ok.mpr h
  unfold hasLeadingZeroBits
  rw [hrequire]
  show (if zeroBytes value (bits / 8) = true then
    if 0 < bits % 8 then
      pure (decide (byteAt value (bits / 8) &&& 0xff >>> (bits % 8) = 0))
    else pure true else pure false) = _
  rw [hmask]
  cases zeroBytes value (bits / 8) with
  | false => rfl
  | true =>
    rcases Nat.eq_zero_or_pos (bits % 8) with hzero | hpos
    · rw [hzero]
      rfl
    · rw [if_pos rfl, if_pos hpos, decide_eq_false (Nat.ne_of_gt hpos)]
      rfl

theorem accepted_iff (h : bits ≤ 256) : hasLeadingZeroBits value bits = .ok true ↔
    zeroBytes value (bits / 8) = true ∧ (bits % 8 = 0 ∨ byteAt value (bits / 8) % 2 ^ (8 - bits % 8) = 0) := by
  rw [hasLeadingZeroBits_eq h]
  simp

/-- The bound, as it reads in the bytes. -/
theorem below_iff (h : bits ≤ 256) : value.toNat < 2 ^ (256 - bits) ↔
    zeroBytes value (bits / 8) = true ∧ (bits % 8 = 0 ∨ byteAt value (bits / 8) < 2 ^ (8 - bits % 8)) := by
  rw [zeroBytes_iff (by omega)]
  have hbytes : ∀ k, 256 ^ k = 2 ^ (8 * k) := fun k => by rw [Nat.pow_mul]
  rcases Nat.eq_zero_or_pos (bits % 8) with hzero | hpos
  · have hexp : 256 - bits = 8 * (32 - bits / 8) := by omega
    rw [hexp, hbytes]
    exact ⟨fun hlt => ⟨hlt, Or.inl hzero⟩, And.left⟩
  · have hlt32 : bits / 8 < 32 := by omega
    have hexp : 2 ^ (256 - bits) = 2 ^ (8 - bits % 8) * 256 ^ (31 - bits / 8) := by
      rw [hbytes, ← Nat.pow_add]
      congr 1
      omega
    have hle : 2 ^ (256 - bits) ≤ 256 ^ (32 - bits / 8) := by
      rw [hbytes]
      exact Nat.pow_le_pow_right (by decide) (by omega)
    constructor
    · intro hlt
      have hwhole := lt_of_lt_of_le hlt hle
      refine ⟨hwhole, Or.inr ?_⟩
      rw [byteAt_of_lt hlt32 hwhole]
      apply Nat.div_lt_of_lt_mul
      rw [Nat.mul_comm, ← hexp]
      exact hlt
    · rintro ⟨hwhole, hzero | hbyte⟩
      · omega
      · rw [byteAt_of_lt hlt32 hwhole, Nat.div_lt_iff_lt_mul (by positivity), ← hexp] at hbyte
        exact hbyte

/-- The function answers as the bound does exactly if the parts of the last byte agree. -/
theorem exact_iff (h : bits ≤ 256) :
    hasLeadingZeroBits value bits = .ok (decide (value.toNat < 2 ^ (256 - bits))) ↔ PartsAgree value bits := by
  have hsame : hasLeadingZeroBits value bits = .ok (decide (value.toNat < 2 ^ (256 - bits))) ↔
      (hasLeadingZeroBits value bits = .ok true ↔ value.toNat < 2 ^ (256 - bits)) := by
    rw [hasLeadingZeroBits_eq h, Except.ok.injEq, Except.ok.injEq]
    exact Bool.eq_iff_iff.trans (by rw [decide_eq_true_eq])
  have hpow : 0 < 2 ^ (8 - bits % 8) := Nat.two_pow_pos _
  rw [hsame, accepted_iff h, below_iff h]
  unfold PartsAgree
  by_cases hzero : bits % 8 = 0
  · simp [hzero]
  · by_cases hbytes : zeroBytes value (bits / 8) = true
    · have hall := zeroBytes_eq_true.mp hbytes
      have hnone : ¬ ∃ i < bits / 8, byteAt value i ≠ 0 := by
        rintro ⟨i, hi, hne⟩
        exact hne (hall i hi)
      simp only [hbytes, true_and, hzero, false_or, hnone]
      -- the low part is zero, and the high part is zero
      constructor
      · intro hparts
        by_cases hlow : byteAt value (bits / 8) % 2 ^ (8 - bits % 8) = 0
        · left
          rw [← Nat.mod_eq_of_lt (hparts.mp hlow)]
          exact hlow
        · right
          exact ⟨Nat.not_lt.mp fun hlt => hlow (hparts.mpr hlt), hlow⟩
      · rintro (hbyte | ⟨hhigh, hlow⟩)
        · rw [hbyte]
          exact ⟨fun _ => hpow, fun _ => Nat.zero_mod _⟩
        · exact ⟨fun h => absurd h hlow, fun hlt => absurd hlt (Nat.not_lt.mpr hhigh)⟩
    · have hsome : ∃ i < bits / 8, byteAt value i ≠ 0 := by
        by_contra hnone
        apply hbytes
        rw [zeroBytes_eq_true]
        intro i hi
        by_contra hne
        exact hnone ⟨i, hi, hne⟩
      simp [hbytes, hsome]

/-- Where all bytes that the function reads are zero, it accepts at every lower difficulty. -/
theorem accepted_of_zeroBytes {m : Nat} (h : zeroBytes value m = true) (hm : m ≤ 32) {lower : Nat}
    (hlower : (lower + 7) / 8 ≤ m) : hasLeadingZeroBits value lower = .ok true := by
  have hall := zeroBytes_eq_true.mp h
  rw [accepted_iff (by omega), zeroBytes_eq_true]
  refine ⟨fun i hi => hall i (by omega), ?_⟩
  rcases Nat.eq_zero_or_pos (lower % 8) with hzero | hpos
  · exact Or.inl hzero
  · right
    rw [hall (lower / 8) (by omega), Nat.zero_mod]

/-- Where the mask tests the right bits, fewer zero bits are accepted as well. -/
theorem monotone_of_partsAgree (h : bits ≤ 256) (hagree : PartsAgree value bits)
    (haccepted : hasLeadingZeroBits value bits = .ok true) {lower : Nat} (hlower : lower ≤ bits) :
    hasLeadingZeroBits value lower = .ok true := by
  obtain ⟨hbytes, hpart⟩ := (accepted_iff h).mp haccepted
  have hall := zeroBytes_eq_true.mp hbytes
  rcases hagree with hzero | ⟨i, hi, hne⟩ | hbyte | ⟨hhigh, hlow⟩
  · exact accepted_of_zeroBytes hbytes (by omega) (by omega)
  · exact absurd (hall i hi) hne
  · by_cases hzero : bits % 8 = 0
    · exact accepted_of_zeroBytes hbytes (by omega) (by omega)
    · exact accepted_of_zeroBytes (zeroBytes_succ.mpr ⟨hbytes, hbyte⟩) (by omega) (by omega)
  · rcases hpart with hzero | hpart
    · exact accepted_of_zeroBytes hbytes (by omega) (by omega)
    · exact absurd hpart hlow

/-! ### Bounds -/

theorem indexByte_of_lt (h : i < 32) : indexByte value i = .ok (byteAt value i) := if_pos h

/-- Within the word, no index of the loop is out of range. -/
theorem checkedZeroBytes_eq (h : i + n ≤ 32) :
    checkedZeroBytes value i n = .ok ((List.range' i n).all fun j => byteAt value j = 0) := by
  induction n generalizing i with
  | zero => rfl
  | succ n ih =>
    unfold checkedZeroBytes
    rw [indexByte_of_lt (by omega), List.range'_succ, List.all_cons]
    show (if byteAt value i ≠ 0 then _ else _) = _
    by_cases hbyte : byteAt value i = 0
    · rw [if_neg (not_not.mpr hbyte), ih (by omega), hbyte]
      rfl
    · rw [if_pos hbyte, decide_eq_false hbyte]
      rfl

/-- Not even with 256 bits is a byte read that is not there. -/
theorem checkedLeadingZeroBits_eq (value : Bytes32) (bits : Nat) :
    checkedLeadingZeroBits value bits = hasLeadingZeroBits value bits := by
  by_cases h : bits ≤ 256
  · have hrequire : require (bits ≤ 256) "Invalid bit count" = .ok () := require_eq_ok.mpr h
    have hloop : checkedZeroBytes value 0 (bits / 8) = .ok (zeroBytes value (bits / 8)) := by
      rw [checkedZeroBytes_eq (by omega), ← List.range_eq_range']
      rfl
    unfold checkedLeadingZeroBits hasLeadingZeroBits
    rw [hrequire]
    show (checkedZeroBytes value 0 (bits / 8) >>= _) = _
    rw [hloop]
    cases hzeros : zeroBytes value (bits / 8) with
    | false => simp [bind, Except.bind, hzeros]
    | true =>
      rcases Nat.eq_zero_or_pos (bits % 8) with hzero | hpos
      · simp [bind, Except.bind, hzeros, hzero]
      · have hbyte : indexByte value (bits / 8) = .ok (byteAt value (bits / 8)) := indexByte_of_lt (by omega)
        simp [bind, Except.bind, hzeros, hpos, hbyte]
  · have hrequire : require (bits ≤ 256) "Invalid bit count" = .error (.reason "Invalid bit count") := if_neg h
    unfold checkedLeadingZeroBits hasLeadingZeroBits
    rw [hrequire]
    rfl

end Bytes

/-- **When the difficulty is what it says.** The answer is the bound, passes stay passes at lower difficulties, and all
accesses are in bounds, exactly if the parts of the last byte agree. -/
theorem hasLeadingZeroBits_iff (value : Bytes32) (bits : Nat) (h : bits ≤ 256) :
    DifficultySound value bits ↔ PartsAgree value bits := by
  constructor
  · intro hsound
    exact (exact_iff h).mp hsound.exact
  · intro hagree
    exact {
      exact := (exact_iff h).mpr hagree
      monotone := fun haccepted lower hlower => monotone_of_partsAgree h hagree haccepted hlower
      inBounds := checkedLeadingZeroBits_eq value bits }

/-- The owner can set the difficulty to whole bytes. -/
theorem sixteenBits_sound : DifficultySound (BitVec.ofNat 256 (2 ^ 240 - 1)) 16 :=
  (hasLeadingZeroBits_iff _ 16 (by decide)).mpr (Or.inl rfl)

/-- The contract is deployed with a difficulty of 20. A word that begins with `0000f0` passes, and does
not pass at 19. One that begins with `00000f` is below the bound, and does not pass. -/
theorem twentyBits_unsound :
    hasLeadingZeroBits (BitVec.ofNat 256 (0xf0 * 2 ^ 232)) (ProofVerifier.deploy ⟨1, 0⟩).poregDifficultyBits =
        .ok true ∧
      hasLeadingZeroBits (BitVec.ofNat 256 (0xf0 * 2 ^ 232)) 19 = .ok false ∧
        ¬ DifficultySound (BitVec.ofNat 256 (0xf0 * 2 ^ 232)) 20 ∧
          hasLeadingZeroBits (BitVec.ofNat 256 (0x0f * 2 ^ 232)) 20 = .ok false ∧
            ¬ DifficultySound (BitVec.ofNat 256 (0x0f * 2 ^ 232)) 20 := by
  have hhigh : hasLeadingZeroBits (BitVec.ofNat 256 (0xf0 * 2 ^ 232)) 20 = .ok true := by decide
  have hlower : hasLeadingZeroBits (BitVec.ofNat 256 (0xf0 * 2 ^ 232)) 19 = .ok false := by decide
  have hlow : hasLeadingZeroBits (BitVec.ofNat 256 (0x0f * 2 ^ 232)) 20 = .ok false := by decide
  refine ⟨hhigh, hlower, fun hsound => ?_, hlow, fun hsound => ?_⟩
  · exact absurd (hlower.symm.trans (hsound.monotone hhigh 19 (by decide))) (by decide)
  · exact absurd (hlow.symm.trans hsound.exact) (by decide)

end Kyneto
