import Mathlib

/-!
# Whole numbers in JavaScript

A JavaScript number is a double. The whole numbers among the doubles are those with at most 53 significant bits;
`Number(n)` of another one is the nearest of them. This file has the rounding of natural numbers, and what survives
it: up to 2^53 nothing is rounded, multiples by powers of two stay exact, and rounding never passes a double.

Numbers too large for a double at all, beyond 2^1023, are not treated apart.
-/

namespace Kyneto

/-- Up to here no whole number is rounded. -/
def MAX_SAFE_INTEGER : Nat := 2 ^ 53 - 1

namespace Js

/-- The distance of the doubles around `n`. -/
def ulp (n : Nat) : Nat := 2 ^ (n.log2 - 52)

/-- `Number(n)`: the nearest double, of two the one that is even in its last place. -/
def toNumber (n : Nat) : Nat :=
  let q := n / ulp n
  let r := n % ulp n
  if 2 * r < ulp n ∨ 2 * r = ulp n ∧ q % 2 = 0 then q * ulp n else (q + 1) * ulp n

/-- A double. -/
def IsNumber (n : Nat) : Prop := ulp n ∣ n

instance (n : Nat) : Decidable (IsNumber n) := inferInstanceAs (Decidable (ulp n ∣ n))

section Rounding

variable {n x k : Nat}

theorem ulp_pos (n : Nat) : 0 < ulp n := Nat.two_pow_pos _

theorem ulp_dvd_pow (h : n.log2 ≤ k) : ulp n ∣ 2 ^ k := by
  apply Nat.pow_dvd_pow
  omega

theorem toNumber_of_isNumber (h : IsNumber n) : toNumber n = n := by
  unfold toNumber
  rw [Nat.mod_eq_zero_of_dvd h, if_pos (Or.inl (by simpa using ulp_pos n)), Nat.div_mul_cancel h]

/-- Up to 2^53 every integer is a number. -/
theorem isNumber_of_lt (h : n < 2 ^ 53) : IsNumber n := by
  have hone : ulp n = 1 := by
    by_cases hzero : n = 0
    · subst hzero
      rfl
    · have hlog := (Nat.log2_lt hzero).mpr h
      rw [ulp, Nat.sub_eq_zero_of_le (by omega), Nat.pow_zero]
  rw [IsNumber, hone]
  exact Nat.one_dvd n

theorem log2_mul_two_pow (hn : n ≠ 0) (k : Nat) : (n * 2 ^ k).log2 = n.log2 + k := by
  induction k with
  | zero => rw [Nat.pow_zero, Nat.mul_one, Nat.add_zero]
  | succ k ih =>
    have hpos : n * 2 ^ k ≠ 0 := Nat.mul_ne_zero hn (Nat.two_pow_pos k).ne'
    rw [Nat.pow_succ, ← Nat.mul_assoc, Nat.mul_comm, Nat.log2_two_mul hpos, ih, Nat.add_assoc]

/-- A multiple of a double by a power of two is a double. -/
theorem IsNumber.mul_two_pow (h : IsNumber n) (k : Nat) : IsNumber (n * 2 ^ k) := by
  by_cases hn : n = 0
  · subst hn
    rw [Nat.zero_mul]
    exact h
  · have hdvd : 2 ^ (n.log2 + k - 52) ∣ 2 ^ (n.log2 - 52) * 2 ^ k := by
      rw [← Nat.pow_add]
      apply Nat.pow_dvd_pow
      omega
    rw [IsNumber, ulp, log2_mul_two_pow hn]
    exact hdvd.trans (Nat.mul_dvd_mul_right h _)

/-- Between a number and the next power of two, the doubles are multiples of the number's own distance. -/
theorem ulp_dvd_of_between (hx : IsNumber x) (hlow : 2 ^ n.log2 ≤ x) (hhigh : x ≤ 2 ^ (n.log2 + 1)) : ulp n ∣ x := by
  rcases Nat.lt_or_eq_of_le hhigh with hlt | heq
  · have hpos : x ≠ 0 := (Nat.lt_of_lt_of_le (Nat.two_pow_pos _) hlow).ne'
    have hlog : x.log2 = n.log2 := (Nat.log2_eq_iff hpos).mpr ⟨hlow, hlt⟩
    rwa [IsNumber, ulp, hlog] at hx
  · rw [heq]
    exact ulp_dvd_pow (Nat.le_succ _)

/-- Rounding takes no number below a double that is not above it. -/
theorem le_toNumber (hx : IsNumber x) (h : x ≤ n) : x ≤ toNumber n := by
  have hdown : x ≤ n / ulp n * ulp n := by
    by_cases hn : n = 0
    · subst hn
      exact (Nat.le_zero.mp h).le.trans (Nat.zero_le _)
    · -- the largest multiple of the distance below `n`, which is at least the power of two below `n`
      have hbelow : ∀ y, ulp n ∣ y → y ≤ n → y ≤ n / ulp n * ulp n := by
        intro y hy hle
        obtain ⟨m, rfl⟩ := hy
        rw [Nat.mul_comm (n / ulp n)]
        apply Nat.mul_le_mul_left
        rw [Nat.le_div_iff_mul_le (ulp_pos n), Nat.mul_comm]
        exact hle
      by_cases hlow : 2 ^ n.log2 ≤ x
      · exact hbelow x (ulp_dvd_of_between hx hlow (h.trans Nat.lt_log2_self.le)) h
      · have hpow := hbelow _ (ulp_dvd_pow (Nat.le_refl _)) (Nat.log2_self_le hn)
        omega
  unfold toNumber
  simp only
  split
  · exact hdown
  · exact hdown.trans (Nat.mul_le_mul_right _ (Nat.le_succ _))

/-- The number before a double that is a multiple of four is not rounded down. -/
theorem le_toNumber_pred (hx : IsNumber x) (hfour : 4 ∣ x) : x ≤ toNumber (x - 1) + 1 := by
  by_cases hsmall : x - 1 < 2 ^ 53
  · rw [toNumber_of_isNumber (isNumber_of_lt hsmall)]
    omega
  · have hne : x - 1 ≠ 0 := by omega
    have hlog : 53 ≤ (x - 1).log2 := (Nat.le_log2 hne).mpr (by omega)
    have hdvd : ulp (x - 1) ∣ x := by
      apply ulp_dvd_of_between hx
      · exact (Nat.log2_self_le hne).trans (Nat.sub_le x 1)
      · have hlt := @Nat.lt_log2_self (x - 1)
        omega
    have htwo : 2 ∣ ulp (x - 1) := by
      have hpow := Nat.pow_dvd_pow 2 (show 1 ≤ (x - 1).log2 - 52 by omega)
      rwa [Nat.pow_one] at hpow
    have hpos := ulp_pos (x - 1)
    unfold toNumber
    simp only
    generalize ulp (x - 1) = u at *
    obtain ⟨m, hm⟩ := hdvd
    cases m with
    | zero => omega
    | succ m =>
      rw [Nat.mul_succ] at hm
      obtain ⟨hquot, hrem⟩ := (Nat.div_mod_unique hpos).mpr ⟨show u - 1 + u * m = x - 1 by omega, Nat.pred_lt hpos.ne'⟩
      rw [hquot, hrem]
      split
      · next hdown =>
        -- rounded down, the distance is two and the quotient is even, and `x` is no multiple of four
        have htwice : u = 2 := by omega
        subst htwice
        omega
      · rw [Nat.add_mul, Nat.one_mul, Nat.mul_comm m u]
        omega

end Rounding

end Js

end Kyneto
