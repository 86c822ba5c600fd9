import LinuxDvb.Framework.Lists
import Mathlib.Tactic.Ring

/-!
# Digits read in another base

The lowest digits of a number in one base, taken as digits in another one. Packed decimal numbers are such numbers, with
decimal digits in base 16.
-/

namespace LinuxDvb

/-- The `k` lowest digits of a number in base `b`, read in base `c`. -/
def rebase (b c : Nat) : Nat → Nat → Nat
  | 0, _ => 0
  | k + 1, n => n % b + c * rebase b c k (n / b)

variable {b c d k n : Nat}

theorem rebase_self (h : n < b ^ k) : rebase b b k n = n := by
  induction k generalizing n with
  | zero =>
    rw [Nat.pow_zero] at h
    exact (Nat.lt_one_iff.mp h).symm
  | succ k ih =>
    rw [Nat.pow_succ] at h
    rw [rebase,ih (Nat.div_lt_of_lt_mul (by rwa [Nat.mul_comm])),Nat.mod_add_div]

/-- All `k` lowest digits in base `b` are digits in base `c`. -/
def DigitsBelow (b c k n : Nat) : Prop := ∀ i < k, n / b ^ i % b < c

theorem DigitsBelow.div (h : DigitsBelow b c (k + 1) n) : DigitsBelow b c k (n / b) := by
  intro i hi
  rw [Nat.div_div_eq_div_mul,Nat.mul_comm,← Nat.pow_succ]
  exact h (i + 1) (Nat.succ_lt_succ hi)

theorem DigitsBelow.mod (h : DigitsBelow b c (k + 1) n) : n % b < c := by
  have hfirst := h 0 (Nat.succ_pos k)
  rwa [Nat.pow_zero,Nat.div_one] at hfirst

theorem digitsBelow_of_le (hb : 0 < b) (hle : b ≤ c) : DigitsBelow b c k n :=
  fun _ _ => Nat.lt_of_lt_of_le (Nat.mod_lt _ hb) hle

theorem rebase_rebase (h : DigitsBelow b c k n) : rebase c d k (rebase b c k n) = rebase b d k n := by
  induction k generalizing n with
  | zero => rfl
  | succ k ih =>
    have hpos : 0 < c := Nat.lt_of_le_of_lt (Nat.zero_le _) h.mod
    have hmod : (n % b + c * rebase b c k (n / b)) % c = n % b := by
      rw [Nat.add_mul_mod_self_left,Nat.mod_eq_of_lt h.mod]
    have hdiv : (n % b + c * rebase b c k (n / b)) / c = rebase b c k (n / b) := by
      rw [Nat.add_mul_div_left _ _ hpos,Nat.div_eq_of_lt h.mod,Nat.zero_add]
    calc rebase c d (k + 1) (rebase b c (k + 1) n)
        = (n % b + c * rebase b c k (n / b)) % c +
            d * rebase c d k ((n % b + c * rebase b c k (n / b)) / c) := rfl
      _ = n % b + d * rebase b d k (n / b) := by rw [hmod,hdiv,ih h.div]

theorem rebase_succ_last : rebase b c (k + 1) n = n / b ^ k % b * c ^ k + rebase b c k n := by
  induction k generalizing n with
  | zero =>
    have hone : rebase b c (0 + 1) n = n % b + c * 0 := rfl
    rw [hone,rebase,Nat.pow_zero,Nat.div_one,Nat.pow_zero]
    ring
  | succ k ih =>
    have hdigit : n / b / b ^ k = n / b ^ (k + 1) := by
      rw [Nat.div_div_eq_div_mul,Nat.pow_succ,Nat.mul_comm]
    calc rebase b c (k + 2) n = n % b + c * rebase b c (k + 1) (n / b) := rfl
      _ = n % b + c * (n / b ^ (k + 1) % b * c ^ k + rebase b c k (n / b)) := by rw [ih,hdigit]
      _ = n / b ^ (k + 1) % b * c ^ (k + 1) + (n % b + c * rebase b c k (n / b)) := by ring

theorem rebase_zero (k : Nat) : rebase b c k 0 = 0 := by
  induction k with
  | zero => rfl
  | succ k ih => rw [rebase,Nat.zero_mod,Nat.zero_div,ih,Nat.mul_zero]

theorem rebase_of_lt {j : Nat} (h : n < b ^ j) (hle : j ≤ k) : rebase b c k n = rebase b c j n := by
  induction j generalizing k n with
  | zero =>
    rw [Nat.pow_zero] at h
    rw [Nat.lt_one_iff.mp h,rebase_zero,rebase_zero]
  | succ j ih =>
    obtain ⟨k,rfl⟩ : ∃ k', k = k' + 1 := ⟨k - 1,by omega⟩
    rw [Nat.pow_succ] at h
    rw [rebase,rebase,ih (Nat.div_lt_of_lt_mul (by rwa [Nat.mul_comm])) (Nat.le_of_succ_le_succ hle)]

end LinuxDvb
