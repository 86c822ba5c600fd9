import LinuxDvb.Framework.WordArith

/-!
# Powers of two and their logarithm

The loops of `stb0899_util.c`, on a `long` of 32 bits.
-/

namespace LinuxDvb.Stb0899

open Arith

/-- The loop of `PowOf2`. -/
def powOf2Loop : Nat → Int → Arith Int
  | 0, result => pure result
  | passes + 1, result => signed 32 (result * 2) >>= powOf2Loop passes

def powOf2 (number : Int) : Arith Int := powOf2Loop number.toNat 1

/-- The loop of `Log2Int`. -/
def log2IntLoop (magnitude : Int) : Nat → Int → Arith Int
  | 0, i => ⟨i, [.unfinished]⟩
  | fuel + 1, i => do
    let power ← powOf2 i
    if power ≤ magnitude then log2IntLoop magnitude fuel (i + 1) else pure i

def log2Int (fuel : Nat) (number : Int) : Arith Int := do
  let i ← log2IntLoop (if number < 0 then -number else number) fuel 0
  pure ((if number = 0 then 1 else i) - 1)

section Loops

variable {n k fuel : Nat} {x : Int}

theorem powOf2Loop_eq (hn : n + k ≤ 30) : powOf2Loop k (2 ^ n) = pure (2 ^ (n + k)) := by
  induction k generalizing n with
  | zero => rfl
  | succ k ih =>
    have hpow : (2 : Int) ^ n * 2 = 2 ^ (n + 1) := (Int.pow_succ 2 n).symm
    have hle : (2 : Nat) ^ (n + 1) ≤ 2 ^ 30 := Nat.pow_le_pow_right (by decide) (by omega)
    have hcast : (2 : Int) ^ (n + 1) ≤ 2 ^ 30 := by exact_mod_cast hle
    have hpos : (0 : Int) < 2 ^ (n + 1) := Int.pow_pos (by decide)
    have hfits : FitsSigned 32 (2 ^ (n + 1)) := by
      generalize (2 : Int) ^ (n + 1) = power at hcast hpos
      exact ⟨by omega,by omega⟩
    rw [powOf2Loop,hpow,signed_bind (by decide) hfits,ih (by omega),Nat.add_right_comm,Nat.add_assoc]

theorem powOf2_eq (hn : n ≤ 30) : powOf2 n = pure (2 ^ n) := by
  have hloop := powOf2Loop_eq (n := 0) (k := n) (by omega)
  rw [Int.pow_zero,Nat.zero_add] at hloop
  exact hloop

theorem log2IntLoop_eq (hlow : 2 ^ n ≤ x) (hhigh : x < 2 ^ (n + 1)) (hn : n < 30) (hk : k ≤ n + 1)
    (hfuel : n + 1 < k + fuel) : log2IntLoop x fuel k = pure ((n : Int) + 1) := by
  induction fuel generalizing k with
  | zero => omega
  | succ fuel ih =>
    rw [log2IntLoop,powOf2_eq (by omega),bind_of_pure]
    by_cases hlast : k = n + 1
    · rw [hlast,if_neg (Int.not_le.mpr hhigh)]
      rfl
    · have hpow : (2 : Int) ^ k ≤ x := by
        have hle : (2 : Nat) ^ k ≤ 2 ^ n := Nat.pow_le_pow_right (by decide) (by omega)
        have hcast : ((2 ^ k : Nat) : Int) ≤ ((2 ^ n : Nat) : Int) := by exact_mod_cast hle
        rw [Int.natCast_pow,Int.natCast_pow] at hcast
        exact Int.le_trans hcast hlow
      rw [if_pos hpow]
      exact ih (k := k + 1) (by omega) (by omega)

theorem log2Int_eq (hlow : 2 ^ n ≤ x) (hhigh : x < 2 ^ (n + 1)) (hn : n < 30) (hfuel : n + 1 < fuel) :
    log2Int fuel x = pure (n : Int) := by
  have hpos : (0 : Int) < 2 ^ n := Int.pow_pos (by decide)
  have hloop := log2IntLoop_eq hlow hhigh hn (Nat.zero_le _) (show n + 1 < 0 + fuel by omega)
  rw [Int.natCast_zero] at hloop
  rw [log2Int,if_neg (by omega),hloop,bind_of_pure,if_neg (by omega),Int.add_sub_cancel]

end Loops

end LinuxDvb.Stb0899
