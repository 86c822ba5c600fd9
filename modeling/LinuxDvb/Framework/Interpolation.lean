import LinuxDvb.Framework.Memory

/-!
# Interpolated tables

A table of nodes, `width` positions apart, is made into a function on all positions by linear interpolation with the
division rounded down.
-/

namespace LinuxDvb

/-- The value at position `p`: from the node in front of it towards the node behind it. -/
def interpolate (width : Nat) (node : Nat → Nat) (p : Nat) : Nat :=
  node (p / width) + p % width * (node (p / width + 1) - node (p / width)) / width

section Interpolate

variable {width : Nat} {node : Nat → Nat}

theorem interpolate_node (hwidth : 0 < width) (i : Nat) : interpolate width node (i * width) = node i := by
  rw [interpolate,Nat.mul_mod_left,Nat.mul_div_cancel i hwidth,Nat.zero_mul,Nat.zero_div,Nat.add_zero]

theorem interpolate_lt (hwidth : 0 < width) {p : Nat} (hnext : node (p / width) < node (p / width + 1)) :
    interpolate width node p < node (p / width + 1) := by
  have hoff : p % width < width := Nat.mod_lt p hwidth
  have hway : p % width * (node (p / width + 1) - node (p / width)) / width <
      node (p / width + 1) - node (p / width) := by
    rw [Nat.div_lt_iff_lt_mul hwidth,Nat.mul_comm]
    exact Nat.mul_lt_mul_of_pos_left hoff (Nat.sub_pos_of_lt hnext)
  rw [interpolate]
  omega

theorem node_le_interpolate (p : Nat) : node (p / width) ≤ interpolate width node p :=
  Nat.le_add_right _ _

theorem interpolate_le (hwidth : 0 < width) {p : Nat} (hnext : node (p / width) ≤ node (p / width + 1)) :
    interpolate width node p ≤ node (p / width + 1) := by
  cases Nat.eq_or_lt_of_le hnext with
  | inl hsame => rw [interpolate,← hsame,Nat.sub_self,Nat.mul_zero,Nat.zero_div,Nat.add_zero]
  | inr hless => exact Nat.le_of_lt (interpolate_lt hwidth hless)

theorem interpolate_mono (hwidth : 0 < width) (hnode : Monotone node) : Monotone (interpolate width node) := by
  intro p q hpq
  have hdiv : p / width ≤ q / width := Nat.div_le_div_right hpq
  cases Nat.eq_or_lt_of_le hdiv with
  | inl hsame =>
    have hoff : p % width ≤ q % width := by
      have hp := Nat.div_add_mod p width
      have hq := Nat.div_add_mod q width
      rw [← hsame] at hq
      omega
    rw [interpolate,interpolate,← hsame]
    exact Nat.add_le_add_left (Nat.div_le_div_right (Nat.mul_le_mul_right _ hoff)) _
  | inr hover =>
    calc interpolate width node p
        ≤ node (p / width + 1) := interpolate_le hwidth (hnode (Nat.le_succ _))
      _ ≤ node (q / width) := hnode hover
      _ ≤ interpolate width node q := node_le_interpolate q

end Interpolate

/-- The mantissa of `x` with `k` bits behind its highest bit. -/
def mantissa (k x : Nat) : Nat := x * 2 ^ (k - x.log2)

/-- The exponent of `x` in units of `unit`, and the part of its mantissa by `part`. -/
def octaves (k unit : Nat) (part : Nat → Nat) (x : Nat) : Nat := x.log2 * unit + part (mantissa k x)

section Octaves

variable {k unit x y : Nat} {part : Nat → Nat}

theorem log2_le_log2 (hx : x ≠ 0) (hxy : x ≤ y) : x.log2 ≤ y.log2 := by
  have hy : y ≠ 0 := by omega
  exact (Nat.le_log2 hy).mpr (Nat.le_trans (Nat.log2_self_le hx) hxy)

theorem le_mantissa (hx : x ≠ 0) (hk : x.log2 ≤ k) : 2 ^ k ≤ mantissa k x := by
  calc 2 ^ k = 2 ^ x.log2 * 2 ^ (k - x.log2) := by rw [← Nat.pow_add,Nat.add_sub_cancel' hk]
    _ ≤ x * 2 ^ (k - x.log2) := Nat.mul_le_mul_right _ (Nat.log2_self_le hx)

theorem mantissa_lt (hk : x.log2 ≤ k) : mantissa k x < 2 ^ (k + 1) := by
  calc mantissa k x < 2 ^ (x.log2 + 1) * 2 ^ (k - x.log2) :=
        Nat.mul_lt_mul_of_pos_right Nat.lt_log2_self (Nat.two_pow_pos _)
    _ = 2 ^ (k + 1) := by rw [← Nat.pow_add]; congr 1; omega

theorem mantissa_two_pow {m : Nat} (hm : m ≤ k) : mantissa k (2 ^ m) = 2 ^ k := by
  rw [mantissa,Nat.log2_two_pow,← Nat.pow_add,Nat.add_sub_cancel' hm]

theorem octaves_bounds (hpart : part (mantissa k x) < unit) :
    x.log2 * unit ≤ octaves k unit part x ∧ octaves k unit part x < (x.log2 + 1) * unit := by
  rw [octaves,Nat.add_mul,Nat.one_mul]
  omega

theorem octaves_mono (hpart : ∀ p, 2 ^ k ≤ p → p < 2 ^ (k + 1) → part p < unit) (hmono : Monotone part)
    (hx : x ≠ 0) (hxy : x ≤ y) (hk : y.log2 ≤ k) : octaves k unit part x ≤ octaves k unit part y := by
  have hlog := log2_le_log2 hx hxy
  cases Nat.eq_or_lt_of_le hlog with
  | inl hsame =>
    rw [octaves,octaves,mantissa,mantissa,hsame]
    exact Nat.add_le_add_left (hmono (Nat.mul_le_mul_right _ hxy)) _
  | inr hover =>
    have hkx := Nat.le_trans hlog hk
    have hbounds := octaves_bounds (hpart _ (le_mantissa hx hkx) (mantissa_lt hkx))
    calc octaves k unit part x ≤ (x.log2 + 1) * unit := Nat.le_of_lt hbounds.2
      _ ≤ y.log2 * unit := Nat.mul_le_mul_right _ hover
      _ ≤ octaves k unit part y := Nat.le_add_right _ _

end Octaves

end LinuxDvb
