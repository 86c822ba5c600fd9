import LinuxDvb.Framework.Loop
import Mathlib.Tactic.Linarith

/-!
# Zigzag searches

A search moves in alternating directions around its start, by one unit more each time, and so comes to every integer.
-/

namespace LinuxDvb

/-- The position after `k` moves. -/
def zigzag : Nat → Int
  | 0 => 0
  | k + 1 => zigzag k + (-1) ^ k * (k + 1)

theorem zigzag_even (m : Nat) : zigzag (2 * m) = -m := by
  induction m with
  | zero => rfl
  | succ m ih =>
    rw [show 2 * (m + 1) = 2 * m + 1 + 1 by omega,zigzag,zigzag,ih]
    rw [pow_succ,pow_mul]
    simp
    omega

theorem zigzag_odd (m : Nat) : zigzag (2 * m + 1) = m + 1 := by
  rw [zigzag,zigzag_even,pow_mul]
  simp
  omega

theorem zigzag_recurrent {P : Int → Prop} {M : Int} (hM : 0 < M) (hrepeats : ∀ m, P m → P (m + M))
    (h : ∃ m, P m) (N : Nat) : ∃ k ≥ N, P (zigzag k) := by
  obtain ⟨m,hm⟩ := h
  have hlater : ∀ j : Nat, P (m + M * j) := by
    intro j
    induction j with
    | zero => simpa using hm
    | succ j ih =>
      have hnext := hrepeats _ ih
      rw [add_assoc,← mul_add_one] at hnext
      exact hnext
  have hfar : (N : Int) + 1 ≤ m + M * ((m.natAbs + N + 1 : Nat) : Int) := by
    have hgrows : ((m.natAbs + N + 1 : Nat) : Int) ≤ M * ((m.natAbs + N + 1 : Nat) : Int) :=
      le_mul_of_one_le_left (Int.natCast_nonneg _) hM
    omega
  obtain ⟨t,ht⟩ := Int.eq_ofNat_of_zero_le (show 0 ≤ m + M * ((m.natAbs + N + 1 : Nat) : Int) - 1 by omega)
  refine ⟨2 * t + 1,by omega,?_⟩
  rw [zigzag_odd,← Int.sub_eq_iff_eq_add.mp ht]
  exact hlater _

section Loops

variable {σ : Type} {guard : σ → Prop} [DecidablePred guard] {body : Nat → σ → Flow σ}

/-- Termination rule: the `k`-th pass starts in a state `At k n`. It ends the loop or goes on, with one try less if
it meets `bad`, and without a try left the loop ends. -/
theorem LoopEnds.of_recurrent (hmono : FuelMonotone body) (bad : Nat → Prop) (At : Nat → Nat → σ → Prop)
    (hpass : ∀ k n s, At k (n + 1) s → (∃ r, LoopEnds guard body s r) ∨
      guard s ∧ ∃ fuel s', body fuel s = .again s' ∧ (bad k ∧ At (k + 1) n s' ∨ ¬ bad k ∧ At (k + 1) (n + 1) s'))
    (hend : ∀ k s, At k 0 s → ∃ r, LoopEnds guard body s r) (hbad : ∀ N, ∃ k ≥ N, bad k) {k n : Nat} {s : σ}
    (hs : At k n s) : ∃ r, LoopEnds guard body s r := by
  induction n generalizing k s with
  | zero => exact hend k s hs
  | succ n ih =>
    obtain ⟨k',hk',hbadk'⟩ := hbad k
    obtain ⟨d,rfl⟩ := Nat.exists_eq_add_of_le hk'
    -- the induction is on the distance of the next bad pass
    induction d generalizing k s with
    | zero =>
      obtain hends | ⟨hguard,fuel,s',hbody,⟨-,hat⟩ | ⟨hgood,-⟩⟩ := hpass k n s hs
      · exact hends
      · obtain ⟨r,hr⟩ := ih hat
        exact ⟨r,.of_again hmono hguard hbody hr⟩
      · exact absurd hbadk' hgood
    | succ d ihd =>
      obtain hends | ⟨hguard,fuel,s',hbody,⟨-,hat⟩ | ⟨-,hat⟩⟩ := hpass k n s hs
      · exact hends
      · obtain ⟨r,hr⟩ := ih hat
        exact ⟨r,.of_again hmono hguard hbody hr⟩
      · have hdist : k + 1 + d = k + (d + 1) := by omega
        obtain ⟨r,hr⟩ := ihd hat (by omega) (hdist ▸ hbadk')
        exact ⟨r,.of_again hmono hguard hbody hr⟩

end Loops

end LinuxDvb
