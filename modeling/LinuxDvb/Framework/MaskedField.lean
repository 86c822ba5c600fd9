import LinuxDvb.Framework.Lists

/-!
# Fields of a word

A field is the run of bits that a mask selects. It is replaced by clearing it and adding the new bits, and read by
masking and shifting.
-/

namespace LinuxDvb.MaskedField

variable {a m m' x : UInt32} {n pos i : Nat}

theorem testBit_and (a b : UInt32) (i : Nat) :
    (a &&& b).toNat.testBit i = (a.toNat.testBit i && b.toNat.testBit i) := by
  rw [UInt32.toNat_and,Nat.testBit_and]

theorem testBit_of_ge (a : UInt32) (h : 32 ≤ i) : a.toNat.testBit i = false := by
  refine Nat.testBit_lt_two_pow ?_
  have hlt : a.toNat < 2 ^ 32 := a.toNat_lt
  exact Nat.lt_of_lt_of_le hlt (Nat.pow_le_pow_right (by decide) h)

theorem eq_of_testBit {a b : UInt32} (h : ∀ i < 32, a.toNat.testBit i = b.toNat.testBit i) : a = b := by
  rw [← UInt32.toNat_inj]
  refine Nat.eq_of_testBit_eq fun i => ?_
  rcases Nat.lt_or_ge i 32 with hi | hi
  · exact h i hi
  · rw [testBit_of_ge a hi,testBit_of_ge b hi]

theorem testBit_not (a : UInt32) (h : i < 32) : (~~~a).toNat.testBit i = !a.toNat.testBit i := by
  have hbit : (~~~a.toBitVec).getLsbD i = (decide (i < 32) && !a.toBitVec.getLsbD i) := BitVec.getLsbD_not
  rw [decide_eq_true h,Bool.true_and] at hbit
  exact hbit

theorem replaced_eq_or (a m x : UInt32) : (a &&& ~~~m) + (m &&& x) = (a &&& ~~~m) ||| (m &&& x) := by
  have hdisjoint : (a &&& ~~~m).toBitVec &&& (m &&& x).toBitVec = 0 := by
    have hzero : (a &&& ~~~m) &&& (m &&& x) = 0 := by
      refine eq_of_testBit fun i hi => ?_
      rw [testBit_and,testBit_and,testBit_and,testBit_not m hi]
      cases m.toNat.testBit i <;> simp
    exact congrArg UInt32.toBitVec hzero
  exact UInt32.toBitVec_inj.mp (BitVec.add_eq_or_of_and_eq_zero _ _ hdisjoint)

theorem testBit_replaced (h : i < 32) : ((a &&& ~~~m) + (m &&& x)).toNat.testBit i =
      if m.toNat.testBit i then x.toNat.testBit i else a.toNat.testBit i := by
  rw [replaced_eq_or,UInt32.toNat_or,Nat.testBit_or,testBit_and,testBit_and,testBit_not m h]
  cases m.toNat.testBit i <;> simp

theorem replaced_and_mask (a m x : UInt32) : ((a &&& ~~~m) + (m &&& x)) &&& m = m &&& x := by
  refine eq_of_testBit fun i hi => ?_
  rw [testBit_and,testBit_and,testBit_replaced hi]
  cases m.toNat.testBit i <;> simp

theorem replaced_and_other (a x : UInt32) (h : m &&& m' = 0) : ((a &&& ~~~m) + (m &&& x)) &&& m' = a &&& m' := by
  refine eq_of_testBit fun i hi => ?_
  have hbit : (m.toNat.testBit i && m'.toNat.testBit i) = false := by
    rw [← testBit_and,h]
    exact Nat.zero_testBit i
  rw [testBit_and,testBit_and,testBit_replaced hi]
  cases hm : m.toNat.testBit i with
  | false => simp
  | true =>
    rw [hm,Bool.true_and] at hbit
    simp [hbit]

/-- The mask selects `n` bits from `pos` on. -/
def IsMask (m : UInt32) (n pos : Nat) : Prop := ∀ i < 32, m.toNat.testBit i = decide (pos ≤ i ∧ i < pos + n)

theorem IsMask.and_eq_zero {n' pos' : Nat} (h : IsMask m n pos) (h' : IsMask m' n' pos')
    (hdisjoint : pos + n ≤ pos' ∨ pos' + n' ≤ pos) : m &&& m' = 0 := by
  refine eq_of_testBit fun i hi => ?_
  rw [testBit_and,h i hi,h' i hi,← Bool.decide_and]
  refine (decide_eq_false ?_).trans (Nat.zero_testBit i).symm
  omega

theorem IsMask.toNat_extract (h : IsMask m n pos) (hfits : pos + n ≤ 32) (hpos : pos < 32) (x : UInt32) :
    ((m &&& (x <<< UInt32.ofNat pos)) >>> UInt32.ofNat pos).toNat = x.toNat % 2 ^ n := by
  have hshift : (UInt32.ofNat pos).toNat % 32 = pos := by
    rw [UInt32.toNat_ofNat']
    omega
  refine Nat.eq_of_testBit_eq fun i => ?_
  rw [UInt32.toNat_shiftRight,hshift,Nat.testBit_shiftRight,Nat.testBit_mod_two_pow,testBit_and]
  rcases Nat.lt_or_ge (pos + i) 32 with hi | hi
  · rw [h (pos + i) hi,UInt32.toNat_shiftLeft,hshift,Nat.testBit_mod_two_pow,Nat.testBit_shiftLeft,
      Nat.add_sub_cancel_left,decide_eq_true hi,decide_eq_true (Nat.le_add_right pos i)]
    simp only [Bool.true_and,Nat.le_add_right,true_and,Nat.add_lt_add_iff_left]
  · rw [testBit_of_ge m hi,Bool.false_and,decide_eq_false (by omega),Bool.false_and]

theorem IsMask.toNat_masked (h : IsMask m n pos) (hfits : pos + n ≤ 32) (hpos : pos < 32) (x : UInt32) :
    ((x &&& m) >>> UInt32.ofNat pos).toNat = x.toNat / 2 ^ pos % 2 ^ n := by
  have hshift : (UInt32.ofNat pos).toNat % 32 = pos := by
    rw [UInt32.toNat_ofNat']
    omega
  refine Nat.eq_of_testBit_eq fun i => ?_
  rw [UInt32.toNat_shiftRight,hshift,Nat.testBit_shiftRight,Nat.testBit_mod_two_pow,testBit_and,
    ← Nat.shiftRight_eq_div_pow,Nat.testBit_shiftRight]
  rcases Nat.lt_or_ge (pos + i) 32 with hi | hi
  · rw [h (pos + i) hi,Bool.and_comm]
    simp only [Nat.le_add_right,true_and,Nat.add_lt_add_iff_left]
  · rw [testBit_of_ge m hi,Bool.and_false,decide_eq_false (by omega),Bool.false_and]

end LinuxDvb.MaskedField
