import LinuxDvb.Framework.Lists

/-!
# Bytes under a mask

The bits of a byte, and what it means for two bytes that their difference is, or is not, hidden by a
mask.
-/

namespace LinuxDvb

/-- Bit `b` of a byte, counted from the least significant one. -/
def bit (x : UInt8) (b : Nat) : Bool := x.toBitVec.getLsbD b

@[simp] theorem bit_and (x y : UInt8) (b : Nat) : bit (x &&& y) b = (bit x b && bit y b) := by
  simp [bit]

@[simp] theorem bit_xor (x y : UInt8) (b : Nat) : bit (x ^^^ y) b = (bit x b ^^ bit y b) := by
  simp [bit]

theorem bit_not (x : UInt8) {b : Nat} (hb : b < 8) : bit (~~~x) b = !bit x b := by
  simp [bit,hb]

theorem bit_ones {b : Nat} (hb : b < 8) : bit 0xff b = true := by
  change (BitVec.ofNat 8 255).getLsbD b = true
  have hall : ∀ b < 8, (BitVec.ofNat 8 255).getLsbD b = true := by decide
  exact hall b hb

theorem byte_eq_zero_iff (x : UInt8) : x = 0 ↔ ∀ b < 8, bit x b = false := by
  rw [← UInt8.toBitVec_inj]
  constructor
  · intro h b _
    rw [bit,h]
    exact BitVec.getLsbD_zero
  · intro h
    apply BitVec.eq_of_getLsbD_eq
    intro b hb
    rw [show x.toBitVec.getLsbD b = false from h b hb]
    exact BitVec.getLsbD_zero.symm

theorem byte_ne_zero_iff (x : UInt8) : x ≠ 0 ↔ ∃ b < 8, bit x b = true := by
  rw [ne_eq,byte_eq_zero_iff]
  simp

theorem masked_eq_zero_iff (mask x y : UInt8) :
    mask &&& (x ^^^ y) = 0 ↔ ∀ b < 8, bit mask b = true → bit y b = bit x b := by
  rw [byte_eq_zero_iff]
  apply forall₂_congr
  intro b _
  cases hm : bit mask b <;> cases hx : bit x b <;> cases hy : bit y b <;> simp [hm,hx,hy]

theorem masked_ne_zero_iff (mask x y : UInt8) :
    mask &&& (x ^^^ y) ≠ 0 ↔ ∃ b < 8, bit mask b = true ∧ bit y b ≠ bit x b := by
  rw [ne_eq,masked_eq_zero_iff]
  simp

theorem masked_eq_zero_of_subset {m m' d : UInt8} (hsub : m' &&& ~~~m = 0) (h : m &&& d = 0) : m' &&& d = 0 := by
  rw [byte_eq_zero_iff] at *
  intro b hb
  have hsub := hsub b hb
  have h := h b hb
  rw [bit_and,bit_not _ hb] at hsub
  rw [bit_and] at h ⊢
  cases hm : bit m b <;> simp_all

theorem masked_outside (m m' : UInt8) : m &&& (m' &&& ~~~m) = 0 := by
  rw [byte_eq_zero_iff]
  intro b hb
  rw [bit_and,bit_and,bit_not _ hb]
  cases bit m b <;> simp

theorem masked_within (m m' : UInt8) : m &&& (m &&& m') = m &&& m' := by
  rw [← UInt8.and_assoc,UInt8.and_self]

theorem xor_xor_cancel (x y : UInt8) : x ^^^ (x ^^^ y) = y := by
  rw [← UInt8.xor_assoc,UInt8.xor_self,UInt8.zero_xor]

end LinuxDvb
