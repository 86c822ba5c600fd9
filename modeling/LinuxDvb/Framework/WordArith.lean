import LinuxDvb.Framework.Logged

/-!
# Arithmetic on words, with a log of what goes wrong

An operation of C on words of some width has a value in any case; where the exact result does not fit or the divisor
is zero, this is logged, and so is a loop that does not end.
-/

namespace LinuxDvb

inductive ArithFault where
  | wraps
  | dividesByZero
  /-- The fuel of a loop was not enough. -/
  | unfinished
  deriving DecidableEq

abbrev Arith (α : Type) := Logged ArithFault α

namespace Arith

/-- Whether an unsigned word of `w` bits holds a value. -/
def FitsUnsigned (w : Nat) (x : Int) : Prop := 0 ≤ x ∧ x < 2 ^ w

instance (w : Nat) (x : Int) : Decidable (FitsUnsigned w x) := inferInstanceAs (Decidable (_ ∧ _))

def FitsSigned (w : Nat) (x : Int) : Prop := -2 ^ (w - 1) ≤ x ∧ x < 2 ^ (w - 1)

instance (w : Nat) (x : Int) : Decidable (FitsSigned w x) := inferInstanceAs (Decidable (_ ∧ _))

def unsigned (w : Nat) (x : Int) : Arith Int := ⟨x % 2 ^ w, if FitsUnsigned w x then [] else [.wraps]⟩

def signed (w : Nat) (x : Int) : Arith Int := ⟨x.bmod (2 ^ w), if FitsSigned w x then [] else [.wraps]⟩

def quotient (x y : Int) : Arith Int := ⟨x.tdiv y, if y = 0 then [.dividesByZero] else []⟩

def wordNat (w n : Nat) : Arith Nat := ⟨n % 2 ^ w, if n < 2 ^ w then [] else [.wraps]⟩

def toWord (w : Nat) (x : Int) : Arith Nat := ⟨(x % 2 ^ w).toNat, if FitsUnsigned w x then [] else [.wraps]⟩

def divNat (m n : Nat) : Arith Nat := ⟨m / n, if n = 0 then [.dividesByZero] else []⟩

def modNat (m n : Nat) : Arith Nat := ⟨m % n, if n = 0 then [.dividesByZero] else []⟩

def Clean {α : Type} (m : Arith α) : Prop := m.log = []

variable {α β : Type} {w m n : Nat} {x y : Int}

theorem bind_of_pure (a : α) (rest : α → Arith β) : ((pure a : Arith α) >>= rest) = rest a := rfl

theorem clean_pure (a : α) : (pure a : Arith α).Clean := rfl

theorem clean_bind (m : Arith α) (rest : α → Arith β) : (m >>= rest).Clean ↔ m.Clean ∧ (rest m.value).Clean :=
  append_eq_nil_iff

theorem unsigned_eq (h : FitsUnsigned w x) : unsigned w x = pure x := by
  rw [unsigned,if_pos h,Int.emod_eq_of_lt h.1 h.2]
  rfl

theorem unsigned_bind (h : FitsUnsigned w x) (rest : Int → Arith β) : (unsigned w x >>= rest) = rest x := by
  rw [unsigned_eq h,bind_of_pure]

theorem clean_unsigned : (unsigned w x).Clean ↔ FitsUnsigned w x := by
  rw [Clean,unsigned]
  split
  case isTrue h => exact ⟨fun _ => h,fun _ => rfl⟩
  case isFalse h => exact ⟨fun hlog => absurd hlog (cons_ne_nil _ _),fun hfits => absurd hfits h⟩

theorem bmod_of_fits (hw : 0 < w) (h : FitsSigned w x) : x.bmod (2 ^ w) = x := by
  obtain ⟨v,rfl⟩ : ∃ v, w = v + 1 := ⟨w - 1,by omega⟩
  obtain ⟨hlow,hhigh⟩ := h
  rw [Nat.add_sub_cancel] at hlow hhigh
  have hnat : 2 ^ (v + 1) = 2 * 2 ^ v := by rw [Nat.pow_succ,Nat.mul_comm]
  have hcast : ((2 ^ v : Nat) : Int) = 2 ^ v := Int.natCast_pow 2 v
  apply Int.bmod_eq_of_le
  · rw [hnat]
    omega
  · rw [hnat]
    omega

theorem signed_eq (hw : 0 < w) (h : FitsSigned w x) : signed w x = pure x := by
  rw [signed,if_pos h,bmod_of_fits hw h]
  rfl

theorem signed_bind (hw : 0 < w) (h : FitsSigned w x) (rest : Int → Arith β) : (signed w x >>= rest) = rest x := by
  rw [signed_eq hw h,bind_of_pure]

theorem quotient_eq (h : y ≠ 0) : quotient x y = pure (x.tdiv y) := by
  rw [quotient,if_neg h]
  rfl

theorem quotient_bind (h : y ≠ 0) (rest : Int → Arith β) : (quotient x y >>= rest) = rest (x.tdiv y) := by
  rw [quotient_eq h,bind_of_pure]

theorem wordNat_eq (h : n < 2 ^ w) : wordNat w n = pure n := by
  rw [wordNat,if_pos h,Nat.mod_eq_of_lt h]
  rfl

theorem wordNat_bind (h : n < 2 ^ w) (rest : Nat → Arith β) : (wordNat w n >>= rest) = rest n := by
  rw [wordNat_eq h,bind_of_pure]

theorem toWord_eq (hx : x = n) (h : n < 2 ^ w) : toWord w x = pure n := by
  have hpow : ((2 ^ w : Nat) : Int) = 2 ^ w := Int.natCast_pow 2 w
  have hcast : x < 2 ^ w := by
    rw [hx,← hpow]
    exact Int.ofNat_lt.mpr h
  have hfits : FitsUnsigned w x := ⟨hx ▸ Int.natCast_nonneg n,hcast⟩
  rw [toWord,if_pos hfits,Int.emod_eq_of_lt hfits.1 hfits.2,hx]
  rfl

theorem toWord_bind (hx : x = n) (h : n < 2 ^ w) (rest : Nat → Arith β) : (toWord w x >>= rest) = rest n := by
  rw [toWord_eq hx h,bind_of_pure]

theorem divNat_eq (h : n ≠ 0) : divNat m n = pure (m / n) := by
  rw [divNat,if_neg h]
  rfl

theorem divNat_bind (h : n ≠ 0) (rest : Nat → Arith β) : (divNat m n >>= rest) = rest (m / n) := by
  rw [divNat_eq h,bind_of_pure]

theorem modNat_bind (h : n ≠ 0) (rest : Nat → Arith β) : (modNat m n >>= rest) = rest (m % n) := by
  rw [modNat,if_neg h]
  rfl

end Arith

end LinuxDvb
