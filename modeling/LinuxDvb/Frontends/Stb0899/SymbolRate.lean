import Mathlib.Algebra.Order.Field.Power
import Mathlib.Data.Rat.Floor
import LinuxDvb.Framework.WordArith
import LinuxDvb.Frontends.Stb0899.Fields

/-!
# The symbol rate of the STB0899

A rate below the master clock is programmed as a binary fraction of it. `BinaryFloatDiv` finds one bit of the fraction
in each pass and keeps the doubled remainder.
-/

namespace LinuxDvb.Stb0899

open Arith

/-! ## The code -/

/-- A pass of the loop of `BinaryFloatDiv` over `n1` and `result`, on a `long` of `w` bits. -/
def binaryFloatDivPass (w : Nat) (n2 : Int) (s : Int × Int) : Arith (Int × Int) :=
  let (n1, result) := s
  if n1 < n2 then do
    let result ← signed w (result * 2)
    let n1 ← signed w (n1 * 2)
    pure (n1, result)
  else do
    let double ← signed w (result * 2)
    let result ← signed w (double + 1)
    let rest ← signed w (n1 - n2)
    let n1 ← signed w (rest * 2)
    pure (n1, result)

def binaryFloatDivLoop (w : Nat) (n2 : Int) : Nat → Int × Int → Arith (Int × Int)
  | 0, s => pure s
  | passes + 1, s => binaryFloatDivPass w n2 s >>= binaryFloatDivLoop w n2 passes

/-- `BinaryFloatDiv`. The loop counter begins at 0 and stops behind the precision. -/
def binaryFloatDiv (w : Nat) (n1 n2 precision : Int) : Arith Int :=
  binaryFloatDivLoop w n2 (precision + 1).toNat (n1, 0) >>= fun s => pure s.2

/-- `FSTB0899_SYMB_FREQ_HSB` -/
def symbFreqHsb : Nat := 734

/-- `FSTB0899_SYMB_FREQ_MSB` -/
def symbFreqMsb : Nat := 735

/-- `FSTB0899_SYMB_FREQ_LSB` -/
def symbFreqLsb : Nat := 736

/-- `FSTB0899_SYMB_FREQ_UP_HSB` -/
def symbFreqUpHsb : Nat := 738

/-- `FSTB0899_SYMB_FREQ_UP_MSB` -/
def symbFreqUpMsb : Nat := 739

/-- `FSTB0899_SYMB_FREQ_UP_LSB` -/
def symbFreqUpLsb : Nat := 740

/-- `RSTB0899_SFRH` -/
def sfrh : Nat := 300

/-- `RSTB0899_SFRUPH` -/
def sfruph : Nat := 303

/-- The calls of `ChipSetFieldImage` in `FE_STB0899_SetSymbolRate`. -/
def symbolRateCalls (up tmp : Nat) : List FieldCall :=
  [⟨symbFreqUpHsb, ((up >>> 12) &&& 0xff : Nat)⟩, ⟨symbFreqUpMsb, ((up >>> 4) &&& 0xff : Nat)⟩,
    ⟨symbFreqUpLsb, (up &&& 0x0f : Nat)⟩, ⟨symbFreqHsb, ((tmp >>> 12) &&& 0xff : Nat)⟩,
    ⟨symbFreqMsb, ((tmp >>> 4) &&& 0xff : Nat)⟩, ⟨symbFreqLsb, (tmp &&& 0x0f : Nat)⟩]

/-- The arithmetic of `FE_STB0899_SetSymbolRate`, where a `long` has 32 bits: the fields that it sets. -/
def symbolRateFields (masterClock symbolRate : Int) : Arith (List FieldCall) := do
  let product ← unsigned 32 (symbolRate * 3)
  let symbolRateUp ← unsigned 32 (symbolRate + product / 100)
  let n1 ← signed 32 symbolRate
  let n2 ← signed 32 masterClock
  let quotient ← binaryFloatDiv 32 n1 n2 20
  let tmp ← unsigned 32 quotient
  let n1 ← signed 32 symbolRateUp
  let quotient ← binaryFloatDiv 32 n1 n2 20
  let tmpUp ← unsigned 32 quotient
  pure (symbolRateCalls tmpUp.toNat tmp.toNat)

/-- `FE_STB0899_SetSymbolRate` -/
def setSymbolRate {H D : Type} [DecidableEq H] [DecidableEq D] (sys : ChipSystem H D) (w : I2cWorld) (h : H)
    (masterClock symbolRate : Int) (s : Chips H D) : Arith (Int × Chips H D) := do
  let calls ← symbolRateFields masterClock symbolRate
  let images := setFieldImages sys h calls s
  pure (symbolRate, chipSetRegisters sys w h sfrh 3 (chipSetRegisters sys w h sfruph 3 images))

/-! ## The division -/

section Division

variable {w : Nat} {n1 n2 result : Int}

/-- What the loop keeps: the doubled remainder is below twice the divisor, and the result fits. -/
structure Dividing (w : Nat) (n2 : Int) (s : Int × Int) : Prop where
  nonneg : 0 ≤ s.1
  below : s.1 < 2 * n2
  result : 0 ≤ s.2
  fits : 2 * n2 < 2 ^ (w - 1)

theorem binaryFloatDivPass_eq {s : Int × Int} (hw : 0 < w) (h : Dividing w n2 s) (hresult : 2 * s.2 + 1 < 2 ^ (w - 1)) :
    ∃ s', binaryFloatDivPass w n2 s = pure s' ∧ Dividing w n2 s' ∧
      2 * s'.2 * n2 + s'.1 = 2 * (2 * s.2 * n2 + s.1) := by
  obtain ⟨n1,result⟩ := s
  obtain ⟨hnonneg,hbelow,hres,hfits⟩ := h
  dsimp only at hnonneg hbelow hres hresult
  have hdouble : FitsSigned w (result * 2) := ⟨by omega,by omega⟩
  rw [binaryFloatDivPass]
  dsimp only
  split
  case isTrue hlt =>
    have hn1 : FitsSigned w (n1 * 2) := ⟨by omega,by omega⟩
    rw [signed_bind hw hdouble,signed_bind hw hn1]
    refine ⟨_,rfl,⟨?_,?_,?_,hfits⟩,?_⟩
    · show 0 ≤ n1 * 2
      omega
    · show n1 * 2 < 2 * n2
      omega
    · show 0 ≤ result * 2
      omega
    · show 2 * (result * 2) * n2 + n1 * 2 = 2 * (2 * result * n2 + n1)
      ring
  case isFalse hge =>
    have hone : FitsSigned w (result * 2 + 1) := ⟨by omega,by omega⟩
    have hrest : FitsSigned w (n1 - n2) := ⟨by omega,by omega⟩
    have hn1 : FitsSigned w ((n1 - n2) * 2) := ⟨by omega,by omega⟩
    rw [signed_bind hw hdouble,signed_bind hw hone,signed_bind hw hrest,signed_bind hw hn1]
    refine ⟨_,rfl,⟨?_,?_,?_,hfits⟩,?_⟩
    · show 0 ≤ (n1 - n2) * 2
      omega
    · show (n1 - n2) * 2 < 2 * n2
      omega
    · show 0 ≤ result * 2 + 1
      omega
    · show 2 * (result * 2 + 1) * n2 + (n1 - n2) * 2 = 2 * (2 * result * n2 + n1)
      ring

theorem result_lt {s : Int × Int} {k : Nat} (h : Dividing w n2 s) (hvalue : 2 * s.2 * n2 + s.1 < 2 ^ k * n2) :
    2 * s.2 < 2 ^ k := by
  have hpos : 0 < n2 := by
    have hnonneg := h.nonneg
    have hbelow := h.below
    omega
  by_contra hge
  have hmul : 2 ^ k * n2 ≤ 2 * s.2 * n2 := Int.mul_le_mul_of_nonneg_right (not_lt.mp hge) hpos.le
  have hnonneg := h.nonneg
  omega

theorem binaryFloatDivLoop_eq {s : Int × Int} {j k : Nat} (h : Dividing w n2 s) (hw : 32 ≤ w) (hk : j + k ≤ 31)
    (hvalue : 2 * s.2 * n2 + s.1 < 2 ^ j * n2) :
    ∃ s', binaryFloatDivLoop w n2 k s = pure s' ∧ Dividing w n2 s' ∧
      2 * s'.2 * n2 + s'.1 = 2 ^ k * (2 * s.2 * n2 + s.1) := by
  induction k generalizing s j with
  | zero => exact ⟨s,rfl,h,by rw [pow_zero,one_mul]⟩
  | succ k ih =>
    have hbits : (2 : Int) ^ j ≤ 2 ^ 30 := pow_le_pow_right₀ (by decide) (by omega)
    have hword : (2 : Int) ^ 31 ≤ 2 ^ (w - 1) := pow_le_pow_right₀ (by decide) (by omega)
    have hresult := result_lt h hvalue
    obtain ⟨s',hpass,h',hsame⟩ := binaryFloatDivPass_eq (by omega) h (by omega)
    have hvalue' : 2 * s'.2 * n2 + s'.1 < 2 ^ (j + 1) * n2 := by
      rw [hsame,pow_succ]
      linarith
    obtain ⟨t,hloop,ht,hvalue⟩ := ih h' (by omega) hvalue'
    refine ⟨t,?_,ht,?_⟩
    · rw [binaryFloatDivLoop,hpass,bind_of_pure,hloop]
    · rw [hvalue,hsame,pow_succ]
      ring

theorem binaryFloatDiv_eq {p : Nat} (hw : 32 ≤ w) (h1 : 0 ≤ n1) (h2 : n1 < n2) (hfits : 2 * n2 < 2 ^ (w - 1))
    (hp : p ≤ 30) :
    ∃ r : Int, binaryFloatDiv w n1 n2 p = pure r ∧ r * n2 ≤ n1 * 2 ^ p ∧ n1 * 2 ^ p < (r + 1) * n2 ∧
      0 ≤ r ∧ r < 2 ^ p := by
  have hstart : Dividing w n2 (n1, 0) := ⟨h1,by show n1 < 2 * n2; omega,le_refl 0,hfits⟩
  have hvalue : 2 * ((n1, 0) : Int × Int).2 * n2 + ((n1, 0) : Int × Int).1 < 2 ^ 0 * n2 := by
    rw [pow_zero,one_mul,mul_zero,zero_mul,zero_add]
    exact h2
  obtain ⟨s',hloop,h',hsame⟩ := binaryFloatDivLoop_eq (k := p + 1) hstart hw (by omega) hvalue
  dsimp only at hsame
  rw [mul_zero,zero_mul,zero_add,pow_succ] at hsame
  have hpasses : ((p : Int) + 1).toNat = p + 1 := by omega
  refine ⟨s'.2,?_,?_,?_,h'.result,?_⟩
  · rw [binaryFloatDiv,hpasses,hloop,bind_of_pure]
  · have hnonneg := h'.nonneg
    linarith
  · have hbelow := h'.below
    linarith
  · have hlt := result_lt (k := p + 1) h' (by rw [hsame,pow_succ]; nlinarith [pow_pos (two_pos (α := Int)) p])
    rw [pow_succ] at hlt
    omega

end Division

/-! ## The fields -/

def joined (hsb msb lsb : Int) : Int := hsb * 4096 + msb * 16 + lsb

def joinedValue (hsb msb lsb : Nat) (calls : List FieldCall) : Option Int :=
  (lastValue hsb calls).bind fun high => (lastValue msb calls).bind fun middle =>
    (lastValue lsb calls).map fun low => joined high middle low

section Fields

variable {tmp up : Nat}

theorem joined_parts (h : tmp < 2 ^ 20) :
    joined ((tmp >>> 12) &&& 0xff : Nat) ((tmp >>> 4) &&& 0xff : Nat) (tmp &&& 0x0f : Nat) = tmp := by
  have hhsb : (tmp >>> 12) &&& 0xff = tmp / 4096 % 256 := by
    rw [Nat.shiftRight_eq_div_pow]
    exact Nat.and_two_pow_sub_one_eq_mod (tmp / 4096) 8
  have hmsb : (tmp >>> 4) &&& 0xff = tmp / 16 % 256 := by
    rw [Nat.shiftRight_eq_div_pow]
    exact Nat.and_two_pow_sub_one_eq_mod (tmp / 16) 8
  have hlsb : tmp &&& 0x0f = tmp % 16 := Nat.and_two_pow_sub_one_eq_mod tmp 4
  rw [joined,hhsb,hmsb,hlsb]
  omega

theorem joinedValue_calls (h : tmp < 2 ^ 20) :
    joinedValue symbFreqHsb symbFreqMsb symbFreqLsb (symbolRateCalls up tmp) = some (tmp : Int) :=
  congrArg some (joined_parts h)

theorem joinedValue_calls_up (h : up < 2 ^ 20) :
    joinedValue symbFreqUpHsb symbFreqUpMsb symbFreqUpLsb (symbolRateCalls up tmp) = some (up : Int) :=
  congrArg some (joined_parts h)

theorem binaryFloatDiv_masterClock {rate masterClock : Int} (h0 : 0 ≤ rate) (hrate : rate < masterClock)
    (hfits : 2 * masterClock < 2 ^ 31) :
    binaryFloatDiv 32 rate masterClock 20 = pure (rate * 2 ^ 20 / masterClock) ∧
      FitsUnsigned 32 (rate * 2 ^ 20 / masterClock) ∧ (rate * 2 ^ 20 / masterClock).toNat < 2 ^ 20 ∧
      ((rate * 2 ^ 20 / masterClock).toNat : Int) = rate * 2 ^ 20 / masterClock := by
  obtain ⟨r,hdiv,hlow,hhigh,hnonneg,hlt⟩ :=
    binaryFloatDiv_eq (p := 20) (le_refl 32) h0 hrate hfits (by decide)
  have hr : rate * 2 ^ 20 / masterClock = r := by
    have hpos : 0 < masterClock := by omega
    apply le_antisymm
    · exact Int.lt_add_one_iff.mp (Int.ediv_lt_of_lt_mul hpos hhigh)
    · exact Int.le_ediv_of_mul_le hpos hlow
  rw [hr]
  exact ⟨hdiv,⟨hnonneg,by omega⟩,by omega,Int.toNat_of_nonneg hnonneg⟩

theorem symbolRateFields_eq {masterClock symbolRate : Int} (h0 : 0 ≤ symbolRate)
    (hup : symbolRate + symbolRate * 3 / 100 < masterClock) (hfits : 2 * masterClock < 2 ^ 31) :
    symbolRateFields masterClock symbolRate = pure
      (symbolRateCalls ((symbolRate + symbolRate * 3 / 100) * 2 ^ 20 / masterClock).toNat
        (symbolRate * 2 ^ 20 / masterClock).toNat) := by
  have hproduct : FitsUnsigned 32 (symbolRate * 3) := ⟨by omega,by omega⟩
  have hsum : FitsUnsigned 32 (symbolRate + symbolRate * 3 / 100) := ⟨by omega,by omega⟩
  have hrate : FitsSigned 32 symbolRate := ⟨by omega,by omega⟩
  have hclock : FitsSigned 32 masterClock := ⟨by omega,by omega⟩
  have hrateUp : FitsSigned 32 (symbolRate + symbolRate * 3 / 100) := ⟨by omega,by omega⟩
  obtain ⟨hdiv,htmp,-,-⟩ := binaryFloatDiv_masterClock h0 (by omega) hfits
  obtain ⟨hdivUp,htmpUp,-,-⟩ := binaryFloatDiv_masterClock (by omega) hup hfits
  have h32 : 0 < 32 := by decide
  rw [symbolRateFields,unsigned_bind hproduct,unsigned_bind hsum,signed_bind h32 hrate,signed_bind h32 hclock,hdiv,
    bind_of_pure,unsigned_bind htmp,signed_bind h32 hrateUp,hdivUp,bind_of_pure,unsigned_bind htmpUp]

end Fields

/-- Where `STB0899_Init` has the fields of the symbol rate. -/
structure SymbolRateChip {H D : Type} (c : ChipInfo H D) : Prop where
  nbFields : c.nbFields = 1264
  hsb : c.fieldMap symbFreqHsb = .added sfrh 0 8 false
  msb : c.fieldMap symbFreqMsb = .added (sfrh + 1) 0 8 false
  lsb : c.fieldMap symbFreqLsb = .added (sfrh + 2) 4 4 false
  upHsb : c.fieldMap symbFreqUpHsb = .added sfruph 0 8 false
  upMsb : c.fieldMap symbFreqUpMsb = .added (sfruph + 1) 0 8 false
  upLsb : c.fieldMap symbFreqUpLsb = .added (sfruph + 2) 4 4 false

/-! ## The fraction -/

theorem binaryFloatDiv_floor {w : Nat} {n1 n2 p : Int} (hw : 32 ≤ w) (h1 : 0 ≤ n1) (h2 : n1 < n2)
    (hfits : 2 * n2 < 2 ^ (w - 1)) (hp : p ≤ 30) :
    ∃ r : Int, binaryFloatDiv w n1 n2 p = pure r ∧ r = ⌊(n1 : ℚ) * 2 ^ p / n2⌋ ∧ (r : ℚ) < 2 ^ p := by
  have hn1 : (0 : ℚ) ≤ n1 := by exact_mod_cast h1
  have hn2 : (0 : ℚ) < n2 := by exact_mod_cast lt_of_le_of_lt h1 h2
  rcases lt_or_ge p 0 with hneg | hnonneg
  · have hpasses : (p + 1).toNat = 0 := by omega
    have hpow : (0 : ℚ) < 2 ^ p := zpow_pos two_pos p
    have hle : (2 : ℚ) ^ p ≤ 1 := zpow_le_one_of_nonpos₀ one_le_two hneg.le
    refine ⟨0,?_,(Int.floor_eq_zero_iff.mpr ⟨?_,?_⟩).symm,by exact_mod_cast hpow⟩
    · rw [binaryFloatDiv,hpasses]
      rfl
    · positivity
    · rw [div_lt_one hn2]
      have hlt : (n1 : ℚ) < n2 := by exact_mod_cast h2
      exact lt_of_le_of_lt (mul_le_of_le_one_right hn1 hle) hlt
  · obtain ⟨k,rfl⟩ := Int.eq_ofNat_of_zero_le hnonneg
    obtain ⟨r,hdiv,hlow,hhigh,-,hlt⟩ := binaryFloatDiv_eq hw h1 h2 hfits (by omega : k ≤ 30)
    rw [zpow_natCast]
    refine ⟨r,hdiv,(Int.floor_eq_iff.mpr ⟨?_,?_⟩).symm,by exact_mod_cast hlt⟩
    · rw [le_div_iff₀ hn2]
      exact_mod_cast hlow
    · rw [div_lt_iff₀ hn2]
      exact_mod_cast hhigh

end LinuxDvb.Stb0899
