import LinuxDvb.Frontends.Stb0899.Fields
import LinuxDvb.Frontends.Stb0899.Util

/-!
# The DVB-S2 symbol rate of the STB0899

The oscillator word of the timing loop is the product of the symbol rate in kHz and a power of two, divided by the
master clock.
-/

namespace LinuxDvb.Stb0899

open Arith

/-! ## The code -/

def btrNcoBits : Nat := 28

/-- `RSTB0899_DECIMCNTRL` -/
def decimcntrl : Nat := 106

/-- `FSTB0899_DECIM_RATE`, as `STB0899_Init` adds it. -/
def decimRateField : Field := .added decimcntrl 0 3 false

def decimRatio (symbolRate masterClock : Nat) : Arith Nat := do
  let double ← wordNat 32 (masterClock * 2)
  let five ← wordNat 32 (5 * symbolRate)
  let ratio ← divNat double five
  pure (if ratio = 0 then 1 else ratio)

def decimation (fuel decimRatio : Nat) : Arith (Nat × Nat) := do
  let logarithm ← log2Int fuel decimRatio
  let decimRate ← toWord 32 logarithm
  let shifted ← signed 32 (2 ^ decimRate)
  let decimation ← toWord 32 shifted
  pure (decimRate, decimation)

/-- `PowOf2`, as an operand of unsigned arithmetic. -/
def powOf2Word (number : Nat) : Arith Nat := powOf2 number >>= toWord 32

/-- The quotient and the remainder in `DVBS2CalclSymbRate`. -/
def ncoParts (decimation nco masterClock : Nat) : Arith (Nat × Nat) :=
  if decimation ≤ 4 then do
    let product ← wordNat 32 (decimation * nco)
    let intval ← divNat product masterClock
    let remain ← modNat product masterClock
    pure (intval, remain)
  else do
    let hundredth ← divNat masterClock 100
    let part ← divNat nco hundredth
    let scaled ← wordNat 32 (part * decimation)
    let intval ← divNat scaled 100
    let product ← wordNat 32 (decimation * nco)
    let remain ← modNat product masterClock
    pure (intval, remain)

def dvbs2CalclSymbRate (fuel symbolRate masterClock : Nat) : Arith Nat := do
  let ratio ← decimRatio symbolRate masterClock
  let (_, decimation) ← decimation fuel ratio
  let masterClock ← divNat masterClock 1000
  let symbolRate ← divNat symbolRate 1000
  let nco ← powOf2Word (btrNcoBits - 1)
  let (intval, remain) ← ncoParts decimation nco masterClock
  let whole ← wordNat 32 (intval * symbolRate)
  let rest ← wordNat 32 (remain * symbolRate)
  let fraction ← divNat rest masterClock
  wordNat 32 (whole + fraction)

def calcCorrection (symbolRate masterClock : Nat) : Arith Nat := do
  let ratio ← decimRatio symbolRate masterClock
  let masterClock ← divNat masterClock 1000
  let symbolRate ← divNat symbolRate 1000
  let numerator ← wordNat 32 (512 * masterClock)
  let double ← wordNat 32 (2 * ratio)
  let denominator ← wordNat 32 (double * symbolRate)
  divNat numerator denominator

/-- What `FE_DVBS2_SetSymbolRate` writes. -/
structure Dvbs2RateRegisters where
  decimcntrl : Nat
  antialiassel : Nat
  btrnomfreq : Nat
  btrfreqCorr : Nat
  freqadjscale : Nat
  deriving DecidableEq

/-- `FE_DVBS2_SetSymbolRate` -/
def dvbs2SetSymbolRate (fuel symbolRate masterClock : Nat) : Arith Dvbs2RateRegisters := do
  let ratio ← decimRatio symbolRate masterClock
  let (decimRate, decimation) ← decimation fuel ratio
  let winSel := if decimRate ≥ 5 then decimRate - 4 else 0
  let product ← wordNat 32 (decimation * symbolRate)
  let thousandth ← divNat product 1000
  let fSymovSr ← divNat masterClock thousandth
  let bandLimit := if fSymovSr ≤ 2250 then 1 else 0
  let control ← wordNat 32 (((winSel <<< 3) &&& 0x18) + ((bandLimit <<< 5) &&& 0x20) + (decimRate &&& 0x7))
  let antialiassel := if fSymovSr ≤ 3450 then 0 else if fSymovSr ≤ 4250 then 1 else 2
  let btrNomFreq ← dvbs2CalclSymbRate fuel symbolRate masterClock
  let correction ← calcCorrection symbolRate masterClock
  let scale ← divNat masterClock 4096
  let freqAdjScl ← divNat symbolRate scale
  pure ⟨control, antialiassel, btrNomFreq, correction, freqAdjScl⟩

/-- `FE_DVBS2_GetSymbolRate`, from the two registers that it reads. -/
def dvbs2GetSymbolRate (btrnomfreq decimcntrl : UInt32) (masterClock : Nat) : Arith Nat := do
  let div1 := btrNcoBits / 2
  let div2 := btrNcoBits - div1 - 1
  let bTrNomFreq := btrnomfreq.toNat
  let decimRate ← powOf2 (decimRateField.extract decimcntrl)
  let decimRate ← toWord 32 decimRate
  let power1 ← powOf2Word div1
  let power2 ← powOf2Word div2
  let intval1 ← divNat masterClock power1
  let intval2 ← divNat bTrNomFreq power2
  let rem1 ← modNat masterClock power1
  let rem2 ← modNat bTrNomFreq power2
  let product ← wordNat 32 (intval1 * intval2)
  let left ← wordNat 32 (intval1 * rem2)
  let left ← divNat left power2
  let right ← wordNat 32 (intval2 * rem1)
  let right ← divNat right power1
  let sum ← wordNat 32 (product + left)
  let symbolRate ← wordNat 32 (sum + right)
  divNat symbolRate decimRate

/-- The master clock that `FE_STB0899_Search` selects. -/
def searchClock (symbolRate : Nat) : Nat := if symbolRate ≤ 5000000 then 45000000 else 108000000

/-! ## The decimation -/

section Decimation

variable {symbolRate masterClock fuel r : Nat}

/-- A symbol rate with its clock, and the logarithm of its decimation. -/
structure DecimatedRate (symbolRate masterClock ratio r : Nat) : Prop where
  low : 1000000 ≤ symbolRate
  clock : masterClock = 45000000 ∧ symbolRate ≤ 5000000 ∧ r ≤ 4 ∨
    masterClock = 108000000 ∧ symbolRate ≤ 45000000 ∧ r ≤ 3
  lower : 2 ^ r ≤ ratio
  upper : ratio < 2 ^ (r + 1)
  ratio_le : ratio ≤ 18

theorem powOf2Word_eq {n : Nat} (hn : n ≤ 30) : powOf2Word n = pure (2 ^ n) := by
  have hlt : (2 : Nat) ^ n < 2 ^ 32 := Nat.pow_lt_pow_right (by decide) (by omega)
  have hcast : (2 : Int) ^ n = ((2 ^ n : Nat) : Int) := (Int.natCast_pow 2 n).symm
  rw [powOf2Word,powOf2_eq hn,bind_of_pure,toWord_eq hcast hlt]

theorem decimRatio_eq (hlow : 1000000 ≤ symbolRate) (hhigh : symbolRate ≤ 45000000) :
    ∃ ratio r, decimRatio symbolRate (searchClock symbolRate) = pure ratio ∧
      DecimatedRate symbolRate (searchClock symbolRate) ratio r := by
  have hclock : searchClock symbolRate = 45000000 ∧ symbolRate ≤ 5000000 ∨
      searchClock symbolRate = 108000000 ∧ 5000000 < symbolRate := by
    rw [searchClock]
    split
    case isTrue h => exact Or.inl ⟨rfl,h⟩
    case isFalse h => exact Or.inr ⟨rfl,by omega⟩
  generalize searchClock symbolRate = masterClock at hclock
  have hdouble : masterClock * 2 < 2 ^ 32 := by omega
  have hfive : 5 * symbolRate < 2 ^ 32 := by omega
  have hnonzero : 5 * symbolRate ≠ 0 := by omega
  have hvalue : decimRatio symbolRate masterClock =
      pure (if masterClock * 2 / (5 * symbolRate) = 0 then 1 else masterClock * 2 / (5 * symbolRate)) := by
    rw [decimRatio,wordNat_bind hdouble,wordNat_bind hfive,divNat_bind hnonzero]
  -- the ratio decreases with the rate
  have hratio : masterClock * 2 / (5 * symbolRate) ≤ 18 ∧
      (masterClock = 108000000 → masterClock * 2 / (5 * symbolRate) ≤ 8) := by
    constructor
    · apply Nat.le_of_lt_succ
      rw [Nat.div_lt_iff_lt_mul (by omega)]
      omega
    · intro hfast
      apply Nat.le_of_lt_succ
      rw [Nat.div_lt_iff_lt_mul (by omega)]
      omega
  rw [hvalue]
  generalize masterClock * 2 / (5 * symbolRate) = quotient at hratio
  obtain ⟨ratio,hpos,hle,hfast,hsame⟩ : ∃ ratio, 0 < ratio ∧ ratio ≤ 18 ∧
      (masterClock = 108000000 → ratio ≤ 8) ∧ (if quotient = 0 then 1 else quotient) = ratio := by
    refine ⟨if quotient = 0 then 1 else quotient,?_,?_,?_,rfl⟩
    · split
      · omega
      · omega
    · split
      · omega
      · omega
    · split
      · omega
      · exact hratio.2
  rw [hsame]
  have hlog : ratio < 2 ^ (ratio.log2 + 1) := Nat.lt_log2_self
  have hlog' : 2 ^ ratio.log2 ≤ ratio := Nat.log2_self_le (by omega)
  have hfour : ratio.log2 < 5 := (Nat.log2_lt (by omega)).mpr (by omega)
  have hthree : masterClock = 108000000 → ratio.log2 < 4 := fun h =>
    (Nat.log2_lt (by omega)).mpr (Nat.lt_of_le_of_lt (hfast h) (by decide))
  refine ⟨ratio,ratio.log2,rfl,hlow,?_,hlog',hlog,hle⟩
  rcases hclock with ⟨hslow,hrate⟩ | ⟨hquick,hrate⟩
  · exact Or.inl ⟨hslow,hrate,by omega⟩
  · exact Or.inr ⟨hquick,hhigh,by have := hthree hquick; omega⟩

theorem decimation_eq {ratio : Nat} (h : DecimatedRate symbolRate masterClock ratio r) (hfuel : 6 ≤ fuel) :
    decimation fuel ratio = pure (r, 2 ^ r) := by
  have hr : r ≤ 4 := by
    rcases h.clock with ⟨-,-,hle⟩ | ⟨-,-,hle⟩
    · exact hle
    · omega
  have hlower : (2 : Int) ^ r ≤ (ratio : Int) := by exact_mod_cast h.lower
  have hupper : (ratio : Int) < 2 ^ (r + 1) := by exact_mod_cast h.upper
  have hpow : (2 : Nat) ^ r ≤ 2 ^ 4 := Nat.pow_le_pow_right (by decide) hr
  have hcast : (2 : Int) ^ r = ((2 ^ r : Nat) : Int) := (Int.natCast_pow 2 r).symm
  have hsigned : FitsSigned 32 (2 ^ r) := by
    rw [hcast]
    exact ⟨by omega,by omega⟩
  rw [decimation,log2Int_eq hlower hupper (by omega) (by omega),bind_of_pure,
    toWord_bind (rfl : (r : Int) = r) (by omega),signed_bind (by decide) hsigned,toWord_bind hcast (by omega)]

end Decimation

/-! ## The oscillator word -/

theorem mul_div_parts {d m k : Nat} (hm : 0 < m) : d / m * k + d % m * k / m = d * k / m := by
  have hsplit : d * k = m * (d / m * k) + d % m * k := by
    calc d * k = (m * (d / m) + d % m) * k := by rw [Nat.div_add_mod]
      _ = m * (d / m * k) + d % m * k := by rw [Nat.add_mul,Nat.mul_assoc]
  rw [hsplit,Nat.mul_add_div hm]

section Word

variable {symbolRate masterClock ratio fuel r : Nat}

def btrNomFreq (r symbolRate masterClock : Nat) : Nat := 2 ^ r * 2 ^ 27 * symbolRate / masterClock

theorem DecimatedRate.cases (h : DecimatedRate symbolRate masterClock ratio r) :
    masterClock = 45000000 ∧ symbolRate ≤ 5000000 ∧ (r = 0 ∨ r = 1 ∨ r = 2 ∨ r = 3 ∨ r = 4) ∨
      masterClock = 108000000 ∧ symbolRate ≤ 45000000 ∧ (r = 0 ∨ r = 1 ∨ r = 2 ∨ r = 3) := by
  rcases h.clock with ⟨hclock,hrate,hr⟩ | ⟨hclock,hrate,hr⟩
  · exact Or.inl ⟨hclock,hrate,by omega⟩
  · exact Or.inr ⟨hclock,hrate,by omega⟩

theorem ncoParts_eq (h : DecimatedRate symbolRate masterClock ratio r) :
    ncoParts (2 ^ r) (2 ^ 27) (masterClock / 1000) =
      pure (2 ^ r * 2 ^ 27 / (masterClock / 1000), 2 ^ r * 2 ^ 27 % (masterClock / 1000)) := by
  have hcases := h.cases
  have hclock : masterClock / 1000 ≠ 0 := by omega
  have hhundredth : masterClock / 1000 / 100 ≠ 0 := by omega
  have hproduct : 2 ^ r * 2 ^ 27 < 2 ^ 32 := by
    rcases hcases with ⟨-,-,rfl | rfl | rfl | rfl | rfl⟩ | ⟨-,-,rfl | rfl | rfl | rfl⟩ <;> decide
  rw [ncoParts]
  split
  · rw [wordNat_bind hproduct,divNat_bind hclock,modNat_bind hclock]
  case isFalse hdecimation =>
    -- only the last decimations are left
    have hscaled : 2 ^ 27 / (masterClock / 1000 / 100) * 2 ^ r < 2 ^ 32 ∧
        2 ^ 27 / (masterClock / 1000 / 100) * 2 ^ r / 100 = 2 ^ r * 2 ^ 27 / (masterClock / 1000) := by
      rcases hcases with ⟨rfl,-,rfl | rfl | rfl | rfl | rfl⟩ | ⟨rfl,-,rfl | rfl | rfl | rfl⟩ <;>
        first
        | exact absurd (by decide) hdecimation
        | decide
    rw [divNat_bind (by decide),divNat_bind hhundredth,wordNat_bind hscaled.1,divNat_bind (by decide),
      wordNat_bind hproduct,modNat_bind hclock,hscaled.2]

theorem dvbs2CalclSymbRate_eq (h : DecimatedRate symbolRate masterClock ratio r)
    (hratio : decimRatio symbolRate masterClock = pure ratio) (hfuel : 6 ≤ fuel) :
    dvbs2CalclSymbRate fuel symbolRate masterClock =
      pure (btrNomFreq r (symbolRate / 1000) (masterClock / 1000)) := by
  have hcases := h.cases
  have hclock : masterClock / 1000 ≠ 0 := by omega
  have hparts : 2 ^ r * 2 ^ 27 / (masterClock / 1000) * (symbolRate / 1000) < 2 ^ 31 ∧
      2 ^ r * 2 ^ 27 % (masterClock / 1000) * (symbolRate / 1000) < 2 ^ 32 := by
    rcases hcases with ⟨rfl,hrate,rfl | rfl | rfl | rfl | rfl⟩ | ⟨rfl,hrate,rfl | rfl | rfl | rfl⟩ <;> omega
  have hfraction : 2 ^ r * 2 ^ 27 % (masterClock / 1000) * (symbolRate / 1000) / (masterClock / 1000) < 2 ^ 31 := by
    apply Nat.div_lt_of_lt_mul
    omega
  have hpow : powOf2Word (btrNcoBits - 1) = pure (2 ^ 27) := powOf2Word_eq (by decide)
  rw [dvbs2CalclSymbRate,hratio,bind_of_pure,decimation_eq h hfuel,bind_of_pure]
  dsimp only
  rw [divNat_bind (by decide),divNat_bind (by decide),hpow,bind_of_pure,ncoParts_eq h,bind_of_pure]
  dsimp only
  rw [wordNat_bind (Nat.lt_of_lt_of_le hparts.1 (by decide)),wordNat_bind hparts.2,divNat_bind hclock,
    wordNat_eq (by omega),mul_div_parts (by omega),btrNomFreq]

theorem btrNomFreq_lt (h : DecimatedRate symbolRate masterClock ratio r) :
    btrNomFreq r (symbolRate / 1000) (masterClock / 1000) < 2 ^ 32 := by
  have hcases := h.cases
  rw [btrNomFreq]
  rcases hcases with ⟨rfl,hrate,rfl | rfl | rfl | rfl | rfl⟩ | ⟨rfl,hrate,rfl | rfl | rfl | rfl⟩ <;> omega

theorem calcCorrection_eq (h : DecimatedRate symbolRate masterClock ratio r)
    (hratio : decimRatio symbolRate masterClock = pure ratio) :
    calcCorrection symbolRate masterClock =
      pure (512 * (masterClock / 1000) / (2 * ratio * (symbolRate / 1000))) := by
  have hcases := h.cases
  have hlow := h.low
  have hle := h.ratio_le
  have hpos : 0 < ratio := Nat.lt_of_lt_of_le (Nat.two_pow_pos r) h.lower
  have hnumerator : 512 * (masterClock / 1000) < 2 ^ 32 := by omega
  have hdouble : 2 * ratio < 2 ^ 32 := by omega
  have hdenominator : 2 * ratio * (symbolRate / 1000) ≤ 36 * 45000 :=
    Nat.mul_le_mul (by omega) (by omega)
  have hnonzero : 2 * ratio * (symbolRate / 1000) ≠ 0 := Nat.mul_ne_zero (by omega) (by omega)
  rw [calcCorrection,hratio,bind_of_pure,divNat_bind (by decide),divNat_bind (by decide),wordNat_bind hnumerator,
    wordNat_bind hdouble,wordNat_bind (by omega),divNat_eq hnonzero]

end Word

/-! ## Writing and reading back -/

section RoundTrip

variable {symbolRate masterClock ratio fuel r : Nat}

theorem control_eq {bandLimit : Nat} (hr : r ≤ 4) (hband : bandLimit ≤ 1) :
    (((0 <<< 3) &&& 0x18) + ((bandLimit <<< 5) &&& 0x20) + (r &&& 0x7) : Nat) = 32 * bandLimit + r := by
  have hcases : (r = 0 ∨ r = 1 ∨ r = 2 ∨ r = 3 ∨ r = 4) ∧ (bandLimit = 0 ∨ bandLimit = 1) := by omega
  rcases hcases with ⟨rfl | rfl | rfl | rfl | rfl,rfl | rfl⟩ <;> rfl

theorem dvbs2SetSymbolRate_eq (h : DecimatedRate symbolRate masterClock ratio r)
    (hratio : decimRatio symbolRate masterClock = pure ratio) (hfuel : 6 ≤ fuel) :
    ∃ registers : Dvbs2RateRegisters, dvbs2SetSymbolRate fuel symbolRate masterClock = pure registers ∧
      registers.btrnomfreq = btrNomFreq r (symbolRate / 1000) (masterClock / 1000) ∧
      registers.decimcntrl < 2 ^ 32 ∧ registers.decimcntrl % 8 = r := by
  have hcases := h.cases
  have hlow := h.low
  have hr : r ≤ 4 := by omega
  have hproduct : 2 ^ r * symbolRate < 2 ^ 32 ∧ 2 ^ r * symbolRate / 1000 ≠ 0 := by
    rcases hcases with ⟨-,hrate,rfl | rfl | rfl | rfl | rfl⟩ | ⟨-,hrate,rfl | rfl | rfl | rfl⟩ <;> omega
  have hscale : masterClock / 4096 ≠ 0 := by omega
  have hwin : (if r ≥ 5 then r - 4 else 0) = 0 := if_neg (by omega)
  obtain ⟨bandLimit,hband,hle⟩ : ∃ bandLimit,
      (if masterClock / (2 ^ r * symbolRate / 1000) ≤ 2250 then 1 else 0) = bandLimit ∧ bandLimit ≤ 1 := by
    refine ⟨_,rfl,?_⟩
    split
    · exact Nat.le_refl 1
    · exact Nat.zero_le 1
  have hset : dvbs2SetSymbolRate fuel symbolRate masterClock = pure
      { decimcntrl := 32 * bandLimit + r
        antialiassel := if masterClock / (2 ^ r * symbolRate / 1000) ≤ 3450 then 0
          else if masterClock / (2 ^ r * symbolRate / 1000) ≤ 4250 then 1 else 2
        btrnomfreq := btrNomFreq r (symbolRate / 1000) (masterClock / 1000)
        btrfreqCorr := 512 * (masterClock / 1000) / (2 * ratio * (symbolRate / 1000))
        freqadjscale := symbolRate / (masterClock / 4096) } := by
    rw [dvbs2SetSymbolRate,hratio,bind_of_pure,decimation_eq h hfuel,bind_of_pure]
    dsimp only
    rw [wordNat_bind hproduct.1,divNat_bind (by decide),divNat_bind hproduct.2,hwin,hband,control_eq hr hle,
      wordNat_bind (by omega),dvbs2CalclSymbRate_eq h hratio hfuel,bind_of_pure,calcCorrection_eq h hratio,
      bind_of_pure,divNat_bind (by decide),divNat_bind hscale]
  exact ⟨_,hset,rfl,(by omega : 32 * bandLimit + r < 2 ^ 32),(by omega : (32 * bandLimit + r) % 8 = r)⟩

def readRate (r word masterClock : Nat) : Nat :=
  (masterClock / 2 ^ 14 * (word / 2 ^ 13) + masterClock / 2 ^ 14 * (word % 2 ^ 13) / 2 ^ 13 +
    word / 2 ^ 13 * (masterClock % 2 ^ 14) / 2 ^ 14) / 2 ^ r

theorem dvbs2GetSymbolRate_eq (h : DecimatedRate symbolRate masterClock ratio r) {word control : Nat}
    (hword : word = btrNomFreq r (symbolRate / 1000) (masterClock / 1000)) (hcontrol : control < 2 ^ 32)
    (hr : control % 8 = r) :
    dvbs2GetSymbolRate (UInt32.ofNat word) (UInt32.ofNat control) masterClock =
      pure (readRate r word masterClock) := by
  have hcases := h.cases
  have hle : r ≤ 4 := by omega
  have hfits := btrNomFreq_lt h
  rw [← hword] at hfits
  have hproper : decimRateField.Proper := ⟨by decide,by decide,by decide,rfl⟩
  have hpos : decimRateField.pos = 0 := rfl
  have height : 2 ^ decimRateField.bits = 8 := rfl
  have htoNat : (UInt32.ofNat word).toNat = word := by
    rw [UInt32.toNat_ofNat']
    exact Nat.mod_eq_of_lt hfits
  have hfield : decimRateField.extract (UInt32.ofNat control) = (r : Nat) := by
    rw [hproper.extract_eq rfl,hpos,height,Nat.pow_zero,Nat.div_one,UInt32.toNat_ofNat',
      Nat.mod_eq_of_lt hcontrol,hr]
  have hpow : (2 : Nat) ^ r < 2 ^ 32 := Nat.pow_lt_pow_right (by decide) (by omega)
  have hcast : (2 : Int) ^ r = ((2 ^ r : Nat) : Int) := (Int.natCast_pow 2 r).symm
  have hlow : powOf2Word (btrNcoBits / 2) = pure (2 ^ 14) := powOf2Word_eq (by decide)
  have hhigh : powOf2Word (btrNcoBits - btrNcoBits / 2 - 1) = pure (2 ^ 13) := powOf2Word_eq (by decide)
  -- the parts of the product fit, as the word has less than 30 bits
  have hsmall : word < 2 ^ 29 := by
    rw [hword,btrNomFreq]
    rcases hcases with ⟨rfl,hrate,rfl | rfl | rfl | rfl | rfl⟩ | ⟨rfl,hrate,rfl | rfl | rfl | rfl⟩ <;> omega
  have hproduct : masterClock / 2 ^ 14 * (word / 2 ^ 13) < 2 ^ 30 := by
    rcases hcases with ⟨rfl,-,-⟩ | ⟨rfl,-,-⟩ <;> omega
  have hleft : masterClock / 2 ^ 14 * (word % 2 ^ 13) < 2 ^ 30 := by
    rcases hcases with ⟨rfl,-,-⟩ | ⟨rfl,-,-⟩ <;> omega
  have hright : word / 2 ^ 13 * (masterClock % 2 ^ 14) < 2 ^ 31 := by
    rcases hcases with ⟨rfl,-,-⟩ | ⟨rfl,-,-⟩ <;> omega
  rw [dvbs2GetSymbolRate,htoNat,hfield,powOf2_eq (by omega),bind_of_pure,toWord_bind hcast hpow,hlow,bind_of_pure,hhigh,
    bind_of_pure,divNat_bind (by decide),divNat_bind (by decide),modNat_bind (by decide),modNat_bind (by decide),
    wordNat_bind (by omega),wordNat_bind (by omega),divNat_bind (by decide),wordNat_bind (by omega),
    divNat_bind (by decide),wordNat_bind (by omega),wordNat_bind (by omega),
    divNat_eq (Nat.ne_of_gt (Nat.two_pow_pos r)),readRate]

theorem readRate_near (h : DecimatedRate symbolRate masterClock ratio r) :
    readRate r (btrNomFreq r (symbolRate / 1000) (masterClock / 1000)) masterClock ≤ symbolRate ∧
      symbolRate < readRate r (btrNomFreq r (symbolRate / 1000) (masterClock / 1000)) masterClock + 1010 := by
  have hcases := h.cases
  rw [readRate,btrNomFreq]
  rcases hcases with ⟨rfl,hrate,rfl | rfl | rfl | rfl | rfl⟩ | ⟨rfl,hrate,rfl | rfl | rfl | rfl⟩ <;> omega

end RoundTrip

/-- A DVB-S2 symbol rate is set without a fault, and read back less than 1010 below. -/
theorem dvbs2SymbolRate_round_trip (symbolRate fuel : Nat) (hlow : 1000000 ≤ symbolRate)
    (hhigh : symbolRate ≤ 45000000) (hfuel : 6 ≤ fuel) :
    (dvbs2SetSymbolRate fuel symbolRate (searchClock symbolRate)).Clean ∧
      (dvbs2GetSymbolRate (UInt32.ofNat (dvbs2SetSymbolRate fuel symbolRate (searchClock symbolRate)).value.btrnomfreq)
        (UInt32.ofNat (dvbs2SetSymbolRate fuel symbolRate (searchClock symbolRate)).value.decimcntrl)
        (searchClock symbolRate)).Clean ∧
      (dvbs2GetSymbolRate (UInt32.ofNat (dvbs2SetSymbolRate fuel symbolRate (searchClock symbolRate)).value.btrnomfreq)
        (UInt32.ofNat (dvbs2SetSymbolRate fuel symbolRate (searchClock symbolRate)).value.decimcntrl)
        (searchClock symbolRate)).value ≤ symbolRate ∧
      symbolRate < (dvbs2GetSymbolRate
        (UInt32.ofNat (dvbs2SetSymbolRate fuel symbolRate (searchClock symbolRate)).value.btrnomfreq)
        (UInt32.ofNat (dvbs2SetSymbolRate fuel symbolRate (searchClock symbolRate)).value.decimcntrl)
        (searchClock symbolRate)).value + 1010 := by
  obtain ⟨ratio, r, hratio, h⟩ := decimRatio_eq hlow hhigh
  obtain ⟨registers, hset, hword, hcontrol, hr⟩ := dvbs2SetSymbolRate_eq h hratio hfuel
  rw [hset, Logged.value_pure, dvbs2GetSymbolRate_eq h hword hcontrol hr, Logged.value_pure, hword]
  exact ⟨clean_pure _, clean_pure _, readRate_near h⟩

/-- 27.5 MBaud. -/
theorem dvbs2SymbolRate_round_trip_27500000 : (dvbs2SetSymbolRate 6 27500000 (searchClock 27500000)).Clean :=
  (dvbs2SymbolRate_round_trip 27500000 6 (by decide) (by decide) (by decide)).1

end LinuxDvb.Stb0899
