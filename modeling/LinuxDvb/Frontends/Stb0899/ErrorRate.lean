import LinuxDvb.Frontends.Stb0899.Search
import LinuxDvb.Frontends.Stb0899.Fields
import LinuxDvb.Frontends.Stb0899.Util

/-!
# Error rates of the STB0899

Five readings of an error counter are added up and scaled by the number of events that the driver has programmed.
-/

namespace LinuxDvb.Stb0899

open Arith

/-! ## The code -/

/-- `RSTB0899_ERRCTRL1` -/
def errctrl1 : Nat := 356

/-- `FSTB0899_NOE`, as `STB0899_Init` adds it. -/
def noe : Field := .added errctrl1 0 3 false

/-- `FE_STB0899_GetErrorCount`, from the two bytes of a counter. -/
def getErrorCount (lsb msb : UInt32) : UInt32 := ((msb &&& 0xff) <<< 8) + (lsb &&& 0xff)

abbrev CounterReadings := Nat → UInt32 × UInt32

def CounterReadings.count (readings : CounterReadings) (i : Nat) : Nat :=
  (getErrorCount (readings i).1 (readings i).2).toNat

/-- The loop over the readings in `FE_STB0899_GetError`. -/
def addCounts (readings : CounterReadings) : Nat → Nat → Int → Arith Int
  | 0, _, ber => pure ber
  | passes + 1, i, ber => unsigned 32 (ber + readings.count i) >>= addCounts readings passes (i + 1)

/-- `-1 + PowOf2(..)`, as a divisor. -/
def events (number : Int) : Arith Int := do
  let power ← powOf2 number
  let divisor ← signed 32 (-1 + power)
  unsigned 32 divisor

/-- What `FE_STB0899_GetError` writes into `ERRCTRL1`. -/
def errctrl1Value : CodingStandard → UInt32
  | .dvbs1 | .dss => 0x3d
  | .dvbs2 => 0xb6

/-- `FE_STB0899_GetError`. The number of events is read from the image that has just been written. -/
def getError (standard : CodingStandard) (readings : CounterReadings) (prfvit : Int) : Arith Int :=
  let number := noe.extract (errctrl1Value standard)
  match standard with
  | .dvbs1 | .dss => do
    let ber ← addCounts readings 5 0 0
    let ber ← quotient ber 5
    if prfvit ≠ 0 then do
      let ber ← unsigned 32 (ber * 9766)
      let divisor ← events (0 + 2 * number)
      let ber ← quotient ber divisor
      quotient ber 8
    else pure ber
  | .dvbs2 => do
    let ber ← addCounts readings 5 0 0
    let ber ← unsigned 32 (ber * 10000000)
    let divisor ← events (4 + 2 * number)
    quotient ber divisor

/-! ## The parts -/

section Parts

variable {readings readings' : CounterReadings} {prfvit : Int}

theorem CounterReadings.count_lt (readings : CounterReadings) (i : Nat) : readings.count i < 65536 := by
  have hmask : (0xff : UInt32).toNat = 2 ^ 8 - 1 := rfl
  have height : (8 : UInt32).toNat % 32 = 8 := rfl
  rw [CounterReadings.count,getErrorCount,UInt32.toNat_add,UInt32.toNat_shiftLeft,UInt32.toNat_and,
    UInt32.toNat_and,hmask,height,Nat.and_two_pow_sub_one_eq_mod,Nat.and_two_pow_sub_one_eq_mod,Nat.shiftLeft_eq]
  omega

def CounterReadings.sum (readings : CounterReadings) : Nat :=
  readings.count 0 + readings.count 1 + readings.count 2 + readings.count 3 + readings.count 4

theorem CounterReadings.sum_le (readings : CounterReadings) : readings.sum ≤ 327675 := by
  have hlt := readings.count_lt
  have h0 := hlt 0
  have h1 := hlt 1
  have h2 := hlt 2
  have h3 := hlt 3
  have h4 := hlt 4
  rw [CounterReadings.sum]
  omega

theorem CounterReadings.sum_mono (h : ∀ i < 5, readings'.count i ≤ readings.count i) :
    readings'.sum ≤ readings.sum := by
  have h0 := h 0 (by decide)
  have h1 := h 1 (by decide)
  have h2 := h 2 (by decide)
  have h3 := h 3 (by decide)
  have h4 := h 4 (by decide)
  rw [CounterReadings.sum,CounterReadings.sum]
  omega

theorem addCounts_eq (readings : CounterReadings) : addCounts readings 5 0 0 = pure (readings.sum : Int) := by
  have hlt := readings.count_lt
  have hstep {passes i k : Nat} (hk : k ≤ 262140) : addCounts readings (passes + 1) i (k : Int) =
      addCounts readings passes (i + 1) ((k + readings.count i : Nat) : Int) := by
    have hcount := hlt i
    have hfits : FitsUnsigned 32 ((k : Int) + readings.count i) := ⟨by omega,by omega⟩
    rw [addCounts,unsigned_bind hfits,Int.natCast_add]
  have h0 := hlt 0
  have h1 := hlt 1
  have h2 := hlt 2
  have h3 := hlt 3
  calc addCounts readings 5 0 ((0 : Nat) : Int)
      = addCounts readings 4 1 ((0 + readings.count 0 : Nat) : Int) := hstep (by omega)
    _ = addCounts readings 3 2 ((0 + readings.count 0 + readings.count 1 : Nat) : Int) := hstep (by omega)
    _ = addCounts readings 2 3 ((0 + readings.count 0 + readings.count 1 + readings.count 2 : Nat) : Int) :=
      hstep (by omega)
    _ = addCounts readings 1 4 ((0 + readings.count 0 + readings.count 1 + readings.count 2 + readings.count 3 : Nat) :
        Int) := hstep (by omega)
    _ = addCounts readings 0 5 ((0 + readings.count 0 + readings.count 1 + readings.count 2 + readings.count 3 +
        readings.count 4 : Nat) : Int) := hstep (by omega)
    _ = pure (readings.sum : Int) := by
      rw [Nat.zero_add]
      rfl

theorem extract_noe {x : UInt32} : noe.extract x = (x.toNat % 8 : Nat) := by
  have hproper : noe.Proper := ⟨by decide,by decide,by decide,rfl⟩
  have hpos : noe.pos = 0 := rfl
  have hpow : 2 ^ noe.bits = 8 := rfl
  rw [hproper.extract_eq rfl,hpos,hpow,Nat.pow_zero,Nat.div_one]

theorem events_eq {n : Nat} (hn : n ≤ 30) : events n = pure (2 ^ n - 1) := by
  have hle : (2 : Nat) ^ n ≤ 2 ^ 30 := Nat.pow_le_pow_right (by decide) hn
  have hcast : (2 : Int) ^ n ≤ 2 ^ 30 := by exact_mod_cast hle
  have hpos : (0 : Int) < 2 ^ n := Int.pow_pos (by decide)
  rw [events,powOf2_eq hn,bind_of_pure,Int.add_comm,← Int.sub_eq_add_neg]
  generalize (2 : Int) ^ n = power at hcast hpos
  have hsigned : FitsSigned 32 (power - 1) := ⟨by omega,by omega⟩
  have hunsigned : FitsUnsigned 32 (power - 1) := ⟨by omega,by omega⟩
  rw [signed_bind (by decide) hsigned,unsigned_eq hunsigned]

theorem events_programmed : events (0 + 2 * noe.extract (errctrl1Value .dvbs1)) = pure 1023 ∧
      events (4 + 2 * noe.extract (errctrl1Value .dvbs2)) = pure 65535 := by
  rw [extract_noe,extract_noe]
  exact ⟨events_eq (n := 10) (by decide),events_eq (n := 16) (by decide)⟩

/-! ## The rates -/

theorem getError_dvbs1 : getError .dvbs1 readings prfvit =
      pure (if prfvit ≠ 0 then ((readings.sum / 5 * 9766 / 1023 / 8 : Nat) : Int) else (readings.sum / 5 : Nat)) := by
  have hsum := readings.sum_le
  have hfits : FitsUnsigned 32 (((readings.sum / 5 : Nat) : Int) * 9766) := ⟨by omega,by omega⟩
  have hfive : (readings.sum : Int).tdiv 5 = (readings.sum / 5 : Nat) := rfl
  rw [getError,addCounts_eq,bind_of_pure,quotient_bind (by decide),hfive]
  split
  · rw [unsigned_bind hfits,events_programmed.1,bind_of_pure,quotient_bind (by decide),quotient_eq (by decide)]
    rfl
  · rfl

theorem getError_dvbs2 (h : readings.sum < 430) :
    getError .dvbs2 readings prfvit = pure ((readings.sum * 10000000 / 65535 : Nat) : Int) := by
  have hfits : FitsUnsigned 32 ((readings.sum : Int) * 10000000) := ⟨by omega,by omega⟩
  rw [getError,addCounts_eq,bind_of_pure,unsigned_bind hfits,events_programmed.2,bind_of_pure,quotient_eq (by decide)]
  rfl

theorem clean_getError_dvbs2 : (getError .dvbs2 readings prfvit).Clean ↔ readings.sum < 430 := by
  constructor
  · intro hclean
    rw [getError,addCounts_eq,bind_of_pure,clean_bind,clean_unsigned] at hclean
    have hhigh := hclean.1.2
    omega
  · intro hsum
    rw [getError_dvbs2 hsum]
    exact clean_pure _

end Parts

/-- An error rate is computed without a fault, and monotone up to its readings, unless a sum for DVB-S2 is too large. -/
theorem getError_sound_iff (standard : CodingStandard) (readings : CounterReadings) (prfvit : Int) :
    ((getError standard readings prfvit).Clean ∧
      ∀ readings' : CounterReadings, (∀ i < 5, readings'.count i ≤ readings.count i) →
        (getError standard readings' prfvit).value ≤ (getError standard readings prfvit).value) ↔
      (standard = .dvbs2 → readings.sum < 430) := by
  have hdvbs1 : (getError .dvbs1 readings prfvit).Clean ∧
      ∀ readings' : CounterReadings, (∀ i < 5, readings'.count i ≤ readings.count i) →
        (getError .dvbs1 readings' prfvit).value ≤ (getError .dvbs1 readings prfvit).value := by
    rw [getError_dvbs1]
    refine ⟨clean_pure _, fun readings' hle => ?_⟩
    have hsum := CounterReadings.sum_mono hle
    rw [getError_dvbs1, Logged.value_pure, Logged.value_pure]
    split
    · omega
    · omega
  cases standard with
  | dvbs1 => exact ⟨fun _ h => (by cases h), fun _ => hdvbs1⟩
  | dss => exact ⟨fun _ h => (by cases h), fun _ => hdvbs1⟩
  | dvbs2 =>
    rw [clean_getError_dvbs2]
    refine ⟨fun hsound _ => hsound.1, fun h => ⟨h rfl, fun readings' hle => ?_⟩⟩
    have hsum := CounterReadings.sum_mono hle
    have hlt := h rfl
    rw [getError_dvbs2 hlt, getError_dvbs2 (by omega), Logged.value_pure, Logged.value_pure]
    omega

def manyErrors : CounterReadings := fun _ => (86, 0)

def fewerErrors : CounterReadings := fun i => (if i = 0 then 85 else 86, 0)

/-- The product wraps around, and the rate with more errors is the lower one. -/
theorem getError_wraps : ¬ (getError .dvbs2 manyErrors 1).Clean ∧ (∀ i < 5, fewerErrors.count i ≤ manyErrors.count i) ∧
    (getError .dvbs2 manyErrors 1).value < (getError .dvbs2 fewerErrors 1).value := by
  have hmany : manyErrors.sum = 430 := by decide
  have hfewer : fewerErrors.sum = 429 := by decide
  have hhigh : getError .dvbs2 fewerErrors 1 = pure ((fewerErrors.sum * 10000000 / 65535 : Nat) : Int) :=
    getError_dvbs2 (by rw [hfewer]; decide)
  refine ⟨?_, by decide, ?_⟩
  · rw [clean_getError_dvbs2, hmany]
    decide
  · rw [hhigh, hfewer, getError, addCounts_eq, bind_of_pure, hmany, Logged.value_bind, events_programmed.2, bind_of_pure,
      quotient_eq (by decide)]
    decide

end LinuxDvb.Stb0899
