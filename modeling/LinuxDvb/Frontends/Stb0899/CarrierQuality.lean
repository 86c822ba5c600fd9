import LinuxDvb.Frontends.Stb0899.Search
import LinuxDvb.Frontends.Stb0899.Util

/-!
# The carrier quality of the STB0899

For DVB-S2, the noise estimate is turned into tenths of a dB with a logarithm in fixed point. The result of the logarithm
is kept in a variable of 16 bits, and so nothing is left of it when it is scaled down by 24 bits.
-/

namespace LinuxDvb.Stb0899

open Arith

/-! ## The code -/

def l1d8 : List Int :=
  [8, 7, 6, 6, 5, 5, 5, 5] ++ List.replicate 8 4 ++ List.replicate 16 3 ++ List.replicate 32 2 ++ List.replicate 64 1 ++
    List.replicate 128 0

def dspNormalize (arg maxnorm : Int) : Int :=
  let input := if arg < 0 then -arg - 1 else arg
  let one := (input / 16777216 % 256).toNat
  let two := (input / 65536 % 256).toNat
  let three := (input / 256 % 256).toNat
  let four := (input % 256).toNat
  let retval :=
    if one ≠ 0 then l1d8.getD one 0 - 1
    else if two ≠ 0 then 7 + l1d8.getD two 0
    else if three ≠ 0 then 15 + l1d8.getD three 0
    else 23 + l1d8.getD four 0
  if retval > maxnorm then maxnorm else retval

def mult32x32 (a b : Int) : Arith Int := do
  let high ← signed 32 ((a / 65536) * (b / 65536))
  let high ← signed 32 (high * 2)
  let left ← signed 32 ((a / 65536) * (b % 65536))
  let right ← signed 32 ((b / 65536) * (a % 65536))
  let sum ← signed 32 (high + left / 32768)
  signed 32 (sum + right / 32768)

def log10Int (logarg : Int) : Arith Int := do
  let coeff0 := 1422945213
  let coeff1 := 2143609158
  let coeff2 := 724179374
  let powexp := dspNormalize logarg 32
  let logarg ← signed 32 (logarg * 2 ^ powexp.toNat)
  let signFlag := decide (powexp < 0)
  let powexp := if signFlag then -powexp else powexp
  let powval1 ← signed 32 ((31 - powexp) * 16777216)
  let powval4 ← mult32x32 logarg coeff1
  let powval5 ← signed 32 (coeff0 - powval4)
  let powval2 ← mult32x32 logarg logarg
  let powval3 ← mult32x32 powval2 coeff2
  let powval6 ← signed 32 (powval5 + powval3)
  let powval7 := powval6 / 32
  let powval8 ← signed 32 (powval1 - powval7)
  if signFlag then signed 32 (-powval8) else pure powval8

/-- `FE_STB0899_LOOKPOINT_t` -/
structure LookPoint where
  realval : Int
  regval : Int
  deriving DecidableEq

/-- What `CarrierGetQuality` reads from the chip. -/
structure QualityReadings where
  carrierFound : Int
  noiseIndMsb : Nat
  noiseIndLsb : Nat
  quant : Int
  esn0 : Int

def inRange (x y z : Int) : Bool := (x ≤ y ∧ y ≤ z) ∨ (z ≤ y ∧ y ≤ x)

def qualityInterval (point : Nat → LookPoint) (regval : Int) : Nat → Nat → Nat → Arith (Nat × Nat)
  | 0, imin, imax => ⟨(imin, imax), [.unfinished]⟩
  | fuel + 1, imin, imax =>
    if imax - imin > 1 then
      let i := (imax + imin) / 2
      if inRange (point imin).regval regval (point i).regval then qualityInterval point regval fuel imin i
      else qualityInterval point regval fuel i imax
    else pure (imin, imax)

/-- The branch of `CarrierGetQuality` for DVB-S and DSS. -/
def dvbs1Quality (fuel : Nat) (lookup : Option (List LookPoint)) (r : QualityReadings) : Arith Int :=
  match lookup with
  | none => pure 0
  | some table =>
    if r.carrierFound = 0 ∨ table = [] then pure 0
    else
      let point (i : Nat) := table.getD i ⟨0, 0⟩
      let regval : Int := (((r.noiseIndMsb &&& 0xff) <<< 8) + (r.noiseIndLsb &&& 0xff) : Nat)
      let last := table.length - 1
      if inRange (point 0).regval regval (point last).regval then do
        let (imin, imax) ← qualityInterval point regval fuel 0 last
        let product ← signed 32 ((regval - (point imin).regval) * ((point imax).realval - (point imin).realval))
        let scaled ← quotient product ((point imax).regval - (point imin).regval)
        let cn ← unsigned 16 (scaled + (point imin).realval)
        pure (if cn / 2 ≥ 100 then 98 else cn / 2)
      else if regval < (point 0).regval then pure 98
      else pure 0

def scaledQuality (logarithm : Int) : Arith Int := do
  let val2 ← unsigned 16 logarithm
  let product ← mult32x32 val2 646456993
  let val2 ← unsigned 16 product
  let val2 ← unsigned 16 (val2 * 10)
  let power ← powOf2 24
  let cn ← quotient val2 power
  unsigned 16 cn

/-- The branch of `CarrierGetQuality` for DVB-S2. -/
def dvbs2Quality (r : QualityReadings) : Arith Int := do
  let quant ← unsigned 16 r.quant
  let cn ← unsigned 16 r.esn0
  if cn = 1 then pure 301
  else if cn = 2 then pure 270
  else do
    let noise ← log10Int cn
    let quantisation ← log10Int quant
    let double ← signed 32 (2 * quantisation)
    let difference ← signed 32 (noise - double)
    let logarithm ← signed 32 (-10 * difference)
    scaledQuality logarithm

def carrierGetQuality (fuel : Nat) (lookup : Option (List LookPoint)) (standard : CodingStandard)
    (r : QualityReadings) : Arith Int :=
  match standard with
  | .dvbs1 | .dss => dvbs1Quality fuel lookup r
  | .dvbs2 => dvbs2Quality r

/-! ## What is left of the logarithm -/

def noiseQuality (n : Nat) : Int := if n % 65536 = 1 then 301 else if n % 65536 = 2 then 270 else 0

theorem value_unsigned (w : Nat) (x : Int) : (unsigned w x).value = x % 2 ^ w := rfl

theorem value_scaledQuality (logarithm : Int) : (scaledQuality logarithm).value = 0 := by
  have hpower : powOf2 24 = pure 16777216 := powOf2_eq (n := 24) (by decide)
  rw [scaledQuality,hpower]
  simp only [Logged.value_bind,bind_of_pure,value_unsigned]
  generalize (mult32x32 (logarithm % 2 ^ 16) 646456993).value % 2 ^ 16 * 10 = product
  have hnonneg : 0 ≤ product % 2 ^ 16 := Int.emod_nonneg product (by decide)
  have hlt : product % 2 ^ 16 < 65536 := Int.emod_lt_of_pos product (by decide)
  have hquotient : (quotient (product % 2 ^ 16) 16777216).value = 0 := by
    rw [quotient_eq (by decide),Logged.value_pure,Int.tdiv_eq_zero_of_lt hnonneg (by omega)]
  rw [hquotient]
  rfl

theorem value_carrierGetQuality (fuel : Nat) (lookup : Option (List LookPoint)) (r : QualityReadings) {n : Nat}
    (hn : r.esn0 = n) : (carrierGetQuality fuel lookup .dvbs2 r).value = noiseQuality n := by
  have hword : (unsigned 16 r.esn0).value = ((n % 65536 : Nat) : Int) := by
    rw [value_unsigned,hn]
    omega
  rw [carrierGetQuality,dvbs2Quality,Logged.value_bind,Logged.value_bind,hword,noiseQuality]
  by_cases hone : n % 65536 = 1
  · rw [if_pos hone,if_pos (by omega),Logged.value_pure]
  by_cases htwo : n % 65536 = 2
  · rw [if_neg hone,if_pos htwo,if_neg (by omega),if_pos (by omega),Logged.value_pure]
  · rw [if_neg hone,if_neg htwo,if_neg (by omega),if_neg (by omega)]
    simp only [Logged.value_bind,value_scaledQuality]

/-! ## The law of the noise estimate -/

theorem noiseQuality_le (n : Nat) : noiseQuality n ≤ 301 := by
  rw [noiseQuality]
  split
  · omega
  · split
    · omega
    · omega

theorem noiseQuality_falls_iff {n : Nat} (hn : n < 2 ^ 19) :
    (∀ m, n ≤ m → m < 2 ^ 19 → noiseQuality m ≤ noiseQuality n) ↔ n % 65536 = 1 ∨ 458754 ≤ n := by
  constructor
  · intro hfalls
    by_contra hneither
    obtain ⟨hone,hsmall⟩ := not_or.mp hneither
    have hlast := hfalls 458753 (by omega) (by decide)
    have hhigh : noiseQuality 458753 = 301 := rfl
    rw [hhigh,noiseQuality,if_neg hone] at hlast
    split at hlast
    · omega
    · omega
  · rintro (hone | hlarge) m hle hlt
    · have hhigh : noiseQuality n = 301 := if_pos hone
      rw [hhigh]
      exact noiseQuality_le m
    · have hnone : ¬ m % 65536 = 1 := by omega
      rw [noiseQuality,noiseQuality,if_neg hnone]
      by_cases htwo : m % 65536 = 2
      · have hsame : n % 65536 = 2 := by omega
        have hnot : ¬ n % 65536 = 1 := by omega
        rw [if_pos htwo,if_neg hnot]
        exact Int.le_of_eq (if_pos hsame).symm
      · rw [if_neg htwo]
        split
        · omega
        · split
          · omega
          · omega

theorem noiseQuality_double_iff {n : Nat} (h1 : 1 ≤ n) (h512 : n ≤ 512) :
    (28 ≤ noiseQuality n - noiseQuality (2 * n) ∧ noiseQuality n - noiseQuality (2 * n) ≤ 32) ↔ n = 1 := by
  constructor
  · rintro ⟨hlow,hhigh⟩
    by_contra hne
    have hnone : ¬ 2 * n % 65536 = 1 := by omega
    have hntwo : ¬ 2 * n % 65536 = 2 := by omega
    have hdouble : noiseQuality (2 * n) = 0 := by rw [noiseQuality,if_neg hnone,if_neg hntwo]
    rw [hdouble,noiseQuality] at hlow hhigh
    split at hlow
    · omega
    · split at hlow
      · rw [if_neg (by omega),if_pos (by omega)] at hhigh
        omega
      · omega
  · rintro rfl
    decide

/-- The law holds for the first value, and for those above 512 behind which the quality does not rise. -/
theorem carrierGetQuality_law_iff (fuel : Nat) (lookup : Option (List LookPoint)) (quality : Nat → QualityReadings)
    (hesn0 : ∀ n, (quality n).esn0 = n) (n : Nat) (h1 : 1 ≤ n) (hn : n < 2 ^ 19) :
    ((∀ m, n ≤ m → m < 2 ^ 19 → (carrierGetQuality fuel lookup .dvbs2 (quality m)).value ≤
          (carrierGetQuality fuel lookup .dvbs2 (quality n)).value) ∧
      (2 * n ≤ 1024 → 28 ≤ (carrierGetQuality fuel lookup .dvbs2 (quality n)).value -
          (carrierGetQuality fuel lookup .dvbs2 (quality (2 * n))).value ∧
        (carrierGetQuality fuel lookup .dvbs2 (quality n)).value -
          (carrierGetQuality fuel lookup .dvbs2 (quality (2 * n))).value ≤ 32)) ↔
      n = 1 ∨ (512 < n ∧ (n % 65536 = 1 ∨ 458754 ≤ n)) := by
  have hvalue (m : Nat) := value_carrierGetQuality fuel lookup (quality m) (hesn0 m)
  simp only [hvalue]
  rw [noiseQuality_falls_iff hn]
  by_cases hsmall : n ≤ 512
  · have hdouble := noiseQuality_double_iff h1 hsmall
    constructor
    · rintro ⟨-, hlaw⟩
      exact Or.inl (hdouble.mp (hlaw (by omega)))
    · rintro (rfl | ⟨hlarge, -⟩)
      · exact ⟨Or.inl rfl, fun _ => hdouble.mpr rfl⟩
      · omega
  · constructor
    · rintro ⟨hfalls, -⟩
      exact Or.inr ⟨by omega, hfalls⟩
    · rintro (rfl | ⟨-, hfalls⟩)
      · omega
      · exact ⟨hfalls, fun hle => absurd hle (by omega)⟩

def noiseReadings (n : Nat) : QualityReadings := ⟨1, 0, 0, 32, n⟩

/-- The hard-coded values are 31 tenths of a dB apart. -/
theorem carrierGetQuality_law_first : 28 ≤ (carrierGetQuality 0 none .dvbs2 (noiseReadings 1)).value -
      (carrierGetQuality 0 none .dvbs2 (noiseReadings 2)).value :=
  ((carrierGetQuality_law_iff 0 none noiseReadings (fun _ => rfl) 1 (by decide) (by decide)).mpr (Or.inl rfl)).2
    (by decide) |>.1

/-- From 2 to 4 the quality falls by 27 dB, and at 65537 it is back. -/
theorem carrierGetQuality_breaks : (carrierGetQuality 0 none .dvbs2 (noiseReadings 2)).value -
        (carrierGetQuality 0 none .dvbs2 (noiseReadings 4)).value = 270 ∧
      (carrierGetQuality 0 none .dvbs2 (noiseReadings 4)).value <
        (carrierGetQuality 0 none .dvbs2 (noiseReadings 65537)).value := by
  have hvalue (m : Nat) : (carrierGetQuality 0 none .dvbs2 (noiseReadings m)).value = noiseQuality m :=
    value_carrierGetQuality 0 none (noiseReadings m) rfl
  rw [hvalue, hvalue, hvalue]
  decide

end LinuxDvb.Stb0899
