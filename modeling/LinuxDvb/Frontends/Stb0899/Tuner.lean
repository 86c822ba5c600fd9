import Mathlib.Tactic.NormNum
import LinuxDvb.Frontends.Stb0899.RegisterImages
import LinuxDvb.Frontends.Stb0899.Util

/-!
# The tuner of the STB0899

The STB6100 divides its oscillator by a whole number and by 512ths. Two bits, for an oscillator at twice the frequency
and for a prescaler, are set by the band of the frequency; the dividers are computed with them and spread over three
fields, from which the frequency is computed back.
-/

namespace LinuxDvb.Stb0899

open Arith

/-! ## The fields of the tuner -/

/-- `FSTB6100_OSCH` and the fields behind it, as they are numbered. -/
def fstb6100Osch : Nat := 1
def fstb6100Ock : Nat := 2
def fstb6100Odiv : Nat := 3
def fstb6100Osm : Nat := 4
def fstb6100Ni : Nat := 5
def fstb6100NfLsb : Nat := 6
def fstb6100Psd2 : Nat := 8
def fstb6100NfMsb : Nat := 9
def fstb6100Fcck : Nat := 15
def fstb6100Lpen : Nat := 19

/-- What `STTunerInit` adds: the register of each field, its position and its number of bits. -/
def stb6100Fields : List (Nat × Nat × Nat) :=
  [(0, 0, 1), (1, 7, 1), (1, 5, 2), (1, 4, 1), (1, 0, 4), (2, 0, 8), (3, 0, 8), (4, 6, 2), (4, 2, 1), (4, 0, 2), (5, 5, 3),
    (5, 0, 4), (6, 0, 5), (7, 3, 3), (8, 0, 8), (9, 6, 1), (10, 7, 1), (10, 6, 1), (10, 5, 1), (10, 4, 1), (11, 0, 8)]

def stb6100Field (i : Nat) : Field :=
  let f := stb6100Fields.getD i (0, 0, 0)
  .added f.1 f.2.1 f.2.2 false

/-- A chip that `STTunerInit` has opened. -/
structure IsTuner {H D : Type} (c : ChipInfo H D) : Prop where
  nbFields : c.nbFields = 21
  fieldMap : ∀ i < 21, c.fieldMap i = stb6100Field i

/-! ## Setting and getting the frequency -/

/-- A line of `STB6K_LOOKUP`. -/
structure Oscillator where
  low : Nat
  high : Nat
  osm : Nat
  deriving DecidableEq

def stb6kLookup : List Oscillator :=
  [⟨950000, 1000000, 0xa⟩, ⟨1000000, 1075000, 0xc⟩, ⟨1075000, 1200000, 0x0⟩, ⟨1200000, 1300000, 0x1⟩,
    ⟨1300000, 1370000, 0x2⟩, ⟨1370000, 1470000, 0x4⟩, ⟨1470000, 1530000, 0x5⟩, ⟨1530000, 1650000, 0x6⟩,
    ⟨1650000, 1800000, 0x8⟩, ⟨1800000, 1950000, 0xa⟩, ⟨1950000, 2150000, 0xc⟩]

def lookupAt (num : Nat) : Oscillator := stb6kLookup.getD num ⟨0, 0, 0⟩

def Inrange (x y z : Nat) : Prop := x ≤ y ∧ y ≤ z ∨ z ≤ y ∧ y ≤ x

instance (x y z : Nat) : Decidable (Inrange x y z) := inferInstanceAs (Decidable (_ ∨ _))

def lookupLoop (frequency : Nat) : Nat → Nat → Nat
  | 0, num => num
  | left + 1, num =>
    if ¬ Inrange (lookupAt num).low frequency (lookupAt num).high then lookupLoop frequency left (num + 1) else num

/-- The oscillator of `TunerSetFrequency`. -/
def tunerVco (frequency : Nat) : Nat :=
  let num := lookupLoop frequency 10 0
  if frequency < 950000 then (lookupAt 0).osm
  else if frequency > 2150000 then (lookupAt 10).osm
  else (lookupAt num).osm

def tunerOdiv (frequency : Nat) : Nat := if frequency ≤ 1075000 then 1 else 0

def tunerPsd2 (frequency : Nat) : Nat := if frequency ≤ 1075000 ∨ frequency ≥ 1326000 then 1 else 0

/-- `TUNER_Handle_t`, whose chip is the handle `h` of the functions. -/
structure Tuner (H D : Type) where
  chips : Chips H D
  reference : Nat

/-- The reference from `STTunerInit`, in Hz. -/
def sttunerReference : Nat := 27000000

section Functions

variable {H D : Type} [DecidableEq H] [DecidableEq D] (sys : ChipSystem H D) (w : I2cWorld) (h : H)

def openRepeater (s : Chips H D) : Chips H D :=
  { s with transfers := s.transfers ++ [.write (sys.info h).device [0xf1, 0x2a, 0x5c ||| 0x80]] }

def tunerWrite (s : Chips H D) : Chips H D := chipSetRegisters sys w h 1 11 (openRepeater sys h s)

def tunerRead (s : Chips H D) : Chips H D := chipGetRegisters sys w h 0 12 (openRepeater sys h s)

/-- `ChipGetFieldImage`, for a field that exists, which leaves the chip as it is. -/
def fieldImage (fieldId : Nat) (s : Chips H D) : Int := (chipGetFieldImage sys h fieldId s).1

def tunerBand (frequency : Nat) (s : Chips H D) : Chips H D :=
  setFieldImages sys h
    [⟨fstb6100Odiv, tunerOdiv frequency⟩, ⟨fstb6100Psd2, tunerPsd2 frequency⟩, ⟨fstb6100Osm, tunerVco frequency⟩] s

def tunerDividers (frequency reference : Nat) (s : Chips H D) : Arith (Nat × Nat) := do
  let doubled ← wordNat 32 (2 * frequency)
  let odiv ← signed 32 (fieldImage sys h fstb6100Odiv s + 1)
  let odiv ← toWord 32 odiv
  let frequency ← wordNat 32 (doubled * odiv)
  let psd2 ← signed 32 (fieldImage sys h fstb6100Psd2 s + 1)
  let psd2 ← toWord 32 psd2
  let quotient ← divNat frequency reference
  let divider ← divNat quotient psd2
  let whole ← wordNat 32 (divider * psd2)
  let whole ← wordNat 32 (whole * reference)
  let stepsize ← toWord 32 ((frequency : Int) - whole)
  let power ← powOf2 9
  let power ← toWord 32 power
  let steps ← wordNat 32 (stepsize * power)
  let period ← wordNat 32 (psd2 * reference)
  let nbsteps ← divNat steps period
  pure (divider, nbsteps)

def dividerCalls (divider swallow : Nat) : List FieldCall :=
  [⟨fstb6100Ni, divider⟩, ⟨fstb6100NfLsb, (swallow &&& 0xff : Nat)⟩, ⟨fstb6100NfMsb, (swallow >>> 8 : Nat)⟩,
    ⟨fstb6100Lpen, 0⟩, ⟨fstb6100Osch, 1⟩, ⟨fstb6100Ock, 0⟩]

/-- The fields of the dividers, and the three writes of the registers with the search of the oscillator. -/
def tunerProgram (divider swallow : Nat) (s : Chips H D) : Chips H D :=
  let searching := setFieldImages sys h (dividerCalls divider swallow) s
  let locking := setFieldImages sys h [⟨fstb6100Lpen, 1⟩] (tunerWrite sys w h searching)
  let locked := setFieldImages sys h [⟨fstb6100Osch, 0⟩, ⟨fstb6100Ock, 3⟩, ⟨fstb6100Fcck, 0⟩] (tunerWrite sys w h locking)
  tunerWrite sys w h locked

def tunerSetFrequency (frequency : Nat) (t : Tuner H D) : Arith (Tuner H D) :=
  if t.chips.chipError h = .noError then do
    let band := tunerBand sys h frequency t.chips
    let khz ← divNat t.reference 1000
    let (divider, swallow) ← tunerDividers sys h frequency khz band
    let reference ← wordNat 32 (khz * 1000)
    pure ⟨tunerProgram sys w h divider swallow band, reference⟩
  else pure t

/-- The frequency of the fields that `TunerGetFrequency` has read. -/
def tunerFrequency (reference : Nat) (s : Chips H D) : Arith Nat := do
  let high ← signed 32 (fieldImage sys h fstb6100NfMsb s * 2 ^ 8)
  let swallow ← signed 32 (high + fieldImage sys h fstb6100NfLsb s)
  let swallow ← toWord 32 swallow
  let divider ← toWord 32 (fieldImage sys h fstb6100Ni s)
  let psd2 ← toWord 32 (fieldImage sys h fstb6100Psd2 s)
  let factor ← wordNat 32 (1 + psd2)
  let khz ← divNat reference 1000
  let period ← wordNat 32 (factor * khz)
  let product ← wordNat 32 (period * swallow)
  let fraction ← divNat product 512
  let whole ← wordNat 32 (khz * divider)
  let whole ← wordNat 32 (whole * factor)
  let frequency ← wordNat 32 (fraction + whole)
  let odiv ← signed 32 (fieldImage sys h fstb6100Odiv s + 1)
  let odiv ← signed 32 (odiv * 2)
  let odiv ← toWord 32 odiv
  divNat frequency odiv

def tunerGetFrequency (t : Tuner H D) : Arith (Nat × Tuner H D) :=
  if t.chips.chipError h = .noError then do
    let read := tunerRead sys w h t.chips
    let frequency ← tunerFrequency sys h t.reference read
    pure (frequency, ⟨read, t.reference⟩)
  else pure (0, t)

/-- The registers are read as they have been written, and no access has failed. -/
structure ReadsBack (s : Chips H D) : Prop where
  written : s.chipError h = .noError
  read : (tunerRead sys w h s).chipError h = .noError
  value : ∀ i, 1 ≤ i → i ≤ 11 → (tunerRead sys w h s).value h i = s.value h i

end Functions

/-! ## The dividers -/

section Dividers

variable {frequency o p : Nat}

def InBand (frequency o p : Nat) : Prop :=
  frequency ≤ 1075000 ∧ o = 1 ∧ p = 1 ∨ 1075000 < frequency ∧ frequency < 1326000 ∧ o = 0 ∧ p = 0 ∨
    1326000 ≤ frequency ∧ frequency ≤ 2150000 ∧ o = 0 ∧ p = 1

def pllOscillator (frequency o : Nat) : Nat := 2 * frequency * (o + 1)

def pllDivider (oscillator p : Nat) : Nat := oscillator / 27000 / (p + 1)

def pllSwallow (oscillator p : Nat) : Nat :=
  (oscillator - pllDivider oscillator p * (p + 1) * 27000) * 512 / ((p + 1) * 27000)

def pllFrequency (o p divider swallow : Nat) : Nat :=
  ((1 + p) * 27000 * swallow / 512 + 27000 * divider * (1 + p)) / ((o + 1) * 2)

theorem pll_near (hband : InBand frequency o p) :
    pllDivider (pllOscillator frequency o) p < 256 ∧ pllSwallow (pllOscillator frequency o) p < 512 ∧
      pllFrequency o p (pllDivider (pllOscillator frequency o) p) (pllSwallow (pllOscillator frequency o) p) ≤ frequency ∧
      frequency ≤
        pllFrequency o p (pllDivider (pllOscillator frequency o) p) (pllSwallow (pllOscillator frequency o) p) + 53 := by
  simp only [pllFrequency,pllSwallow,pllDivider,pllOscillator]
  rcases hband with ⟨hle,rfl,rfl⟩ | ⟨-,hlt,rfl,rfl⟩ | ⟨-,hle,rfl,rfl⟩
  · omega
  · omega
  · omega

theorem pll_fits (hband : InBand frequency o p) :
    o ≤ 1 ∧ p ≤ 1 ∧ 2 * frequency < 2 ^ 23 ∧ pllOscillator frequency o < 2 ^ 23 ∧
      pllDivider (pllOscillator frequency o) p * (p + 1) * 27000 ≤ pllOscillator frequency o ∧
      pllOscillator frequency o <
        pllDivider (pllOscillator frequency o) p * (p + 1) * 27000 + (p + 1) * 27000 := by
  simp only [pllDivider,pllOscillator]
  rcases hband with ⟨hle,rfl,rfl⟩ | ⟨-,hlt,rfl,rfl⟩ | ⟨-,hle,rfl,rfl⟩
  · omega
  · omega
  · omega

end Dividers

section Words

variable {H D : Type} [DecidableEq H] {sys : ChipSystem H D} {h : H} {s : Chips H D} {frequency o p divider swallow : Nat}

theorem signed_natCast {n : Nat} (hn : n < 2 ^ 31) : FitsSigned 32 n := ⟨by omega, by omega⟩

theorem tunerDividers_eq (hband : InBand frequency o p) (hodiv : fieldImage sys h fstb6100Odiv s = o)
    (hpsd2 : fieldImage sys h fstb6100Psd2 s = p) :
    tunerDividers sys h frequency 27000 s =
      pure (pllDivider (pllOscillator frequency o) p, pllSwallow (pllOscillator frequency o) p) := by
  obtain ⟨ho,hp,hdoubled,hoscillator,hwhole,hrest⟩ := pll_fits hband
  have hodiv' : fieldImage sys h fstb6100Odiv s + 1 = ((o + 1 : Nat) : Int) := by
    rw [hodiv]
    rfl
  have hpsd2' : fieldImage sys h fstb6100Psd2 s + 1 = ((p + 1 : Nat) : Int) := by
    rw [hpsd2]
    rfl
  have hpower : powOf2 9 = pure ((512 : Nat) : Int) := (powOf2_eq (n := 9) (by decide)).trans (congrArg pure (by norm_num))
  have hvco : 2 * frequency * (o + 1) = pllOscillator frequency o := rfl
  have hdivider : pllOscillator frequency o / 27000 / (p + 1) = pllDivider (pllOscillator frequency o) p := rfl
  rw [tunerDividers,wordNat_bind (by omega),hodiv',signed_bind (by decide) (signed_natCast (by omega)),
    toWord_bind rfl (by omega),hvco,wordNat_bind (Nat.lt_trans hoscillator (by decide)),hpsd2',
    signed_bind (by decide) (signed_natCast (by omega)),toWord_bind rfl (by omega),divNat_bind (by decide),
    divNat_bind (Nat.succ_ne_zero p),hdivider,wordNat_bind (by omega),wordNat_bind (by omega),
    toWord_bind (Int.natCast_sub hwhole).symm (by omega),hpower,bind_of_pure,toWord_bind rfl (by decide),
    wordNat_bind (by omega),wordNat_bind (by omega),divNat_bind (by omega)]
  rfl

theorem tunerFrequency_eq (hband : InBand frequency o p) (hdivider : divider < 256) (hswallow : swallow < 512)
    (hodiv : fieldImage sys h fstb6100Odiv s = o) (hpsd2 : fieldImage sys h fstb6100Psd2 s = p)
    (hni : fieldImage sys h fstb6100Ni s = divider) (hlsb : fieldImage sys h fstb6100NfLsb s = (swallow % 256 : Nat))
    (hmsb : fieldImage sys h fstb6100NfMsb s = (swallow / 256 : Nat)) :
    tunerFrequency sys h sttunerReference s = pure (pllFrequency o p divider swallow) := by
  obtain ⟨ho,hp,-,-,-,-⟩ := pll_fits hband
  have hhigh : fieldImage sys h fstb6100NfMsb s * 2 ^ 8 = ((swallow / 256 * 256 : Nat) : Int) := by
    rw [hmsb,Int.natCast_mul]
    rfl
  have hsum : ((swallow / 256 * 256 : Nat) : Int) + fieldImage sys h fstb6100NfLsb s = (swallow : Int) := by
    rw [hlsb]
    omega
  have hodiv' : fieldImage sys h fstb6100Odiv s + 1 = ((o + 1 : Nat) : Int) := by
    rw [hodiv]
    rfl
  have hdouble : ((o + 1 : Nat) : Int) * 2 = (((o + 1) * 2 : Nat) : Int) := (Int.natCast_mul (o + 1) 2).symm
  have hkhz : sttunerReference / 1000 = 27000 := rfl
  have hperiod : (1 + p) * 27000 ≤ 54000 := by omega
  have hproduct : (1 + p) * 27000 * swallow ≤ 54000 * 511 := Nat.mul_le_mul hperiod (by omega)
  have hwhole : 27000 * divider * (1 + p) ≤ 27000 * 255 * 2 := Nat.mul_le_mul (by omega) (by omega)
  rw [tunerFrequency,hhigh,signed_bind (by decide) (signed_natCast (by omega)),hsum,
    signed_bind (by decide) (signed_natCast (by omega)),toWord_bind rfl (by omega),hni,toWord_bind rfl (by omega),
    hpsd2,toWord_bind rfl (by omega),wordNat_bind (by omega),divNat_bind (by decide),hkhz,wordNat_bind (by omega),
    wordNat_bind (by omega),divNat_bind (by decide),wordNat_bind (by omega),wordNat_bind (by omega),
    wordNat_bind (by omega),hodiv',signed_bind (by decide) (signed_natCast (by omega)),hdouble,
    signed_bind (by decide) (signed_natCast (by omega)),toWord_bind rfl (by omega),divNat_eq (by omega),pllFrequency]

end Words

/-! ## The oscillator -/

section Lookup

variable {frequency : Nat}

theorem lookupAt_chain : ∀ num < 10, (lookupAt num).high = (lookupAt (num + 1)).low := by decide

theorem lookupAt_ordered : ∀ num < 11, (lookupAt num).low ≤ (lookupAt num).high ∧ lookupAt num ∈ stb6kLookup := by decide

theorem exists_lookupAt {last : Nat} (hlast : last ≤ 10) (hlow : (lookupAt 0).low ≤ frequency)
    (hhigh : frequency ≤ (lookupAt last).high) :
    ∃ num ≤ last, (lookupAt num).low ≤ frequency ∧ frequency ≤ (lookupAt num).high := by
  induction last with
  | zero => exact ⟨0,Nat.le_refl 0,hlow,hhigh⟩
  | succ last ih =>
    rcases Nat.le_total frequency (lookupAt last).high with hbefore | hbehind
    · obtain ⟨num,hnum,hin⟩ := ih (by omega) hbefore
      exact ⟨num,by omega,hin⟩
    · rw [lookupAt_chain last (by omega)] at hbehind
      exact ⟨last + 1,Nat.le_refl _,hbehind,hhigh⟩

theorem lookupLoop_inrange {left num line : Nat} (hline : num ≤ line) (hleft : line ≤ num + left)
    (hin : Inrange (lookupAt line).low frequency (lookupAt line).high) :
    lookupLoop frequency left num ≤ num + left ∧
      Inrange (lookupAt (lookupLoop frequency left num)).low frequency
        (lookupAt (lookupLoop frequency left num)).high := by
  induction left generalizing num with
  | zero =>
    obtain rfl : num = line := by omega
    exact ⟨Nat.le_refl _,hin⟩
  | succ left ih =>
    rw [lookupLoop]
    split
    case isTrue hout =>
      have hne : num ≠ line := by
        rintro rfl
        exact hout hin
      obtain ⟨hle,hfound⟩ := ih (show num + 1 ≤ line by omega) (by omega)
      exact ⟨by omega,hfound⟩
    case isFalse hfound => exact ⟨by omega,Decidable.not_not.mp hfound⟩

theorem tunerVco_entry (hlow : 950000 ≤ frequency) (hhigh : frequency ≤ 2150000) :
    ∃ entry ∈ stb6kLookup, entry.low ≤ frequency ∧ frequency ≤ entry.high ∧ tunerVco frequency = entry.osm := by
  obtain ⟨line,hline,hin⟩ := exists_lookupAt (Nat.le_refl 10) hlow hhigh
  obtain ⟨hle,hfound⟩ := lookupLoop_inrange (Nat.zero_le line) (show line ≤ 0 + 10 by omega) (Or.inl hin)
  have hentry := lookupAt_ordered (lookupLoop frequency 10 0) (by omega)
  have hvco : tunerVco frequency = (lookupAt (lookupLoop frequency 10 0)).osm := by
    rw [tunerVco,if_neg (by omega),if_neg (by omega)]
  refine ⟨_,hentry.2,?_,?_,hvco⟩
  · rcases hfound with hfound | hfound
    · exact hfound.1
    · omega
  · rcases hfound with hfound | hfound
    · exact hfound.2
    · omega

theorem tunerVco_lt (hlow : 950000 ≤ frequency) (hhigh : frequency ≤ 2150000) : tunerVco frequency < 16 := by
  obtain ⟨entry,hmem,-,-,hvco⟩ := tunerVco_entry hlow hhigh
  have hosm : ∀ entry ∈ stb6kLookup, entry.osm < 16 := by decide
  rw [hvco]
  exact hosm entry hmem

end Lookup

/-! ## The fields -/

section Fields

variable {H D : Type} {c : ChipInfo H D} {i : Nat}

theorem stb6100Field_proper (hi : i < 21) : (stb6100Field i).Proper := by
  have hbits : ∀ i < 21, 0 < (stb6100Field i).bits ∧ (stb6100Field i).bits < 32 ∧
      (stb6100Field i).pos + (stb6100Field i).bits ≤ 32 := by decide
  obtain ⟨hpos,hlt,hfits⟩ := hbits i hi
  exact ⟨hpos,hlt,hfits,rfl⟩

theorem stb6100Field_disjoint : ∀ i < 21, ∀ j < 21, i ≠ j → (stb6100Field i).reg = (stb6100Field j).reg →
    (stb6100Field i).pos + (stb6100Field i).bits ≤ (stb6100Field j).pos ∨
      (stb6100Field j).pos + (stb6100Field j).bits ≤ (stb6100Field i).pos := by decide

theorem IsTuner.lt_nbFields (htuner : IsTuner c) : (i : Int) < c.nbFields ↔ i < 21 := by
  rw [htuner.nbFields]
  exact Int.ofNat_lt

theorem IsTuner.properFields (htuner : IsTuner c) : ProperFields c where
  proper i hi := by
    have hlt : i < 21 := htuner.lt_nbFields.mp hi
    rw [htuner.fieldMap i hlt]
    exact stb6100Field_proper hlt
  disjoint i j hi hj hne := by
    have hlt : i < 21 := htuner.lt_nbFields.mp hi
    have hlt' : j < 21 := htuner.lt_nbFields.mp hj
    rw [htuner.fieldMap i hlt,htuner.fieldMap j hlt']
    exact stb6100Field_disjoint i hlt j hlt' hne

theorem IsTuner.valid (htuner : IsTuner c) {v : Int} (hi : i < 21) (hlow : 0 ≤ v)
    (hhigh : v < 2 ^ (stb6100Field i).bits) : (⟨i, v⟩ : FieldCall).Valid c := by
  refine ⟨htuner.lt_nbFields.mpr hi,?_⟩
  rw [htuner.fieldMap i hi]
  exact ⟨hlow,hhigh⟩

end Fields

section Run

variable {H D : Type} [DecidableEq H] {sys : ChipSystem H D} {h : H} {s : Chips H D} {i frequency : Nat}

theorem inBand_tuner (hhigh : frequency ≤ 2150000) : InBand frequency (tunerOdiv frequency) (tunerPsd2 frequency) := by
  rw [InBand,tunerOdiv,tunerPsd2]
  split
  · split
    · omega
    · omega
  · split
    · omega
    · omega

theorem tunerBand_fields (htuner : IsTuner (sys.info h)) (herror : s.chipError h = .noError)
    (hlow : 950000 ≤ frequency) (hhigh : frequency ≤ 2150000) :
    (tunerBand sys h frequency s).chipError h = .noError ∧
      imageOf sys h fstb6100Odiv (tunerBand sys h frequency s) = tunerOdiv frequency ∧
      imageOf sys h fstb6100Psd2 (tunerBand sys h frequency s) = tunerPsd2 frequency ∧
      imageOf sys h fstb6100Osm (tunerBand sys h frequency s) = tunerVco frequency := by
  obtain ⟨hodiv,hpsd2,-⟩ := pll_fits (inBand_tuner hhigh)
  have hvco := tunerVco_lt hlow hhigh
  have hvalid : ∀ call ∈ [(⟨fstb6100Odiv,tunerOdiv frequency⟩ : FieldCall), ⟨fstb6100Psd2,tunerPsd2 frequency⟩,
      ⟨fstb6100Osm,tunerVco frequency⟩], call.Valid (sys.info h) := by
    intro call hcall
    simp only [mem_cons,not_mem_nil,or_false] at hcall
    rcases hcall with rfl | rfl | rfl
    · exact htuner.valid (by decide) (Int.natCast_nonneg _) (Int.ofNat_lt.mpr (Nat.lt_succ_of_le hodiv))
    · exact htuner.valid (by decide) (Int.natCast_nonneg _) (Int.ofNat_lt.mpr (Nat.lt_succ_of_le hpsd2))
    · exact htuner.valid (by decide) (Int.natCast_nonneg _) (Int.ofNat_lt.mpr hvco)
  have himage : ∀ i < 21, imageOf sys h i (tunerBand sys h frequency s) = _ := fun i hi =>
    imageOf_setFieldImages htuner.properFields _ hvalid herror (htuner.lt_nbFields.mpr hi)
  refine ⟨chipError_setFieldImages _ (fun call hcall => (hvalid call hcall).1) herror,?_,?_,?_⟩
  · exact himage fstb6100Odiv (by decide)
  · exact himage fstb6100Psd2 (by decide)
  · exact himage fstb6100Osm (by decide)

theorem IsTuner.setFieldImages_of_ne (htuner : IsTuner (sys.info h)) {calls : List FieldCall} (hi : i < 21)
    (hcalls : ∀ call ∈ calls, call.fieldId < 21 ∧ call.fieldId ≠ i) (s : Chips H D) :
    imageOf sys h i (setFieldImages sys h calls s) = imageOf sys h i s :=
  imageOf_setFieldImages_of_ne htuner.properFields calls
    (fun call hcall => htuner.lt_nbFields.mpr (hcalls call hcall).1) (htuner.lt_nbFields.mpr hi)
    fun call hcall => (hcalls call hcall).2

variable [DecidableEq D] {w : I2cWorld} {divider swallow : Nat}

theorem keepsMap_tunerWrite (sys : ChipSystem H D) (w : I2cWorld) (h : H) (s : Chips H D) :
    KeepsMap h s (tunerWrite sys w h s) :=
  have hopened : KeepsMap h s (openRepeater sys h s) := ⟨rfl⟩
  hopened.trans (KeepsMap.setRegisters 1 11 _)

theorem tunerProgram_image (htuner : IsTuner (sys.info h)) (hi : i < 21)
    (hne : fstb6100Lpen ≠ i ∧ fstb6100Osch ≠ i ∧ fstb6100Ock ≠ i ∧ fstb6100Fcck ≠ i) :
    imageOf sys h i (tunerProgram sys w h divider swallow s) =
      imageOf sys h i (setFieldImages sys h (dividerCalls divider swallow) s) := by
  obtain ⟨hlpen,hosch,hock,hfcck⟩ := hne
  have hlocking : ∀ call ∈ [(⟨fstb6100Lpen,1⟩ : FieldCall)], call.fieldId < 21 ∧ call.fieldId ≠ i := by
    simp only [forall_mem_singleton]
    exact ⟨by decide,hlpen⟩
  have hlocked : ∀ call ∈ [(⟨fstb6100Osch,0⟩ : FieldCall), ⟨fstb6100Ock,3⟩, ⟨fstb6100Fcck,0⟩],
      call.fieldId < 21 ∧ call.fieldId ≠ i := by
    simp only [forall_mem_cons,not_mem_nil,false_implies,implies_true,and_true]
    exact ⟨⟨by decide,hosch⟩,⟨by decide,hock⟩,by decide,hfcck⟩
  rw [tunerProgram,(keepsMap_tunerWrite sys w h _).imageOf,htuner.setFieldImages_of_ne hi hlocked,
    (keepsMap_tunerWrite sys w h _).imageOf,htuner.setFieldImages_of_ne hi hlocking,
    (keepsMap_tunerWrite sys w h _).imageOf]

theorem tunerProgram_fields (htuner : IsTuner (sys.info h)) (herror : s.chipError h = .noError) (hdivider : divider < 256)
    (hswallow : swallow < 512) :
    imageOf sys h fstb6100Ni (tunerProgram sys w h divider swallow s) = divider ∧
      imageOf sys h fstb6100NfLsb (tunerProgram sys w h divider swallow s) = (swallow % 256 : Nat) ∧
      imageOf sys h fstb6100NfMsb (tunerProgram sys w h divider swallow s) = (swallow / 256 : Nat) ∧
      ∀ i ∈ [fstb6100Odiv, fstb6100Psd2, fstb6100Osm],
        imageOf sys h i (tunerProgram sys w h divider swallow s) = imageOf sys h i s := by
  have hlow : swallow &&& 0xff = swallow % 256 := Nat.and_two_pow_sub_one_eq_mod swallow 8
  have hhigh : swallow >>> 8 = swallow / 256 := Nat.shiftRight_eq_div_pow swallow 8
  have hquarter : swallow / 256 < 4 := by omega
  have hvalid : ∀ call ∈ dividerCalls divider swallow, call.Valid (sys.info h) := by
    rw [dividerCalls,hlow,hhigh]
    simp only [forall_mem_cons,not_mem_nil,false_implies,implies_true,and_true]
    refine ⟨htuner.valid (by decide) (Int.natCast_nonneg _) (Int.ofNat_lt.mpr hdivider),
      htuner.valid (by decide) (Int.natCast_nonneg _) (Int.ofNat_lt.mpr (Nat.mod_lt swallow (by decide))),
      htuner.valid (by decide) (Int.natCast_nonneg _) (Int.ofNat_lt.mpr hquarter),
      htuner.valid (by decide) (by decide) (by decide),htuner.valid (by decide) (by decide) (by decide),
      htuner.valid (by decide) (by decide) (by decide)⟩
  have himage : ∀ i < 21, imageOf sys h i (setFieldImages sys h (dividerCalls divider swallow) s) = _ := fun i hi =>
    imageOf_setFieldImages htuner.properFields _ hvalid herror (htuner.lt_nbFields.mpr hi)
  have hni := himage fstb6100Ni (by decide)
  have hlsb := himage fstb6100NfLsb (by decide)
  have hmsb := himage fstb6100NfMsb (by decide)
  rw [tunerProgram_image htuner (by decide) (by decide),tunerProgram_image htuner (by decide) (by decide),
    tunerProgram_image htuner (by decide) (by decide),← hlow,← hhigh]
  refine ⟨hni,hlsb,hmsb,?_⟩
  simp only [forall_mem_cons,not_mem_nil,false_implies,implies_true,and_true]
  rw [tunerProgram_image htuner (by decide) (by decide),tunerProgram_image htuner (by decide) (by decide),
    tunerProgram_image htuner (by decide) (by decide)]
  exact ⟨himage fstb6100Odiv (by decide),himage fstb6100Psd2 (by decide),himage fstb6100Osm (by decide)⟩

theorem ReadsBack.imageOf (hread : ReadsBack sys w h s) (htuner : IsTuner (sys.info h)) (hi : i < 21)
    (hreg : 1 ≤ (stb6100Field i).reg ∧ (stb6100Field i).reg ≤ 11) :
    fieldImage sys h i (tunerRead sys w h s) = imageOf sys h i s := by
  rw [fieldImage,imageOf_eq hread.read (htuner.lt_nbFields.mpr hi),Stb0899.imageOf,Stb0899.imageOf,
    htuner.fieldMap i hi,hread.value _ hreg.1 hreg.2]

end Run

section Accuracy

variable {H D : Type} [DecidableEq H] [DecidableEq D]

theorem tunerSetFrequency_eq {sys : ChipSystem H D} {h : H} (w : I2cWorld) {t : Tuner H D} {divider swallow : Nat}
    (herror : t.chips.chipError h = .noError) (hreference : t.reference = sttunerReference) {frequency : Nat}
    (hdividers : tunerDividers sys h frequency 27000 (tunerBand sys h frequency t.chips) = pure (divider, swallow)) :
    tunerSetFrequency sys w h frequency t =
      pure ⟨tunerProgram sys w h divider swallow (tunerBand sys h frequency t.chips), t.reference⟩ := by
  have hkhz : sttunerReference / 1000 = 27000 := rfl
  have hback : 27000 * 1000 = sttunerReference := rfl
  rw [tunerSetFrequency,if_pos herror,hreference]
  dsimp only
  rw [divNat_bind (by decide),hkhz,hdividers,bind_of_pure]
  dsimp only
  rw [wordNat_eq (by decide),hback]
  rfl

theorem tunerGetFrequency_eq {sys : ChipSystem H D} {w : I2cWorld} {h : H} (htuner : IsTuner (sys.info h))
    {s : Chips H D} (hread : ReadsBack sys w h s) {frequency o p divider swallow : Nat} (hband : InBand frequency o p)
    (hdivider : divider < 256) (hswallow : swallow < 512) (hodiv : imageOf sys h fstb6100Odiv s = o)
    (hpsd2 : imageOf sys h fstb6100Psd2 s = p) (hni : imageOf sys h fstb6100Ni s = divider)
    (hlsb : imageOf sys h fstb6100NfLsb s = (swallow % 256 : Nat))
    (hmsb : imageOf sys h fstb6100NfMsb s = (swallow / 256 : Nat)) :
    tunerGetFrequency sys w h ⟨s, sttunerReference⟩ =
      pure (pllFrequency o p divider swallow, ⟨tunerRead sys w h s, sttunerReference⟩) := by
  have hget : tunerFrequency sys h sttunerReference (tunerRead sys w h s) = pure (pllFrequency o p divider swallow) := by
    apply tunerFrequency_eq hband hdivider hswallow
    · rw [hread.imageOf htuner (by decide) (by decide),hodiv]
    · rw [hread.imageOf htuner (by decide) (by decide),hpsd2]
    · rw [hread.imageOf htuner (by decide) (by decide),hni]
    · rw [hread.imageOf htuner (by decide) (by decide),hlsb]
    · rw [hread.imageOf htuner (by decide) (by decide),hmsb]
  rw [tunerGetFrequency,if_pos hread.written]
  dsimp only
  rw [hget,bind_of_pure]

/-- The tuner is programmed without a fault, and within 53 kHz of the frequency. -/
theorem tunerFrequency_accurate (sys : ChipSystem H D) (w : I2cWorld) (h : H) (htuner : IsTuner (sys.info h))
    (t : Tuner H D) (herror : t.chips.chipError h = .noError) (hreference : t.reference = sttunerReference)
    (frequency : Nat) (hlow : 950000 ≤ frequency) (hhigh : frequency ≤ 2150000) :
    (tunerSetFrequency sys w h frequency t).Clean ∧
      (tunerSetFrequency sys w h frequency t).value.reference = t.reference ∧
      (∃ divider swallow : Nat,
        (tunerDividers sys h frequency (t.reference / 1000) (tunerBand sys h frequency t.chips)).value =
            (divider, swallow) ∧
          divider < 256 ∧ swallow < 512 ∧
          imageOf sys h fstb6100Ni (tunerSetFrequency sys w h frequency t).value.chips = divider ∧
          imageOf sys h fstb6100NfLsb (tunerSetFrequency sys w h frequency t).value.chips = (swallow % 256 : Nat) ∧
          imageOf sys h fstb6100NfMsb (tunerSetFrequency sys w h frequency t).value.chips = (swallow / 256 : Nat)) ∧
      (∃ entry ∈ stb6kLookup, entry.low ≤ frequency ∧ frequency ≤ entry.high ∧
        imageOf sys h fstb6100Osm (tunerSetFrequency sys w h frequency t).value.chips = entry.osm) ∧
      (ReadsBack sys w h (tunerSetFrequency sys w h frequency t).value.chips →
        (tunerGetFrequency sys w h (tunerSetFrequency sys w h frequency t).value).Clean ∧
          (tunerGetFrequency sys w h (tunerSetFrequency sys w h frequency t).value).value.1 ≤ frequency ∧
          frequency ≤ (tunerGetFrequency sys w h (tunerSetFrequency sys w h frequency t).value).value.1 + 53) := by
  have hband := inBand_tuner hhigh
  obtain ⟨hnoError, hodiv, hpsd2, hosm⟩ := tunerBand_fields htuner herror hlow hhigh
  have hkhz : t.reference / 1000 = 27000 := by rw [hreference]; rfl
  obtain ⟨divider, swallow, hdividers, hdivider, hswallow, hbelow, habove⟩ : ∃ divider swallow,
      tunerDividers sys h frequency 27000 (tunerBand sys h frequency t.chips) = pure (divider, swallow) ∧
        divider < 256 ∧ swallow < 512 ∧
        pllFrequency (tunerOdiv frequency) (tunerPsd2 frequency) divider swallow ≤ frequency ∧
        frequency ≤ pllFrequency (tunerOdiv frequency) (tunerPsd2 frequency) divider swallow + 53 := by
    refine ⟨_, _, tunerDividers_eq hband ?_ ?_, pll_near hband⟩
    · exact (imageOf_eq hnoError (htuner.lt_nbFields.mpr (by decide))).trans hodiv
    · exact (imageOf_eq hnoError (htuner.lt_nbFields.mpr (by decide))).trans hpsd2
  obtain ⟨hni, hlsb, hmsb, hkept⟩ := tunerProgram_fields (w := w) htuner hnoError hdivider hswallow
  rw [tunerSetFrequency_eq w herror hreference hdividers, Logged.value_pure, hkhz, hdividers, Logged.value_pure]
  dsimp only
  refine ⟨clean_pure _, rfl, ⟨divider, swallow, rfl, hdivider, hswallow, hni, hlsb, hmsb⟩, ?_, fun hread => ?_⟩
  · obtain ⟨entry, hmem, hfirst, hlast, hvco⟩ := tunerVco_entry hlow hhigh
    refine ⟨entry, hmem, hfirst, hlast, ?_⟩
    rw [hkept fstb6100Osm (by decide), hosm, hvco]
  · have hget := tunerGetFrequency_eq htuner hread hband hdivider hswallow
      ((hkept fstb6100Odiv (by decide)).trans hodiv) ((hkept fstb6100Psd2 (by decide)).trans hpsd2) hni hlsb hmsb
    rw [hreference, hget, Logged.value_pure]
    exact ⟨clean_pure _, hbelow, habove⟩

end Accuracy

section Samples

def tunerChip : ChipInfo Unit Unit where
  device := ()
  nbRegs := 12
  nbFields := 21
  regMap i := ⟨UInt16.ofNat i, .reg8, 0, .wr, false, 0, 0⟩
  fieldMap := stb6100Field
  chipMode := .noRSubadr
  repeater := false
  repeaterHost := none
  wrStart := 1
  wrSize := 11
  rdStart := 0
  rdSize := 12

def tunerSystem : ChipSystem Unit Unit where
  info _ := tunerChip
  host_repeater _ _ h := absurd h.symm (Option.some_ne_none _)
  host_mode _ _ h := absurd h.symm (Option.some_ne_none _)
  host_field _ _ h := absurd h.symm (Option.some_ne_none _)

def tunerWorld : I2cWorld := ⟨fun _ => true, fun _ i => [0, 0x60, 0x51, 0xf6, 0, 0, 0, 0, 0, 0, 0x10, 0].getD i 0⟩

def tunerStart : Tuner Unit Unit := ⟨.init (fun _ _ => 0) fun _ => .noError, sttunerReference⟩

theorem readsBack_tunerWorld :
    ReadsBack tunerSystem tunerWorld () (tunerSetFrequency tunerSystem tunerWorld () 1100000 tunerStart).value.chips where
  written := by decide +kernel
  read := by decide +kernel
  value := by decide +kernel

/-- 1.1 GHz. -/
theorem tunerFrequency_accurate_1100000 : (tunerGetFrequency tunerSystem tunerWorld ()
      (tunerSetFrequency tunerSystem tunerWorld () 1100000 tunerStart).value).value.1 ≤ 1100000 := by
  obtain ⟨-, -, -, -, hget⟩ := tunerFrequency_accurate tunerSystem tunerWorld () ⟨rfl, fun _ _ => rfl⟩ tunerStart rfl rfl
    1100000 (by decide) (by decide)
  exact (hget readsBack_tunerWorld).2.1

end Samples

end LinuxDvb.Stb0899
