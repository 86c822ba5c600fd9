import LinuxDvb.Framework.Loop

/-!
# The DVB-S search of the STB0899

A search sets the master clock for the symbol rate and looks for timing, carrier and data one after the other.
-/

namespace LinuxDvb.Stb0899

/-- What the chip and the tuner return, by the number of the reading. The master clock divider is read back in a way
that may depend on what was last written to it. -/
structure Readings where
  read : Nat → Nat
  mdiv : Nat → Nat → Nat
  tunerError : Nat → Bool
  demodError : Nat → Bool

/-- `FE_STB0899_SIGNALTYPE_t`, as far as it is used. -/
inductive SignalType where
  | noAgc1
  | agc1Ok
  | noTiming
  | analogCarrier
  | timingOk
  | noCarrier
  | carrierOk
  | noData
  | dataOk
  | outOfRange
  | rangeOk
  deriving DecidableEq

inductive CodingStandard where
  | dvbs1
  | dss
  | dvbs2
  deriving DecidableEq

/-- `FE_STB0899_InternalResults_t` without the DVB-S2 part. -/
structure InternalResults where
  frequency : Int
  signalType : SignalType
  punctureRate : Nat
  symbolRate : Int
  deriving DecidableEq

/-- `FE_STB0899_InternalParams_t` without the DVB-S2 part, and what is known of the chip: the divider and the derotator
positions as they were written, and the number of readings. -/
structure InternalParams where
  quartz : Int
  frequency : Int
  baseFreq : Int
  subRange : Int
  tunerOffset : Int
  tunerBw : Int
  state : SignalType
  symbolRate : Int
  masterClock : Int
  mclk : Int
  searchRange : Int
  rollOff : Int
  derotFreq : Int
  derotPercent : Int
  derotStep : Int
  direction : Int
  subDir : Int
  results : InternalResults
  mdiv : Nat
  derotator : List Int
  reads : Nat

/-- The conversion to `short int`. -/
def short (x : Int) : Int := x.bmod 65536

/-- `MIN` of `stb0899_common.h`, which has the comparison of `MAX`. -/
def headerMin (x y : Int) : Int := if x ≥ y then x else y

def headerAbs (x : Int) : Int := if x < 0 then -x else x

def signed8 (v : Nat) : Int := Int.bmod v 256

/-- `TUNER_IQ_NORMAL`, to which the tuner is set. -/
def iqWiring : Int := 1

section Driver

variable (w : Readings)

/-! ## The clock -/

/-- The calculation of `FE_STB0899_GetMclkFreq`. -/
def mclkFreq (div : Nat) (extClk : Int) : Int := ((div + 1) * extClk % 4294967296).tdiv 6

/-- `FE_STB0899_GetMclkFreq`; `MDIV` has eight bits. -/
def getMclkFreq (extClk : Int) (p : InternalParams) : Int × InternalParams :=
  (mclkFreq (w.mdiv p.reads p.mdiv % 256) extClk, { p with reads := p.reads + 1 })

/-- `FE_STB0899_GetAlpha` -/
def getAlpha (p : InternalParams) : Int × InternalParams :=
  (if w.read p.reads % 2 = 1 then 20 else 35, { p with reads := p.reads + 1 })

/-- `FE_STB0899_InitialCalculations` -/
def initialCalculations (p : InternalParams) : InternalParams :=
  let (masterClock, p) := getMclkFreq w p.quartz p
  let (rollOff, p) := getAlpha w { p with masterClock := masterClock, mclk := masterClock.tdiv 65536 }
  { p with rollOff := rollOff }

/-- The default of the register that holds `MDIV`. -/
def ncoarseDefault : Nat := 0x17

/-- `FE_STB0899_Init`: the registers get their defaults, and the rest of the structure is what `kmalloc` returns. -/
def feStb0899Init (memory : InternalParams) : InternalParams :=
  initialCalculations w { memory with quartz := 27000000, mdiv := ncoarseDefault }

/-- `FE_STB0899_SetMclk` -/
def setMclk (mclk extClk : Int) (p : InternalParams) : InternalParams :=
  let (masterClock, p) := getMclkFreq w p.quartz { p with mdiv := ((6 * mclk).tdiv extClk - 1).toNat }
  { p with masterClock := masterClock }

/-! ## The tuner -/

def bandwidthOf (field : Nat) : Int := ((field % 32 : Nat) + 5) * 2000000

def tunerGetBandwidth (p : InternalParams) : Int × InternalParams :=
  (bandwidthOf (w.read p.reads), { p with reads := p.reads + 1 })

def carrierWidth (symbolRate rollOff : Int) : Int := symbolRate + (symbolRate * rollOff).tdiv 100

def subRangeFor (searchRange symbolRate rollOff bandwidth : Int) : Int :=
  let maxsubrange := bandwidth - (carrierWidth symbolRate rollOff).tdiv 2
  if maxsubrange > 0 then headerMin searchRange maxsubrange else 0

def firstSubRange (p : InternalParams) : InternalParams :=
  let (bandwidth, p) := tunerGetBandwidth w p
  { p with
    subRange := subRangeFor p.searchRange p.symbolRate p.rollOff bandwidth
    frequency := p.baseFreq
    tunerOffset := 0
    subDir := 1 }

def nextSubRange (p : InternalParams) : InternalParams :=
  let next :=
    if p.subDir > 0 then
      let rest := headerMin (p.searchRange.tdiv 2 - (p.tunerOffset + p.subRange.tdiv 2)) p.subRange
      let subRange := if rest < 0 then 0 else rest
      { p with subRange := subRange, tunerOffset := p.tunerOffset + (p.subRange + subRange).tdiv 2 }
    else p
  { next with
    frequency := next.baseFreq + (next.subDir * next.tunerOffset).tdiv 1000
    subDir := -next.subDir }

/-! ## The checks -/

/-- `FE_STB0899_CheckTiming`. The macro `ABS` reads the field twice. -/
def checkTiming (p : InternalParams) : InternalParams :=
  let locked := w.read p.reads % 256
  let timing :=
    if signed8 (w.read (p.reads + 1)) < 0 then -signed8 (w.read (p.reads + 2)) else signed8 (w.read (p.reads + 2))
  { p with
    state := if locked ≥ 42 then if locked > 48 ∧ timing ≥ 110 then .analogCarrier else .timingOk else .noTiming
    reads := p.reads + 3 }

/-- `FE_STB0899_CheckCarrier` -/
def checkCarrier (p : InternalParams) : InternalParams :=
  { p with
    state := if w.read p.reads % 2 = 1 then .carrierOk else .noCarrier
    reads := p.reads + 1 }

/-- The time that `FE_STB0899_CheckData` waits for. -/
def dataTime (symbolRate : Int) : Nat :=
  if symbolRate ≤ 2000000 then 2000
  else if symbolRate ≤ 5000000 then 1500
  else if symbolRate ≤ 15000000 then 1000
  else 500

/-- The loop of `FE_STB0899_CheckData` from the reading `k` on: whether the Viterbi decoder is locked, and the number of
the next reading. -/
def viterbiLoop : Nat → Nat → Bool × Nat
  | 0, k => if w.read k % 2 = 1 then (true, k + 1) else (false, k + 2)
  | n + 1, k =>
    if w.read k % 2 = 1 then (true, k + 1)
    else if w.read (k + 1) % 2 = 1 then (false, k + 2)
    else viterbiLoop n (k + 2)

/-- `FE_STB0899_CheckData` -/
def checkData (p : InternalParams) : InternalParams :=
  let (lock, reads) := viterbiLoop w (dataTime p.symbolRate) p.reads
  { p with
    state := if lock then .dataOk else .noData
    reads := reads }

def getDerotator (p : InternalParams) : InternalParams :=
  let msb := w.read p.reads % 256
  let lsb := w.read (p.reads + 1) % 256
  { p with
    derotFreq := iqWiring * short (msb * 256 + lsb)
    reads := p.reads + 2 }

/-! ## The loops -/

structure Zigzag where
  p : InternalParams
  derotFreq : Int
  lastDerotFreq : Int
  nextLoop : Nat
  index : Int

/-- The next derotator position. `index` cannot wrap in a way that changes the low 16 bits. -/
def Zigzag.move (step limit : Int) (s : Zigzag) : Zigzag :=
  let derotFreq := short (s.derotFreq + s.index * s.p.direction * step)
  { s with
    derotFreq := derotFreq
    nextLoop := if headerAbs derotFreq > limit then s.nextLoop - 1 else s.nextLoop }

def Zigzag.setDerotator (s : Zigzag) : Zigzag :=
  { s with p := { s.p with derotator := s.p.derotator ++ [iqWiring * s.derotFreq] } }

def Zigzag.advance (step limit : Int) (s : Zigzag) : Zigzag :=
  let moved := s.move step limit
  if moved.nextLoop ≠ 0 then moved.setDerotator else moved

def Zigzag.turn (s : Zigzag) : Zigzag := { s with p := { s.p with direction := -s.p.direction } }

/-- A pass of the loop of `FE_STB0899_SearchTiming`, the check in front of it included. -/
def timingPass (step limit : Int) (_fuel : Nat) (s : Zigzag) : Flow Zigzag :=
  let s := { s with p := checkTiming w s.p }
  if s.p.state = .timingOk ∨ s.nextLoop = 0 then .leave s
  else .again ({ s with index := s.index + 1 }.advance step limit).turn

/-- `FE_STB0899_SearchTiming`, with fuel for its loop. -/
def searchTiming (fuel : Nat) (p : InternalParams) : Option InternalParams :=
  let limit := short ((p.subRange.tdiv 2).tdiv p.mclk)
  let step := short ((p.symbolRate.tdiv 2).tdiv p.mclk)
  (runLoop (fun _ => True) (timingPass w step limit) fuel ⟨{ p with state := .noTiming }, 0, 0, 3, 0⟩).map fun s =>
    if s.p.state = .timingOk then
      getDerotator w { s.p with results := { s.p.results with symbolRate := s.p.symbolRate } }
    else s.p

/-- A pass of the loop of `FE_STB0899_SearchCarrier`. -/
def carrierPass (step limit : Int) (_fuel : Nat) (s : Zigzag) : Flow Zigzag :=
  let s := { s with p := checkCarrier w s.p }
  let s : Zigzag :=
    if s.p.state = .noCarrier then
      { s with index := s.index + 1, lastDerotFreq := s.derotFreq }.advance step limit
    else { s with p := { s.p with results := { s.p.results with symbolRate := s.p.symbolRate } } }
  if s.p.state ≠ .carrierOk ∧ s.nextLoop ≠ 0 then .again s.turn else .leave s.turn

/-- `FE_STB0899_SearchCarrier` -/
def searchCarrier (fuel : Nat) (p : InternalParams) : Option InternalParams :=
  let limit := short ((p.subRange.tdiv 2).tdiv p.mclk)
  (runLoop (fun _ => True) (carrierPass w p.derotStep limit) fuel
    ⟨{ p with state := .noCarrier }, short p.derotFreq, 0, 3, 0⟩).map fun s =>
      if s.p.state = .carrierOk then getDerotator w s.p else { s.p with derotFreq := s.lastDerotFreq }

/-- The test of `FE_STB0899_SearchData`: the data are checked only if there is a carrier. -/
def dataFound (p : InternalParams) : InternalParams := if p.state ≠ .carrierOk then p else checkData w p

/-- A pass of the loop of `FE_STB0899_SearchData`. -/
def dataPass (step limit : Int) (_fuel : Nat) (s : Zigzag) : Flow Zigzag :=
  let s := { s with p := dataFound w s.p }
  let s : Zigzag :=
    if s.p.state ≠ .dataOk then
      let moved := s.move step limit
      if moved.nextLoop ≠ 0 then
        { moved.setDerotator with p := checkCarrier w moved.setDerotator.p, index := moved.index + 1 }
      else moved
    else s
  if s.p.state ≠ .dataOk ∧ s.nextLoop ≠ 0 then .again s.turn else .leave s.turn

/-- `FE_STB0899_SearchData` -/
def searchData (fuel : Nat) (p : InternalParams) : Option InternalParams :=
  let step := short ((p.symbolRate.tdiv 4).tdiv p.mclk)
  let limit := short ((p.subRange.tdiv 2).tdiv p.mclk)
  (runLoop (fun _ => True) (dataPass w step limit) fuel ⟨p, short p.derotFreq, 0, 3, 1⟩).map fun s =>
    if s.p.state = .dataOk then getDerotator w s.p else s.p

/-! ## The search -/

/-- `FE_STB0899_CheckRange` -/
def checkRange (p : InternalParams) : InternalParams :=
  let rangeOffset := p.searchRange.tdiv 2000
  let transponderFrequency := p.frequency + (p.derotFreq * p.mclk).tdiv 1000
  { p with
    state :=
      if transponderFrequency ≥ p.baseFreq - rangeOffset ∧ transponderFrequency ≤ p.baseFreq + rangeOffset then .rangeOk
      else .outOfRange }

def setResults (p : InternalParams) : InternalParams :=
  { p with
    results :=
      { p.results with
        frequency := p.frequency + (p.derotFreq * p.mclk).tdiv 1000
        punctureRate := w.read p.reads % 32 }
    reads := p.reads + 1 }

/-- What `FE_STB0899_Algo` does before it looks for a signal; the tuner frequency is read back. -/
def algoStart (p : InternalParams) : InternalParams :=
  let p := firstSubRange w
    { p with
      frequency := p.baseFreq
      direction := 1
      derotStep := p.derotPercent * (p.symbolRate.tdiv 1000).tdiv p.mclk }
  { p with
    derotator := p.derotator ++ [0]
    derotFreq := 0
    state := .noAgc1
    frequency := ((w.read p.reads % 2 ^ 32 : Nat) : Int)
    reads := p.reads + 1 }

def findTiming (fuel : Nat) (p : InternalParams) : Option InternalParams :=
  let (bandwidth, p) := tunerGetBandwidth w { p with state := .agc1Ok }
  if p.symbolRate ≤ bandwidth.tdiv 2 then searchTiming w fuel p else some (checkTiming w p)

/-- What follows in `FE_STB0899_Algo` when timing has been found or not. -/
def findData (fuel : Nat) (p : InternalParams) : Option InternalParams :=
  if p.state ≠ .timingOk then some p
  else
    (searchCarrier w fuel p).bind fun p =>
      if p.state ≠ .carrierOk then some p
      else
        (searchData w fuel p).map fun p =>
          if p.state ≠ .dataOk then p
          else
            let p := checkRange p
            if p.state ≠ .rangeOk then p else setResults w p

/-- `FE_STB0899_Algo` with fuel for its loops; the value that it returns, and the parameters. -/
def algo (fuel : Nat) (p : InternalParams) : Option (SignalType × InternalParams) :=
  let p := algoStart w p
  if w.tunerError p.reads then some (.noCarrier, p)
  else
    ((findTiming w fuel p).bind fun p => findData w fuel p).map fun p =>
      let p := if p.state ≠ .rangeOk then nextSubRange p else p
      (p.state, { p with results := { p.results with signalType := p.state } })

/-- `FE_STB0899_SearchParams_t`, as far as a search for DVB-S uses it. -/
structure SearchParams where
  frequency : Nat
  symbolRate : Nat
  searchRange : Nat
  standard : CodingStandard
  deriving DecidableEq

/-- The test of `FE_STB0899_Search`. -/
def SearchParams.Accepted (q : SearchParams) : Prop :=
  (1000000 ≤ q.symbolRate ∧ q.symbolRate ≤ 45000000) ∧ 1000000 ≤ q.searchRange ∧ q.searchRange ≤ 50000000

instance (q : SearchParams) : Decidable q.Accepted := inferInstanceAs (Decidable (_ ∧ _))

/-- What `FE_STB0899_Search` does before the algorithm runs: low symbol rates get a clock of 45 MHz, others 108 MHz. -/
def searchStart (q : SearchParams) (p : InternalParams) : InternalParams :=
  let p := setMclk w (if q.symbolRate ≤ 5000000 then 45000000 else 108000000) p.quartz p
  let p :=
    { p with baseFreq := q.frequency, symbolRate := q.symbolRate, searchRange := q.searchRange, derotPercent := 10 }
  let (bandwidth, p) := tunerGetBandwidth w p
  { p with tunerBw := bandwidth }

/-- `FE_STB0899_SearchResult_t`, and whether the parameters are accepted. -/
structure SearchResult where
  badParameter : Bool
  locked : Bool
  frequency : Int
  symbolRate : Int
  rate : Nat
  deriving DecidableEq

/-- The parameters that a DVB-S2 search sets in front of its own algorithm, which is left out. -/
def searchStartDvbs2 (q : SearchParams) (p : InternalParams) : InternalParams :=
  let p := setMclk w (if q.symbolRate ≤ 5000000 then 45000000 else 108000000) p.quartz p
  let p := { p with frequency := q.frequency, baseFreq := q.frequency, searchRange := q.searchRange }
  let (bandwidth, p) := tunerGetBandwidth w p
  { p with tunerBw := bandwidth }

/-- `FE_STB0899_Search` for DVB-S and DSS. -/
def search (fuel : Nat) (q : SearchParams) (p : InternalParams) : Option (SearchResult × InternalParams) :=
  if ¬ q.Accepted then some (⟨true, false, 0, 0, 0⟩, p)
  else if q.standard = .dvbs2 then
    some (⟨false, false, 0, 0, 0⟩, searchStartDvbs2 w q p)
  else
    (algo w fuel (searchStart w q p)).map fun r =>
      if r.1 = .rangeOk ∧ w.demodError r.2.reads = false then
        (⟨false, true, r.2.results.frequency, r.2.results.symbolRate, r.2.results.punctureRate⟩, r.2)
      else (⟨false, false, 0, 0, 0⟩, r.2)

end Driver

/-! ## The sub ranges of a search

The tuner is to be moved through the search range in sub ranges. With a minimum that is a maximum, they leave the range at
the first or the second of them. -/

def availableRange (symbolRate rollOff bandwidth : Int) : Int :=
  max (bandwidth - (carrierWidth symbolRate rollOff).tdiv 2) 0

/-- The first sub range lies within both bounds, and all that follow stay inside the search range and do not grow. -/
structure SubRangesInside (searchRange bandwidth : Int) (first : InternalParams) : Prop where
  le_search : first.subRange ≤ searchRange
  le_available : first.subRange ≤ availableRange first.symbolRate first.rollOff bandwidth
  inside : ∀ n, (nextSubRange^[n] first).tunerOffset + (nextSubRange^[n] first).subRange.tdiv 2 ≤ searchRange.tdiv 2
  nonneg : ∀ n, 0 ≤ (nextSubRange^[n] first).subRange
  le_previous : ∀ n, (nextSubRange^[n + 1] first).subRange ≤ (nextSubRange^[n] first).subRange

section Steps

variable {searchRange symbolRate rollOff bandwidth : Int} {p : InternalParams}

theorem nextSubRange_subRange (hdir : p.subDir = 1) (hoffset : p.tunerOffset = 0) (hrange : 0 ≤ p.subRange) :
    (nextSubRange p).subRange = headerMin (p.searchRange.tdiv 2 - p.subRange.tdiv 2) p.subRange := by
  have hpos : p.subDir > 0 := by omega
  have hge : p.subRange ≤ headerMin (p.searchRange.tdiv 2 - p.subRange.tdiv 2) p.subRange := by
    rw [headerMin]
    split
    · assumption
    · exact Int.le_refl _
  rw [nextSubRange]
  simp only [if_pos hpos,hoffset,Int.zero_add]
  rw [if_neg (by omega)]

theorem nextSubRange_tunerOffset (hdir : p.subDir = 1) (hoffset : p.tunerOffset = 0) :
    (nextSubRange p).tunerOffset = (p.subRange + (nextSubRange p).subRange).tdiv 2 := by
  have hpos : p.subDir > 0 := by omega
  rw [nextSubRange]
  simp only [if_pos hpos,hoffset,Int.zero_add]

theorem subRangeFor_of_not_pos (h : ¬ bandwidth - (carrierWidth symbolRate rollOff).tdiv 2 > 0) :
    subRangeFor searchRange symbolRate rollOff bandwidth = 0 := if_neg h

theorem subRangeFor_of_pos (searchRange : Int) (h : bandwidth - (carrierWidth symbolRate rollOff).tdiv 2 > 0) :
    searchRange ≤ subRangeFor searchRange symbolRate rollOff bandwidth ∧
      availableRange symbolRate rollOff bandwidth ≤ subRangeFor searchRange symbolRate rollOff bandwidth := by
  rw [availableRange,Int.max_eq_left (by omega),subRangeFor]
  simp only [if_pos h,headerMin]
  split
  · exact ⟨Int.le_refl _,by omega⟩
  · exact ⟨by omega,Int.le_refl _⟩

end Steps

/-- For no search that is accepted do the sub ranges stay inside. -/
theorem subRanges_not_inside (w : Readings) (q : SearchParams) (p : InternalParams) (haccepted : q.Accepted)
    (hrange : p.searchRange = q.searchRange) :
    ¬ SubRangesInside p.searchRange (bandwidthOf (w.read p.reads)) (firstSubRange w p) := by
  intro h
  have hlow : 1000000 ≤ p.searchRange := by
    have := haccepted.2.1
    omega
  have hsubRange : (firstSubRange w p).subRange =
      subRangeFor p.searchRange p.symbolRate p.rollOff (bandwidthOf (w.read p.reads)) := rfl
  have hnonneg : 0 ≤ (firstSubRange w p).subRange := h.nonneg 0
  have hnext : (nextSubRange (firstSubRange w p)).subRange =
      headerMin (p.searchRange.tdiv 2 - (firstSubRange w p).subRange.tdiv 2) (firstSubRange w p).subRange :=
    nextSubRange_subRange rfl rfl hnonneg
  have hhalf : p.searchRange.tdiv 2 = p.searchRange / 2 := Int.tdiv_eq_ediv_of_nonneg (by omega)
  by_cases hwide : bandwidthOf (w.read p.reads) - (carrierWidth p.symbolRate p.rollOff).tdiv 2 > 0
  · -- the first sub range is as large as both bounds, and the next one lies behind it
    obtain ⟨hsearch, -⟩ := subRangeFor_of_pos p.searchRange hwide
    have hfirst : (firstSubRange w p).subRange = p.searchRange := Int.le_antisymm h.le_search (by omega)
    rw [hfirst, Int.sub_self, headerMin, if_neg (by omega)] at hnext
    have hoffset := nextSubRange_tunerOffset (p := firstSubRange w p) rfl rfl
    rw [hfirst, hnext] at hoffset
    have hinside := h.inside 1
    rw [Function.iterate_one, hoffset, hnext, hhalf, Int.tdiv_eq_ediv_of_nonneg (by omega)] at hinside
    omega
  · -- the first sub range is empty, and the next one is not
    have hfirst : (firstSubRange w p).subRange = 0 := hsubRange.trans (subRangeFor_of_not_pos hwide)
    rw [hfirst, Int.zero_tdiv, Int.sub_zero, headerMin, if_pos (by omega)] at hnext
    have hprevious := h.le_previous 0
    rw [Function.iterate_succ_apply, Function.iterate_zero_apply, Function.iterate_zero_apply, hnext, hfirst] at hprevious
    omega

section Samples

def narrowReadings : Readings := ⟨fun _ => 0, fun _ mdiv => mdiv, fun _ => false, fun _ => false⟩

def wideSearch : SearchParams := ⟨1000000, 1000000, 40000000, .dvbs1⟩

def wideParams : InternalParams :=
  { quartz := 27000000, frequency := 0, baseFreq := 1000000, subRange := 0, tunerOffset := 0, tunerBw := 0,
    state := .noAgc1, symbolRate := 1000000, masterClock := 0, mclk := 0, searchRange := 40000000, rollOff := 35,
    derotFreq := 0, derotPercent := 10, derotStep := 0, direction := 1, subDir := 1,
    results := ⟨0, .noAgc1, 0, 0⟩, mdiv := 0, derotator := [], reads := 0 }

theorem subRanges_not_inside_wide :
    ¬ SubRangesInside 40000000 (bandwidthOf (narrowReadings.read 0)) (firstSubRange narrowReadings wideParams) :=
  subRanges_not_inside narrowReadings wideSearch wideParams (by decide) rfl

/-- The first sub range is the whole search range, though the tuner lets 9 MHz through. -/
theorem first_subRange_too_wide : (firstSubRange narrowReadings wideParams).subRange = 40000000 ∧
      availableRange 1000000 35 (bandwidthOf (narrowReadings.read 0)) = 9325000 ∧
      ¬ SubRangesInside 40000000 (bandwidthOf (narrowReadings.read 0)) (firstSubRange narrowReadings wideParams) :=
  ⟨by decide, by decide, fun h => absurd h.le_available (by decide)⟩

end Samples

end LinuxDvb.Stb0899
