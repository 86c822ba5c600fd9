import LinuxDvb.Framework.Trace
import LinuxDvb.Frontends.Stb0899.SearchEnds

/-!
# The derotator unit of the STB0899

A derotator step stands for the master clock divided by 65536. The initialisation keeps this unit in the parameters,
and every search sets the clock for its symbol rate, but not the unit.
-/

namespace LinuxDvb.Stb0899

/-! ## Where steps are converted -/

/-- The chip runs at the master clock of the parameters, and their unit is that of the derotator at this clock. -/
structure Settings.UnitMatches (c : Settings) : Prop where
  running : c.masterClock = mclkFreq c.mdiv c.quartz
  unit : c.mclk = c.masterClock.tdiv 65536

section Conversions

variable (w : Readings) (fuel : Nat)

/-- The parameters with which `FE_STB0899_SearchData` and what follows it converts. -/
def dataConversions (p : InternalParams) : List InternalParams :=
  p :: (searchData w fuel p).elim [] fun p =>
    if p.state ≠ .dataOk then []
    else if (checkRange p).state ≠ .rangeOk then [p]
    else [p, checkRange p]

/-- The parameters with which `FE_STB0899_SearchCarrier` and what follows it converts. -/
def carrierConversions (p : InternalParams) : List InternalParams :=
  p :: (searchCarrier w fuel p).elim [] fun p => if p.state ≠ .carrierOk then [] else dataConversions w fuel p

/-- The parameters with which `FE_STB0899_SearchTiming` converts, if it is called. -/
def timingConversions (p : InternalParams) : List InternalParams :=
  let (bandwidth, p) := tunerGetBandwidth w { p with state := .agc1Ok }
  if p.symbolRate ≤ bandwidth.tdiv 2 then [p] else []

/-- The parameters with which `FE_STB0899_Algo` converts between derotator steps and Hz, as far as the fuel leads. -/
def conversions (p : InternalParams) : List InternalParams :=
  let started := algoStart w p
  if w.tunerError started.reads then [p]
  else
    p :: timingConversions w started ++ (findTiming w fuel started).elim [] fun p =>
      if p.state ≠ .timingOk then [] else carrierConversions w fuel p

end Conversions

/-! ## Runs -/

/-- Readings in which the divider of the master clock comes back as it was written. -/
structure FaithfulReadings extends Readings where
  mdiv_eq : ∀ k v, mdiv k v = v

inductive ClockCall where
  | init (w : FaithfulReadings) (memory : InternalParams)
  | search (w : FaithfulReadings) (fuel : Nat) (q : SearchParams)

/-- A use of the unit: a conversion, or the frequency of a search that has found a signal. -/
inductive UnitUse where
  | converts (p : InternalParams)
  | reports (frequency : Int) (p : InternalParams)

/-- The reported frequency is away from the one of the tuner by the offset of the derotator in kHz. -/
def UnitUse.Right : UnitUse → Prop
  | .converts p => p.settings.UnitMatches
  | .reports frequency p => frequency = p.frequency + (p.derotFreq * (mclkFreq p.mdiv p.quartz).tdiv 65536).tdiv 1000

def reported : Option (SearchResult × InternalParams) → List UnitUse
  | some (result, p) => if result.locked then [.reports result.frequency p] else []
  | none => []

/-- The parameters after a call, if there are some and it ends, and what it uses the unit for. -/
def clockStep (s : Option InternalParams) : ClockCall → Option InternalParams × List UnitUse
  | .init w memory => (some (feStb0899Init w.toReadings memory), [])
  | .search w fuel q =>
    match s with
    | none => (none, [])
    | some p =>
      ((search w.toReadings fuel q p).map Prod.snd,
        if q.Accepted ∧ q.standard ≠ .dvbs2 then
          (conversions w.toReadings fuel (searchStart w.toReadings q p)).map .converts ++
            reported (search w.toReadings fuel q p)
        else [])

def KeepsClock (s : Option InternalParams) : ClockCall → Prop
  | .init _ _ => True
  | .search _ _ q => s ≠ none → q.Accepted ∧ q.standard ≠ .dvbs2 → 5000000 < q.symbolRate

/-! ## What a search keeps -/

section Keeps

variable {w : Readings} {fuel : Nat} {p p' : InternalParams} {c : Settings} {q : SearchParams}

theorem findTiming_stays (h : Stays c p) (hrun : findTiming w fuel p = some p') : Stays c p' := by
  by_cases hlow : p.symbolRate ≤ (bandwidthOf (w.read p.reads)).tdiv 2
  · rw [findTiming_of_le hlow] at hrun
    exact searchTiming_stays (h.setState (by decide) _) hrun
  · rw [findTiming_of_gt (not_le.mp hlow)] at hrun
    exact Option.some.inj hrun ▸ Stays.checkTiming (h.setState (by decide) _)

/-- What is found keeps the settings, and its frequency is that of the tuner and the derotator. -/
structure Located (c : Settings) (p : InternalParams) : Prop where
  settings : p.settings = c
  frequency : p.state = .rangeOk → p.results.frequency = p.frequency + (p.derotFreq * p.mclk).tdiv 1000

theorem Stays.located (h : Stays c p) : Located c p := ⟨h.settings, fun hrange => absurd hrange h.searching⟩

theorem fromCarrier_located (h : Stays c p) (hrun : fromCarrier w fuel p = some p') : Located c p' := by
  rw [fromCarrier] at hrun
  split_ifs at hrun
  · exact Option.some.inj hrun ▸ h.located
  · obtain ⟨found,hdata,rfl⟩ := map_eq_some_iff.mp hrun
    have hstays := searchData_stays h hdata
    dsimp only
    split_ifs with hnone hout
    · exact hstays.located
    · exact ⟨hstays.settings,fun hrange => absurd hrange hout⟩
    · exact ⟨hstays.settings,fun _ => rfl⟩

theorem findData_located (h : Stays c p) (hrun : findData w fuel p = some p') : Located c p' := by
  by_cases hstate : p.state = .timingOk
  · rw [findData_of_timing hstate] at hrun
    obtain ⟨found,hcarrier,hrun⟩ := bind_eq_some_iff.mp hrun
    exact fromCarrier_located (searchCarrier_stays h hcarrier) hrun
  · rw [show findData w fuel p = some p from if_pos hstate] at hrun
    exact Option.some.inj hrun ▸ h.located

theorem dataConversions_settings (h : Stays c p) : ∀ p' ∈ dataConversions w fuel p, p'.settings = c := by
  rw [dataConversions,forall_mem_cons]
  refine ⟨h.settings,?_⟩
  cases hdata : searchData w fuel p with
  | none => exact fun p' hp' => absurd hp' not_mem_nil
  | some found =>
    have hsettings := (searchData_stays h hdata).settings
    dsimp only [elim_some]
    split_ifs
    · exact fun p' hp' => absurd hp' not_mem_nil
    · exact forall_mem_singleton.mpr hsettings
    · exact forall_mem_cons.mpr ⟨hsettings,forall_mem_singleton.mpr hsettings⟩

theorem carrierConversions_settings (h : Stays c p) : ∀ p' ∈ carrierConversions w fuel p, p'.settings = c := by
  rw [carrierConversions,forall_mem_cons]
  refine ⟨h.settings,?_⟩
  cases hcarrier : searchCarrier w fuel p with
  | none => exact fun p' hp' => absurd hp' not_mem_nil
  | some found =>
    dsimp only [elim_some]
    split_ifs
    · exact fun p' hp' => absurd hp' not_mem_nil
    · exact dataConversions_settings (searchCarrier_stays h hcarrier)

theorem timingConversions_settings (h : Stays c p) : ∀ p' ∈ timingConversions w p, p'.settings = c := by
  by_cases hlow : p.symbolRate ≤ (bandwidthOf (w.read p.reads)).tdiv 2
  · rw [show timingConversions w p = _ from if_pos hlow]
    exact forall_mem_singleton.mpr h.settings
  · rw [show timingConversions w p = _ from if_neg hlow]
    exact fun p' hp' => absurd hp' not_mem_nil

theorem stays_algoStart (w : Readings) (p : InternalParams) : Stays (algoStart w p).settings (algoStart w p) :=
  ⟨rfl, .inl rfl, SignalType.noConfusion⟩

theorem conversions_settings (w : Readings) (fuel : Nat) (p : InternalParams) :
    ∀ p' ∈ conversions w fuel p, p' = p ∨ p'.settings = (algoStart w p).settings := by
  rw [conversions]
  split_ifs
  · exact forall_mem_singleton.mpr (.inl rfl)
  · rw [cons_append,forall_mem_cons,forall_mem_append]
    refine ⟨.inl rfl,fun p' hp' => .inr (timingConversions_settings (stays_algoStart w p) p' hp'),?_⟩
    cases htiming : findTiming w fuel (algoStart w p) with
    | none => exact fun p' hp' => absurd hp' not_mem_nil
    | some found =>
      dsimp only [elim_some]
      split_ifs
      · exact fun p' hp' => absurd hp' not_mem_nil
      · exact fun p' hp' => .inr (carrierConversions_settings (findTiming_stays (stays_algoStart w p) htiming) p' hp')

theorem mem_conversions (w : Readings) (fuel : Nat) (p : InternalParams) : p ∈ conversions w fuel p := by
  rw [conversions]
  split_ifs
  · exact mem_singleton_self p
  · exact mem_cons_self

theorem unitMatches_algoStart (w : Readings) (p : InternalParams) :
    (algoStart w p).settings.UnitMatches ↔ p.settings.UnitMatches :=
  ⟨fun h => ⟨h.running, h.unit⟩, fun h => ⟨h.running, h.unit⟩⟩

theorem forall_conversions_iff (w : Readings) (fuel : Nat) (p : InternalParams) :
    (∀ p' ∈ conversions w fuel p, p'.settings.UnitMatches) ↔ p.settings.UnitMatches := by
  refine ⟨fun h => h p (mem_conversions w fuel p),fun h p' hp' => ?_⟩
  obtain rfl | hsettings := conversions_settings w fuel p p' hp'
  · exact h
  · rw [hsettings]
    exact (unitMatches_algoStart w p).mpr h

theorem nextSubRange_keeps (p : InternalParams) :
    (nextSubRange p).quartz = p.quartz ∧ (nextSubRange p).mdiv = p.mdiv ∧ (nextSubRange p).mclk = p.mclk ∧
      (nextSubRange p).state = p.state := by
  rw [nextSubRange]
  dsimp only
  split_ifs <;> exact ⟨rfl,rfl,rfl,rfl⟩

/-- Behind the algorithm: the clock, and the frequency of a signal in range. -/
structure Ended (p : InternalParams) (signal : SignalType) (p' : InternalParams) : Prop where
  quartz : p'.quartz = p.quartz
  mdiv : p'.mdiv = p.mdiv
  mclk : p'.mclk = p.mclk
  frequency : signal = .rangeOk → p'.results.frequency = p'.frequency + (p'.derotFreq * p'.mclk).tdiv 1000

theorem algo_ended {r : SignalType × InternalParams} (hrun : algo w fuel p = some r) : Ended p r.1 r.2 := by
  rw [algo] at hrun
  dsimp only at hrun
  split_ifs at hrun
  · cases hrun
    exact ⟨rfl,rfl,rfl,SignalType.noConfusion⟩
  · obtain ⟨found,hfound,rfl⟩ := map_eq_some_iff.mp hrun
    obtain ⟨timed,htimed,hfound⟩ := bind_eq_some_iff.mp hfound
    have hlocated := findData_located (findTiming_stays (stays_algoStart w p) htimed) hfound
    have hquartz : found.quartz = p.quartz := congrArg Settings.quartz hlocated.settings
    have hmdiv : found.mdiv = p.mdiv := congrArg Settings.mdiv hlocated.settings
    have hmclk : found.mclk = p.mclk := congrArg Settings.mclk hlocated.settings
    dsimp only
    split_ifs with hrange
    · obtain ⟨hquartz',hmdiv',hmclk',hstate⟩ := nextSubRange_keeps found
      exact ⟨hquartz'.trans hquartz,hmdiv'.trans hmdiv,hmclk'.trans hmclk,
        fun hcon => absurd (hstate.symm.trans hcon) hrange⟩
    · exact ⟨hquartz,hmdiv,hmclk,hlocated.frequency⟩

theorem search_ended {result : SearchResult} (haccepted : q.Accepted) (hstandard : q.standard ≠ .dvbs2)
    (hrun : search w fuel q p = some (result, p')) :
    ∃ signal, Ended (searchStart w q p) signal p' ∧
      (result.locked = true → signal = .rangeOk ∧ result.frequency = p'.results.frequency) := by
  rw [search,if_neg (not_not.mpr haccepted),if_neg hstandard] at hrun
  obtain ⟨r,hr,hresult⟩ := map_eq_some_iff.mp hrun
  refine ⟨r.1,?_⟩
  split_ifs at hresult with hlock
  · cases hresult
    exact ⟨algo_ended hr,fun _ => ⟨hlock.1,rfl⟩⟩
  · cases hresult
    exact ⟨algo_ended hr,fun hlocked => absurd hlocked Bool.false_ne_true⟩

theorem search_keeps {result : SearchResult} (hrun : search w fuel q p = some (result, p')) :
    p'.quartz = p.quartz ∧ p'.mclk = p.mclk := by
  by_cases haccepted : q.Accepted
  · by_cases hstandard : q.standard = .dvbs2
    · rw [search,if_neg (not_not.mpr haccepted),if_pos hstandard] at hrun
      cases hrun
      exact ⟨rfl,rfl⟩
    · obtain ⟨signal,hended,-⟩ := search_ended haccepted hstandard hrun
      exact ⟨hended.quartz,hended.mclk⟩
  · rw [search,if_pos haccepted] at hrun
    cases hrun
    exact ⟨rfl,rfl⟩

theorem reported_right (haccepted : q.Accepted) (hstandard : q.standard ≠ .dvbs2)
    (hunit : (searchStart w q p).settings.UnitMatches) : ∀ o ∈ reported (search w fuel q p), o.Right := by
  cases hrun : search w fuel q p with
  | none => exact fun o ho => absurd ho not_mem_nil
  | some r =>
    obtain ⟨result,p'⟩ := r
    obtain ⟨signal,hended,hreport⟩ := search_ended haccepted hstandard hrun
    intro o ho
    simp only [reported] at ho
    split_ifs at ho with hlocked
    · obtain ⟨hsignal,hfrequency⟩ := hreport hlocked
      have hrunning : (searchStart w q p).masterClock = mclkFreq p'.mdiv p'.quartz := by
        rw [hended.mdiv,hended.quartz]
        exact hunit.running
      have hmclk : p'.mclk = (mclkFreq p'.mdiv p'.quartz).tdiv 65536 := by
        rw [hended.mclk,← hrunning]
        exact hunit.unit
      rw [mem_singleton.mp ho,UnitUse.Right,hfrequency,hended.frequency hsignal,hmclk]
    · exact absurd ho not_mem_nil

end Keeps

/-! ## The clock of a search -/

def HasInitUnit (s : Option InternalParams) : Prop := ∀ p, s = some p → p.quartz = 27000000 ∧ p.mclk = 1647

theorem hasInitUnit_clockStep (s : Option InternalParams) (call : ClockCall) (h : HasInitUnit s) :
    HasInitUnit (clockStep s call).1 := by
  cases call with
  | init w memory =>
    intro p hp
    cases hp
    exact ⟨rfl,mclk_feStb0899Init_default (w.mdiv_eq _ _)⟩
  | search w fuel q =>
    cases s with
    | none => exact fun p hp => absurd hp (some_ne_none p).symm
    | some p =>
      intro p' hp'
      obtain ⟨⟨result,p''⟩,hrun,rfl⟩ := map_eq_some_iff.mp hp'
      obtain ⟨hquartz,hmclk⟩ := search_keeps hrun
      obtain ⟨hquartz',hmclk'⟩ := h p rfl
      exact ⟨hquartz.trans hquartz',hmclk.trans hmclk'⟩

theorem searchStart_slow (w : FaithfulReadings) {q : SearchParams} {p : InternalParams} (hquartz : p.quartz = 27000000)
    (hslow : q.symbolRate ≤ 5000000) :
    (searchStart w.toReadings q p).mdiv = 9 ∧ (searchStart w.toReadings q p).masterClock = 45000000 := by
  have hmdiv : (searchStart w.toReadings q p).mdiv = 9 := by
    simp [searchStart,setMclk,getMclkFreq,tunerGetBandwidth,hslow,hquartz]
  refine ⟨hmdiv,?_⟩
  have hclock : (searchStart w.toReadings q p).masterClock =
      mclkFreq (w.mdiv p.reads (searchStart w.toReadings q p).mdiv % 256) p.quartz := rfl
  rw [hclock,w.mdiv_eq,hmdiv,hquartz]
  rfl

theorem searchStart_fast (w : FaithfulReadings) {q : SearchParams} {p : InternalParams} (hquartz : p.quartz = 27000000)
    (hfast : ¬ q.symbolRate ≤ 5000000) :
    (searchStart w.toReadings q p).mdiv = 23 ∧ (searchStart w.toReadings q p).masterClock = 108000000 := by
  have hmdiv : (searchStart w.toReadings q p).mdiv = 23 := by
    simp [searchStart,setMclk,getMclkFreq,tunerGetBandwidth,hfast,hquartz]
  refine ⟨hmdiv,?_⟩
  have hclock : (searchStart w.toReadings q p).masterClock =
      mclkFreq (w.mdiv p.reads (searchStart w.toReadings q p).mdiv % 256) p.quartz := rfl
  rw [hclock,w.mdiv_eq,hmdiv,hquartz]
  rfl

theorem unitMatches_searchStart_iff (w : FaithfulReadings) (q : SearchParams) {p : InternalParams}
    (hquartz : p.quartz = 27000000) (hmclk : p.mclk = 1647) :
    (searchStart w.toReadings q p).settings.UnitMatches ↔ 5000000 < q.symbolRate := by
  by_cases hslow : q.symbolRate ≤ 5000000
  · refine iff_of_false (fun h => ?_) (not_lt.mpr hslow)
    have hunit : p.mclk = (searchStart w.toReadings q p).masterClock.tdiv 65536 := h.unit
    rw [hmclk,(searchStart_slow w hquartz hslow).2] at hunit
    exact absurd hunit (by decide)
  · refine iff_of_true ⟨?_,?_⟩ (not_le.mp hslow)
    · obtain ⟨hmdiv,hclock⟩ := searchStart_fast w hquartz hslow
      have hquartz' : (searchStart w.toReadings q p).quartz = 27000000 := hquartz
      simp only [InternalParams.settings,hmdiv,hclock,hquartz']
      rfl
    · have hmclk' : (searchStart w.toReadings q p).mclk = 1647 := hmclk
      simp only [InternalParams.settings,hmclk',(searchStart_fast w hquartz hslow).2]
      rfl

theorem clockStep_right_iff (s : Option InternalParams) (call : ClockCall) (h : HasInitUnit s) :
    (∀ o ∈ (clockStep s call).2, o.Right) ↔ KeepsClock s call := by
  cases call with
  | init w memory => exact iff_of_true (fun o ho => absurd ho not_mem_nil) trivial
  | search w fuel q =>
    cases s with
    | none => exact iff_of_true (fun o ho => absurd ho not_mem_nil) fun hcon => absurd rfl hcon
    | some p =>
      obtain ⟨hquartz,hmclk⟩ := h p rfl
      simp only [clockStep,KeepsClock]
      split_ifs with haccepted
      · rw [← unitMatches_searchStart_iff w q hquartz hmclk,forall_mem_append,List.forall_mem_map]
        rw [show (∀ p' ∈ conversions w.toReadings fuel (searchStart w.toReadings q p), (UnitUse.converts p').Right) ↔ _
          from forall_conversions_iff w.toReadings fuel (searchStart w.toReadings q p)]
        refine ⟨fun hall _ _ => hall.1,fun hunit => ?_⟩
        have hunit' := hunit (some_ne_none p) haccepted
        exact ⟨hunit',reported_right haccepted.1 haccepted.2 hunit'⟩
      · exact iff_of_true (fun o ho => absurd ho not_mem_nil) fun _ hcon => absurd hcon haccepted

/-- Exactly in the runs whose searches for DVB-S and DSS all keep the clock of the initialisation is every conversion
made with the unit of the clock that the chip runs at. -/
theorem derotator_unit_matches_iff (calls : List ClockCall) :
    (∀ o ∈ (runTrace clockStep none calls).2, o.Right) ↔ StepsMeet clockStep KeepsClock none calls :=
  forall_output_iff_stepsMeet HasInitUnit hasInitUnit_clockStep clockStep_right_iff
    (fun p hp => absurd hp (Option.some_ne_none p).symm) calls

def silentReadings : FaithfulReadings := ⟨⟨fun _ => 0, fun _ v => v, fun _ => false, fun _ => false⟩, fun _ _ => rfl⟩

def lowRateCalls : List ClockCall :=
  [.init silentReadings blankParams, .search silentReadings 10 ⟨1000000, 3000000, 5000000, .dvbs1⟩]

/-- The chip runs at 45 MHz, but steps are converted as for 108 MHz. -/
theorem low_rate_unit_differs : ¬ ∀ o ∈ (runTrace clockStep none lowRateCalls).2, o.Right := by
  intro h
  have hunit : HasInitUnit (clockStep none (.init silentReadings blankParams)).1 :=
    hasInitUnit_clockStep none _ fun p hp => absurd hp (Option.some_ne_none p).symm
  have hsearch := (clockStep_right_iff _ (.search silentReadings 10 ⟨1000000, 3000000, 5000000, .dvbs1⟩) hunit).mp
    fun o ho => h o (List.mem_append_right _ (List.mem_append_left _ ho))
  exact absurd (hsearch (Option.some_ne_none _) (by decide)) (by decide)

end LinuxDvb.Stb0899
