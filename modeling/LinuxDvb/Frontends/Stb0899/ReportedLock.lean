import LinuxDvb.Frontends.Stb0899.MasterClock
import LinuxDvb.Frontends.Stb0899.SetFrontend

/-!
# The locks that are reported for the STB0899

A tuning succeeds if the chip reports a lock behind the search, whatever has become of the search. The lock belongs to
the request if a rejected or failed search never leaves such a report.
-/

namespace LinuxDvb.Stb0899

/-! ## The frequency of a search -/

section Base

variable {w : Readings} {fuel : Nat} {p p' : InternalParams} {s s' : Zigzag} {step limit : Int} {q : SearchParams}

@[simp] theorem baseFreq_checkTiming : (checkTiming w p).baseFreq = p.baseFreq := rfl

@[simp] theorem baseFreq_checkCarrier : (checkCarrier w p).baseFreq = p.baseFreq := rfl

@[simp] theorem baseFreq_getDerotator : (getDerotator w p).baseFreq = p.baseFreq := by
  rw [getDerotator]

@[simp] theorem baseFreq_turn : s.turn.p.baseFreq = s.p.baseFreq := rfl

@[simp] theorem baseFreq_dataFound : (dataFound w p).baseFreq = p.baseFreq := by
  rw [dataFound]
  split_ifs
  · rfl
  · rfl

@[simp] theorem baseFreq_advance : (s.advance step limit).p.baseFreq = s.p.baseFreq := by
  rw [Zigzag.advance]
  split_ifs
  · rfl
  · rfl

theorem timingPass_baseFreq (fuel : Nat)
    (hpass : timingPass w step limit fuel s = .again s' ∨ timingPass w step limit fuel s = .leave s') :
    s'.p.baseFreq = s.p.baseFreq := by
  rw [timingPass] at hpass
  dsimp only at hpass
  split_ifs at hpass
  · simp only [Flow.leave.injEq,false_or] at hpass
    rw [← hpass]
    rfl
  · simp only [Flow.again.injEq,or_false] at hpass
    rw [← hpass]
    simp

theorem carrierPass_baseFreq (fuel : Nat)
    (hpass : carrierPass w step limit fuel s = .again s' ∨ carrierPass w step limit fuel s = .leave s') :
    s'.p.baseFreq = s.p.baseFreq := by
  rw [carrierPass] at hpass
  dsimp only at hpass
  split_ifs at hpass
  all_goals
    simp only [Flow.leave.injEq,Flow.again.injEq,false_or,or_false] at hpass
    rw [← hpass]
    simp

theorem dataPass_baseFreq (fuel : Nat)
    (hpass : dataPass w step limit fuel s = .again s' ∨ dataPass w step limit fuel s = .leave s') :
    s'.p.baseFreq = s.p.baseFreq := by
  rw [dataPass] at hpass
  dsimp only at hpass
  split_ifs at hpass
  all_goals
    simp only [Flow.leave.injEq,Flow.again.injEq,false_or,or_false] at hpass
    rw [← hpass]
    simp [Zigzag.setDerotator,Zigzag.move]

theorem searchTiming_baseFreq (hrun : searchTiming w fuel p = some p') : p'.baseFreq = p.baseFreq := by
  obtain ⟨s,hs,rfl⟩ := map_eq_some_iff.mp hrun
  have hbase : s.p.baseFreq = p.baseFreq :=
    LoopEnds.invariant (fun s => s.p.baseFreq = p.baseFreq)
      (fun _ _ fuel hs hpass => (timingPass_baseFreq fuel hpass).trans hs) rfl ⟨fuel,hs⟩
  split_ifs
  · exact baseFreq_getDerotator.trans hbase
  · exact hbase

theorem searchCarrier_baseFreq (hrun : searchCarrier w fuel p = some p') : p'.baseFreq = p.baseFreq := by
  obtain ⟨s,hs,rfl⟩ := map_eq_some_iff.mp hrun
  have hbase : s.p.baseFreq = p.baseFreq :=
    LoopEnds.invariant (fun s => s.p.baseFreq = p.baseFreq)
      (fun _ _ fuel hs hpass => (carrierPass_baseFreq fuel hpass).trans hs) rfl ⟨fuel,hs⟩
  split_ifs
  · exact baseFreq_getDerotator.trans hbase
  · exact hbase

theorem searchData_baseFreq (hrun : searchData w fuel p = some p') : p'.baseFreq = p.baseFreq := by
  obtain ⟨s,hs,rfl⟩ := map_eq_some_iff.mp hrun
  have hbase : s.p.baseFreq = p.baseFreq :=
    LoopEnds.invariant (fun s => s.p.baseFreq = p.baseFreq)
      (fun _ _ fuel hs hpass => (dataPass_baseFreq fuel hpass).trans hs) rfl ⟨fuel,hs⟩
  split_ifs
  · exact baseFreq_getDerotator.trans hbase
  · exact hbase

theorem findTiming_baseFreq (hrun : findTiming w fuel p = some p') : p'.baseFreq = p.baseFreq := by
  by_cases hlow : p.symbolRate ≤ (bandwidthOf (w.read p.reads)).tdiv 2
  · rw [findTiming_of_le hlow] at hrun
    have hbase := searchTiming_baseFreq hrun
    exact hbase
  · rw [findTiming_of_gt (not_le.mp hlow)] at hrun
    exact Option.some.inj hrun ▸ rfl

def InRange (baseFreq searchRange frequency : Int) : Prop :=
  baseFreq - searchRange.tdiv 2000 ≤ frequency ∧ frequency ≤ baseFreq + searchRange.tdiv 2000

theorem checkRange_inRange (h : (checkRange p).state = .rangeOk) :
    InRange p.baseFreq p.searchRange (p.frequency + (p.derotFreq * p.mclk).tdiv 1000) := by
  rw [checkRange] at h
  dsimp only at h
  split_ifs at h with hrange
  exact hrange

theorem findData_inRange (hstart : p.state ≠ .rangeOk) {c : Settings} (hstays : Stays c p)
    (hrun : findData w fuel p = some p') (hfound : p'.state = .rangeOk) :
    InRange p.baseFreq c.searchRange p'.results.frequency := by
  by_cases hstate : p.state = .timingOk
  · rw [findData_of_timing hstate] at hrun
    obtain ⟨carried,hcarrier,hrun⟩ := bind_eq_some_iff.mp hrun
    have hcarried := searchCarrier_stays hstays hcarrier
    rw [fromCarrier] at hrun
    split_ifs at hrun
    · exact absurd hfound (Option.some.inj hrun ▸ hcarried.searching)
    · obtain ⟨found,hdata,rfl⟩ := map_eq_some_iff.mp hrun
      have hstay := searchData_stays hcarried hdata
      have hbase := (searchData_baseFreq hdata).trans (searchCarrier_baseFreq hcarrier)
      have hrange : found.searchRange = c.searchRange := congrArg Settings.searchRange hstay.settings
      dsimp only at hfound ⊢
      split_ifs at hfound ⊢ with hnone hout
      · exact absurd hfound hstay.searching
      · exact absurd hfound hout
      · have hinside := checkRange_inRange (not_not.mp hout)
        rw [hbase,hrange] at hinside
        exact hinside
  · rw [show findData w fuel p = some p from if_pos hstate] at hrun
    exact absurd hfound (Option.some.inj hrun ▸ hstart)

theorem algo_inRange {r : SignalType × InternalParams} (hrun : algo w fuel p = some r) (hfound : r.1 = .rangeOk) :
    InRange p.baseFreq p.searchRange r.2.results.frequency := by
  rw [algo] at hrun
  dsimp only at hrun
  split_ifs at hrun
  · cases hrun
    cases hfound
  · obtain ⟨found,hsearch,rfl⟩ := map_eq_some_iff.mp hrun
    obtain ⟨timed,htimed,hdata⟩ := bind_eq_some_iff.mp hsearch
    have hstays := findTiming_stays (stays_algoStart w p) htimed
    have hbase : timed.baseFreq = (algoStart w p).baseFreq := findTiming_baseFreq htimed
    have hstart : (algoStart w p).baseFreq = p.baseFreq := by
      rw [algoStart]
      rfl
    have hrangeStart : (algoStart w p).settings.searchRange = p.searchRange := by
      rw [algoStart]
      rfl
    have hrange : found.state = .rangeOk := by
      by_contra hother
      dsimp only at hfound
      rw [if_pos hother,(nextSubRange_keeps found).2.2.2] at hfound
      exact hother hfound
    have hinside := findData_inRange hstays.searching hstays hdata hrange
    rw [hbase,hstart,hrangeStart] at hinside
    dsimp only
    rw [if_neg (not_not.mpr hrange)]
    exact hinside

theorem search_inRange {result : SearchResult} (hrun : search w fuel q p = some (result, p'))
    (hlocked : result.locked = true) :
    q.Accepted ∧ q.standard ≠ .dvbs2 ∧ result.badParameter = false ∧
      InRange q.frequency q.searchRange result.frequency := by
  by_cases haccepted : q.Accepted
  · by_cases hstandard : q.standard = .dvbs2
    · rw [search,if_neg (not_not.mpr haccepted),if_pos hstandard] at hrun
      cases hrun
      cases hlocked
    · rw [search,if_neg (not_not.mpr haccepted),if_neg hstandard] at hrun
      obtain ⟨r,hr,hresult⟩ := map_eq_some_iff.mp hrun
      split_ifs at hresult with hlock
      · cases hresult
        have hinside := algo_inRange hr hlock.1
        exact ⟨haccepted,hstandard,rfl,hinside⟩
      · cases hresult
        cases hlocked
  · rw [search,if_pos haccepted] at hrun
    cases hrun
    cases hlocked

end Base

/-! ## What is reported -/

/-- The call has made a search that accepted its parameters and locked; for DVB-S and DSS, within the range. -/
def Tuned.Belongs (t : TuneParams) (dvbsMode : Nat) (r : Tuned) : Prop :=
  ∃ result, r.searched = some result ∧ result.badParameter = false ∧ result.locked = true ∧
    (standardOf dvbsMode ≠ .dvbs2 → InRange t.frequency.toNat 40000000 result.frequency)

def LockBelongs (o : Outside) (fuel : Nat) (fe : Frontend) (params : Option TuneParams) : Prop :=
  ∀ r, (stb0899SetFrontend o fuel fe params).value = some r → r.ret = 0 →
    ∃ t, params = some t ∧ r.Belongs t fe.dvbsMode

/-- The block that is searched with: that of the handle, or a new one where there is none or an error is recorded. -/
def searchedBlock (o : Outside) (fe : Frontend) : Option InternalParams :=
  if fe.handle.elim true fun b => chipFails o b.params then o.alloc.map (feStb0899Init o.w)
  else fe.handle.map Block.params

def Silent (o : Outside) (standard : CodingStandard) (p : InternalParams) : Prop :=
  chipFails o p = true ∨ signalLocked o standard p = false

/-- No lock is left over when the parameters are rejected, and none comes up behind a search that has failed. -/
structure NoOtherLock (o : Outside) (fuel : Nat) (fe : Frontend) (t : TuneParams) (p : InternalParams) : Prop where
  rejected : ¬ (requestOf fe.dvbsMode t).Accepted → Silent o (standardOf fe.dvbsMode) p
  failed : (requestOf fe.dvbsMode t).Accepted → ∀ result p',
    searchAny o fuel (requestOf fe.dvbsMode t) p = some (result, p') →
      result.badParameter = true ∨ result.locked = false → Silent o (standardOf fe.dvbsMode) p'

section Report

variable {o : Outside} {fuel : Nat} {fe : Frontend} {params : Option TuneParams} {t : TuneParams} {p p' : InternalParams}

theorem lockResult_eq (standard : CodingStandard) (p : InternalParams) :
    lockResult o standard p = 0 ∨ lockResult o standard p = -1 := by
  rw [lockResult]
  split_ifs
  · exact Or.inr rfl
  · exact Or.inl rfl
  · exact Or.inr rfl

theorem not_silent_iff (standard : CodingStandard) (p : InternalParams) :
    ¬ Silent o standard p ↔ lockResult o standard p = 0 := by
  rw [lockResult_eq_zero_iff,Silent]
  simp

theorem afterTuning_value (pointer : Option Block) (tuned : Option Tuned)
    (h : ∀ r, tuned = some r → r.ret = 0 ∨ r.ret = -1) : (afterTuning pointer fe tuned).value = tuned := by
  cases tuned with
  | none => rfl
  | some r =>
    rw [afterTuning]
    rcases h r rfl with hret | hret
    · rw [if_pos hret]
      rfl
    · rw [if_neg (by rw [hret]; decide),← hret]
      rfl

theorem setFrontend_value : (stb0899SetFrontend o fuel fe params).value =
      (searchedBlock o fe).elim (some ⟨-1, none⟩) fun p => params.elim (some ⟨-1, none⟩) fun t =>
        (searchAny o fuel (requestOf fe.dvbsMode t) p).map fun r =>
          ⟨lockResult o (standardOf fe.dvbsMode) r.2, some r.1⟩ := by
  have hbody : ∀ (pointer : Option Block) (fe' : Frontend) (b : Block), fe'.dvbsMode = fe.dvbsMode →
      (tune o fuel fe' b params >>= afterTuning pointer fe').value =
        params.elim (some ⟨-1,none⟩) fun t => (searchAny o fuel (requestOf fe.dvbsMode t) b.params).map fun r =>
          ⟨lockResult o (standardOf fe.dvbsMode) r.2,some r.1⟩ := by
    intro pointer fe' b hmode
    rw [Logged.value_bind]
    cases params with
    | none => exact afterTuning_value pointer _ fun r hr => Or.inr (Option.some.inj hr ▸ rfl)
    | some t =>
      rw [tune,lockChannel_value,hmode]
      refine afterTuning_value pointer _ fun r hr => ?_
      obtain ⟨found,-,rfl⟩ := map_eq_some_iff.mp hr
      exact lockResult_eq _ _
  rw [stb0899SetFrontend,Logged.value_bind,needsInit_value,searchedBlock]
  by_cases hfresh : (fe.handle.elim true fun b => chipFails o b.params) = true
  · simp only [if_pos hfresh]
    cases halloc : o.alloc with
    | none =>
      have hnone : (st0899Initialize o fe).handle = none := by rw [st0899Initialize,halloc,Option.map_none]
      rw [hnone]
      rfl
    | some memory =>
      obtain ⟨b,hhandle,hparams⟩ : ∃ b, (st0899Initialize o fe).handle = some b ∧
          b.params = feStb0899Init o.w memory := by
        rw [st0899Initialize,halloc]
        exact ⟨_,rfl,rfl⟩
      rw [hhandle,map_some,elim_some,← hparams]
      exact hbody _ _ _ rfl
  · simp only [if_neg hfresh]
    cases hhandle : fe.handle with
    | none =>
      rw [hhandle] at hfresh
      exact absurd rfl hfresh
    | some b =>
      rw [map_some,elim_some]
      exact hbody _ _ _ rfl

theorem searchAny_rejected (hrejected : ¬ (requestOf fe.dvbsMode t).Accepted) (p : InternalParams) :
    searchAny o fuel (requestOf fe.dvbsMode t) p = some (⟨true, false, 0, 0, 0⟩, p) := by
  rw [searchAny,if_neg fun h => hrejected h.1,search,if_pos hrejected]

/-- 0 is returned only for a lock of this call just when no other lock is there. -/
theorem reported_lock_iff (o : Outside) (fuel : Nat) (fe : Frontend) (params : Option TuneParams) :
    LockBelongs o fuel fe params ↔
      ∀ t p, params = some t → searchedBlock o fe = some p → NoOtherLock o fuel fe t p := by
  rw [LockBelongs, setFrontend_value]
  constructor
  · rintro h t p rfl hblock
    rw [hblock, Option.elim_some, Option.elim_some] at h
    have hfound (result : SearchResult) (p' : InternalParams)
        (hsearch : searchAny o fuel (requestOf fe.dvbsMode t) p = some (result, p'))
        (hfailed : result.badParameter = true ∨ result.locked = false) : Silent o (standardOf fe.dvbsMode) p' := by
      by_contra hlock
      have hret := (not_silent_iff _ p').mp hlock
      obtain ⟨t', -, found, hsearched, hgood, hlocked, -⟩ := h _ (by rw [hsearch, Option.map_some]) hret
      cases hsearched
      rcases hfailed with hbad | hnone
      · exact Bool.false_ne_true (hgood.symm.trans hbad)
      · exact Bool.false_ne_true (hnone.symm.trans hlocked)
    exact ⟨fun hrejected => hfound _ p (searchAny_rejected hrejected p) (Or.inl rfl),
      fun _ result p' hsearch hfailed => hfound result p' hsearch hfailed⟩
  · intro h r hvalue hret
    cases hblock : searchedBlock o fe with
    | none =>
      rw [hblock] at hvalue
      cases hvalue
      exact absurd hret (by decide)
    | some p =>
      rw [hblock, Option.elim_some] at hvalue
      cases params with
      | none =>
        cases hvalue
        exact absurd hret (by decide)
      | some t =>
        rw [Option.elim_some] at hvalue
        obtain ⟨⟨result, p'⟩, hsearch, rfl⟩ := Option.map_eq_some_iff.mp hvalue
        have hlock : ¬ Silent o (standardOf fe.dvbsMode) p' := (not_silent_iff _ p').mpr hret
        have hquiet := h t p rfl hblock
        have haccepted : (requestOf fe.dvbsMode t).Accepted := by
          by_contra hrejected
          rw [searchAny_rejected hrejected] at hsearch
          cases hsearch
          exact hlock (hquiet.rejected hrejected)
        have hfound : ¬ (result.badParameter = true ∨ result.locked = false) := fun hfailed =>
          hlock (hquiet.failed haccepted result p' hsearch hfailed)
        rw [not_or, Bool.not_eq_true, Bool.not_eq_false] at hfound
        refine ⟨t, rfl, result, rfl, hfound.1, hfound.2, fun hstandard => ?_⟩
        rw [searchAny, if_neg fun hboth => hstandard hboth.2] at hsearch
        exact (search_inRange hsearch hfound.2).2.2.2

end Report

section Samples

def lockedFrontend : Frontend := ⟨some ⟨0, feStb0899Init setBits.w zeroMemory⟩, 0⟩

/-- A symbol rate that no search accepts is reported as locked, while the chip keeps its lock. -/
theorem other_lock_reported : (stb0899SetFrontend setBits 0 lockedFrontend (some ⟨1000000, 500000⟩)).value =
        some ⟨0, some ⟨true, false, 0, 0, 0⟩⟩ ∧
      ¬ LockBelongs setBits 0 lockedFrontend (some ⟨1000000, 500000⟩) := by
  have hvalue : (stb0899SetFrontend setBits 0 lockedFrontend (some ⟨1000000, 500000⟩)).value =
      some ⟨0, some ⟨true, false, 0, 0, 0⟩⟩ := by decide
  refine ⟨hvalue, fun h => ?_⟩
  obtain ⟨t, -, result, hsearched, hgood, -⟩ := h _ hvalue rfl
  cases hsearched
  cases hgood

end Samples

end LinuxDvb.Stb0899
