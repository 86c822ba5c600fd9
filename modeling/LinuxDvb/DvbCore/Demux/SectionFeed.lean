import LinuxDvb.Framework.Kernel
import LinuxDvb.DvbCore.Demux.Swfilter

/-!
# Section feed control

The `dmx_section_feed` API of `dvb_demux.c`: allocation, parameters, filters, start and stop. The driver hooks
`start_feed` and `stop_feed` are given by their return value, `none` if the driver has not set them.
-/

namespace LinuxDvb.Demux

/-- `dvbdmx_allocate_section_feed` for the pool entry `dvb_dmx_feed_alloc` looks at. -/
def dvbdmxAllocateSectionFeed (dvbdmxfeed : DvbDemuxFeed) (callback : Nat → List UInt8 → Int) :
    DvbDemuxFeed × Int :=
  if dvbdmxfeed.state ≠ .free then (dvbdmxfeed, errBusy)
  else
    ({ dvbdmxfeed with
        state := .allocated
        type := .sec
        cbSec := callback
        pid := 0xffff
        sec := { dvbdmxfeed.sec with
          secbuf := 0, secbufp := 0, seclen := 0, tsfeedp := 0, isFiltering := false }
        filter := [] }, 0)

def dmxSectionFeedSet (dvbdmxfeed : DvbDemuxFeed) (pid : Nat) (checkCrc : Bool) :
    DvbDemuxFeed × Int :=
  if pid > 0x1fff then (dvbdmxfeed, errInval)
  else
    ({ dvbdmxfeed with
        pid := pid
        sec := { dvbdmxfeed.sec with checkCrc := checkCrc }
        state := .ready }, 0)

def dmxSectionFeedAllocateFilter (dvbdmxfeed : DvbDemuxFeed) (dvbdmxfilter : Option DvbDemuxFilter) :
    DvbDemuxFeed × Int :=
  match dvbdmxfilter with
  | none => (dvbdmxfeed, errBusy)
  | some f => ({ dvbdmxfeed with filter := f :: dvbdmxfeed.filter }, 0)

/-- Body of the loop of `prepare_secfilters`. -/
def prepareSecfilter (f : DvbDemuxFilter) : DvbDemuxFilter :=
  let maskandnotmode := fun i => f.filterMask i &&& ~~~f.filterMode i
  { f with
    maskandmode := fun i => f.filterMask i &&& f.filterMode i
    maskandnotmode := maskandnotmode
    doneq := (List.range dvbDemuxMaskMax).any fun i => maskandnotmode i ≠ 0 }

theorem accepts_iff (f : DvbDemuxFilter) (secbuf : Mem UInt8) : f.accepts secbuf = true ↔
      (¬ ∃ n < dvbDemuxMaskMax, f.maskandmode n &&& (f.filterValue n ^^^ secbuf n) ≠ 0) ∧
        (f.doneq = false ∨
          ∃ n < dvbDemuxMaskMax, f.maskandnotmode n &&& (f.filterValue n ^^^ secbuf n) ≠ 0) := by
  have hany (p : Nat → Prop) [DecidablePred p] :
      ((List.range dvbDemuxMaskMax).any fun n => decide (p n)) = true ↔ ∃ n < dvbDemuxMaskMax, p n := by
    simp [List.any_eq_true]
  rw [← hany,← hany]
  unfold DvbDemuxFilter.accepts
  cases f.doneq <;> simp

theorem prepareSecfilter_doneq_iff (f : DvbDemuxFilter) : (prepareSecfilter f).doneq = true ↔
      ∃ n < dvbDemuxMaskMax, (prepareSecfilter f).maskandnotmode n ≠ 0 := by
  simp [prepareSecfilter,List.any_eq_true]

def prepareSecfilters (dvbdmxfeed : DvbDemuxFeed) : DvbDemuxFeed :=
  { dvbdmxfeed with filter := dvbdmxfeed.filter.map prepareSecfilter }

def DvbDemuxFeed.go (dvbdmxfeed : DvbDemuxFeed) : DvbDemuxFeed :=
  { dvbdmxfeed with sec := { dvbdmxfeed.sec with isFiltering := true }, state := .go }

def dmxSectionFeedStartFiltering (dvbdmxfeed : DvbDemuxFeed) (startFeed : Option Int) :
    DvbDemuxFeed × Int :=
  if dvbdmxfeed.sec.isFiltering then (dvbdmxfeed, errBusy)
  else if dvbdmxfeed.filter.isEmpty then (dvbdmxfeed, errInval)
  else
    -- the cursors are reset even if the start fails below
    let dvbdmxfeed := dvbDmxSwfilterSectionNew dvbdmxfeed
    match startFeed with
    | none => (dvbdmxfeed, errNodev)
    | some ret =>
      let dvbdmxfeed := prepareSecfilters dvbdmxfeed
      if ret < 0 then (dvbdmxfeed, ret)
      else (dvbdmxfeed.go, 0)

def dmxSectionFeedStopFiltering (dvbdmxfeed : DvbDemuxFeed) (stopFeed : Option Int) :
    DvbDemuxFeed × Int :=
  match stopFeed with
  | none => (dvbdmxfeed, errNodev)
  | some ret =>
    ({ dvbdmxfeed with state := .ready, sec := { dvbdmxfeed.sec with isFiltering := false } }, ret)

def dvbdmxReleaseSectionFeed (dvbdmxfeed : DvbDemuxFeed) : DvbDemuxFeed × Int :=
  if dvbdmxfeed.state = .free then (dvbdmxfeed, errInval)
  else ({ dvbdmxfeed with state := .free, pid := 0xffff }, 0)

def zeroFeed : DvbDemuxFeed where
  ts := { isFiltering := false }
  sec := { isFiltering := false, checkCrc := false, crcVal := 0, secbuf := 0, secbufBase := fun _ => 0,
           secbufp := 0, seclen := 0, tsfeedp := 0 }
  cbSec := fun _ _ => 0
  type := .ts
  state := .free
  pid := 0xffff
  filter := []
  tsType := { packet := false, payloadOnly := false, decoder := false }
  cc := 0
  pusiSeen := false
  peslen := 0
  index := 0

def readyFeed : DvbDemuxFeed :=
  { zeroFeed with
    type := .sec
    state := .ready
    filter := [⟨fun _ => 0, fun _ => 0, fun _ => 0, fun _ => 0, fun _ => 0, false, 0⟩] }

theorem startFiltering_cases (feed : DvbDemuxFeed) (startFeed : Option Int) :
    (dmxSectionFeedStartFiltering feed startFeed).2 ≠ 0 ∧
        (dmxSectionFeedStartFiltering feed startFeed).1 = feed ∨
      (dmxSectionFeedStartFiltering feed startFeed).2 ≠ 0 ∧ feed.sec.isFiltering = false ∧
        ((dmxSectionFeedStartFiltering feed startFeed).1 = dvbDmxSwfilterSectionNew feed ∨
          (dmxSectionFeedStartFiltering feed startFeed).1 =
            prepareSecfilters (dvbDmxSwfilterSectionNew feed)) ∨
      feed.sec.isFiltering = false ∧ dmxSectionFeedStartFiltering feed startFeed =
        ((prepareSecfilters (dvbDmxSwfilterSectionNew feed)).go, 0) := by
  unfold dmxSectionFeedStartFiltering
  by_cases hidle : feed.sec.isFiltering = true
  · rw [if_pos hidle]
    exact .inl ⟨by simp [errBusy],rfl⟩
  rw [if_neg hidle]
  rw [Bool.not_eq_true] at hidle
  by_cases hfilter : feed.filter.isEmpty = true
  · rw [if_pos hfilter]
    exact .inl ⟨by simp [errInval],rfl⟩
  rw [if_neg hfilter]
  cases startFeed with
  | none => exact .inr (.inl ⟨by simp [errNodev],hidle,.inl rfl⟩)
  | some ret =>
    dsimp only
    by_cases hret : ret < 0
    · rw [if_pos hret]
      exact .inr (.inl ⟨by dsimp only; omega,hidle,.inr rfl⟩)
    · rw [if_neg hret]
      exact .inr (.inr ⟨hidle,rfl⟩)

theorem startFiltering_of_success {feed : DvbDemuxFeed} {startFeed : Option Int}
    (h : (dmxSectionFeedStartFiltering feed startFeed).2 = 0) :
    (dmxSectionFeedStartFiltering feed startFeed).1 =
      (prepareSecfilters (dvbDmxSwfilterSectionNew feed)).go := by
  rcases startFiltering_cases feed startFeed with ⟨hne,-⟩ | ⟨hne,-⟩ | ⟨-,heq⟩
  · exact absurd h hne
  · exact absurd h hne
  · rw [heq]

end LinuxDvb.Demux
