import LinuxDvb.DvbCore.Demux.SectionFeed
import LinuxDvb.DvbCore.Dmxdev.ReadSec

/-!
# Filters of the demux device

The filters of one `struct dmxdev` with the section feeds they share: `dvb_dmxdev_filter_start` and
`dvb_dmxdev_filter_stop` with the feed functions under them, the calls of the user that reach them, and the callback
and the timer that change a filter behind their back.
-/

namespace LinuxDvb.Dmxdev

open Ringbuffer Demux

inductive DmxdevType where
  | none | sec | pes
  deriving DecidableEq, Repr

inductive DmxdevState where
  | free | allocated | set | go | done | timedout
  deriving DecidableEq, Repr

/-- `state >= DMXDEV_STATE_GO` -/
def DmxdevState.running : DmxdevState → Bool
  | .go | .done | .timedout => true
  | _ => false

/-- `state >= DMXDEV_STATE_SET` -/
def DmxdevState.configured (state : DmxdevState) : Bool := state = .set ∨ state.running

/-- `struct dmx_sct_filter_params`, with the bits `DMX_CHECK_CRC` and `DMX_ONESHOT` of its flags. -/
structure DmxSctFilterParams where
  pid : Nat
  filter : Mem UInt8
  mask : Mem UInt8
  mode : Mem UInt8
  timeout : Nat
  checkCrc : Bool
  oneshot : Bool

/-- `struct dmxdev_filter`; `timer` says that the timer is pending. -/
structure DmxdevFilter (feeds : Nat) where
  type : DmxdevType
  state : DmxdevState
  params : DmxSctFilterParams
  feedSec : Option (Fin feeds)
  filterSec : Option Nat
  timer : Bool
  reader : SecReader

/-- What an entry of the pool of section filters refers to: `feed`, and `filter.priv`. -/
structure SecFilter (filters feeds : Nat) where
  inUse : Bool
  feed : Option (Fin feeds)
  priv : Option (Fin filters)

/-- `struct dmxdev` with the feeds and the section filters of its demux. -/
structure Device (filters feeds : Nat) where
  filter : Fin filters → DmxdevFilter feeds
  feed : Fin feeds → DvbDemuxFeed
  secfilter : Nat → SecFilter filters feeds

/-- How a call that takes the mutex of the demux goes, and what the driver hook under it returns. -/
structure FeedIo where
  interrupted : Bool
  hook : Option Int

/-- What `dvb_dmxdev_filter_stop` is answered. -/
structure StopIo where
  stopFeed : FeedIo
  releaseFilter : Bool
  restart : FeedIo
  releaseFeed : Bool

/-- What `dvb_dmxdev_filter_start` is answered. `allocFilter` is the pool entry with the contents of its
last use, and `pes` the result of the calls for a PES filter. -/
structure StartIo (feeds : Nat) where
  stop : StopIo
  vmalloc : Bool
  allocFeed : Option (Fin feeds)
  setInterrupted : Bool
  joinStop : FeedIo
  allocFilter : Option DvbDemuxFilter
  restart : FeedIo
  releaseFeed : Bool
  startFeed : FeedIo
  pes : Int

def startFiltering (feed : DvbDemuxFeed) (io : FeedIo) : DvbDemuxFeed × Int :=
  if io.interrupted then (feed, errRestartsys) else dmxSectionFeedStartFiltering feed io.hook

def stopFiltering (feed : DvbDemuxFeed) (io : FeedIo) : DvbDemuxFeed × Int :=
  if io.interrupted then (feed, errRestartsys) else dmxSectionFeedStopFiltering feed io.hook

/-- The parameters are copied to a section filter, which leaves out bytes 1 and 2 of a section. -/
def DmxSctFilterParams.copyTo (para : DmxSctFilterParams) (secfilter : DvbDemuxFilter) : DvbDemuxFilter :=
  { secfilter with
    filterValue := fun i =>
      if i = 0 then para.filter 0 else if i < 3 then secfilter.filterValue i else para.filter (i - 2)
    filterMask := fun i => if i = 0 then para.mask 0 else if i < 3 then 0 else para.mask (i - 2)
    filterMode := fun i =>
      if i = 0 then para.mode 0 else if i < 3 then secfilter.filterMode i else para.mode (i - 2) }

def DmxSctFilterParams.invertMode (params : DmxSctFilterParams) : DmxSctFilterParams :=
  { params with mode := fun i => params.mode i ^^^ 0xff }

def DmxdevFilter.flush {feeds : Nat} (f : DmxdevFilter feeds) : DmxdevFilter feeds :=
  { f with reader := { f.reader with buffer := dvbRingbufferFlush f.reader.buffer } }

namespace Device

variable {filters feeds : Nat}

def updFilter (d : Device filters feeds) (i : Fin filters)
    (g : DmxdevFilter feeds → DmxdevFilter feeds) : Device filters feeds :=
  { d with filter := Function.update d.filter i (g (d.filter i)) }

def setFeed (d : Device filters feeds) (k : Fin feeds) (feed : DvbDemuxFeed) : Device filters feeds :=
  { d with feed := Function.update d.feed k feed }

def runsOn (d : Device filters feeds) (pid : Nat) (i : Fin filters) : Bool :=
  (d.filter i).state.running ∧ (d.filter i).type = .sec ∧ (d.filter i).params.pid = pid

/-- The first of them, as the loops of `dvb_dmxdev_feed_restart` and `dvb_dmxdev_filter_start` find it. -/
def findRunning (d : Device filters feeds) (pid : Nat) : Option (Fin filters) :=
  (List.finRange filters).find? (d.runsOn pid)

/-- `dvb_dmx_filter_alloc` takes a free entry only. -/
def takeFilter (d : Device filters feeds) (allocFilter : Option DvbDemuxFilter) : Option DvbDemuxFilter :=
  allocFilter.filter fun f => !(d.secfilter f.index).inUse

/-- `dmx_section_feed_release_filter`. The call of `stop_filtering` in it waits for the mutex that this
function holds, so it does not stop anything. -/
def releaseFilter (d : Device filters feeds) (k : Fin feeds) (x : Nat) (interrupted : Bool) :
    Device filters feeds :=
  if interrupted then d
  else if (d.secfilter x).feed ≠ some k then d
  else
    { d.setFeed k { d.feed k with filter := (d.feed k).filter.filter fun f => f.index ≠ x } with
      secfilter := Function.update d.secfilter x { d.secfilter x with inUse := false } }

/-- `dvb_dmxdev_feed_stop` of a section filter: stop feed but only mark the specified filter as stopped. -/
def dvbDmxdevFeedStop (d : Device filters feeds) (i : Fin filters) (k : Fin feeds) (io : FeedIo) :
    Device filters feeds :=
  let d := d.updFilter i fun f => { f with state := .set, timer := false }
  d.setFeed k (stopFiltering (d.feed k) io).1

/-- `dvb_dmxdev_feed_start` of a section filter. -/
def dvbDmxdevFeedStart (d : Device filters feeds) (i : Fin filters) (io : FeedIo) : Device filters feeds :=
  let d := d.updFilter i fun f => { f with state := .go }
  match (d.filter i).feedSec with
  | none => d
  | some k => d.setFeed k (startFiltering (d.feed k) io).1

/-- Restart section feed if it has filters left associated with it, otherwise release the feed. -/
def dvbDmxdevFeedRestart (d : Device filters feeds) (i : Fin filters) (k : Fin feeds) (restart : FeedIo)
    (releaseFeed : Bool) : Device filters feeds :=
  match d.findRunning (d.filter i).params.pid with
  | some j => d.dvbDmxdevFeedStart j restart
  | none => if releaseFeed then d else d.setFeed k (dvbdmxReleaseSectionFeed (d.feed k)).1

/-- The section filter of filter `i`, if it has one, is released. -/
def detachSec (d : Device filters feeds) (i : Fin filters) (k : Fin feeds) (interrupted : Bool) :
    Device filters feeds :=
  match (d.filter i).filterSec with
  | none => d
  | some x => d.releaseFilter k x interrupted

/-- The branch of `dvb_dmxdev_filter_stop` for a section filter on feed `k`. -/
def stopSec (d : Device filters feeds) (i : Fin filters) (k : Fin feeds) (io : StopIo) :
    Device filters feeds :=
  let d := d.dvbDmxdevFeedStop i k io.stopFeed
  let d := d.detachSec i k io.releaseFilter
  let d := d.dvbDmxdevFeedRestart i k io.restart io.releaseFeed
  d.updFilter i fun f => { f with feedSec := none }

def dvbDmxdevFilterStop (d : Device filters feeds) (i : Fin filters) (io : StopIo) : Device filters feeds :=
  if !(d.filter i).state.running then d
  else
    match (d.filter i).type with
    | .sec =>
      match (d.filter i).feedSec with
      | none => d.updFilter i DmxdevFilter.flush
      | some k => (d.stopSec i k io).updFilter i DmxdevFilter.flush
    | .pes => d.updFilter i fun f => { f with state := .set }.flush
    | .none => d

/-- The end of the section branch of `dvb_dmxdev_filter_start`, from `allocate_filter` on. -/
def attachSec (d : Device filters feeds) (i : Fin filters) (k : Fin feeds) (io : StartIo feeds) :
    Device filters feeds :=
  match d.takeFilter io.allocFilter with
  | none =>
    let d := d.dvbDmxdevFeedRestart i k io.restart io.releaseFeed
    d.setFeed k (startFiltering (d.feed k) io.startFeed).1
  | some secfilter =>
    let f := (d.filter i).params.copyTo secfilter
    let feed := (dmxSectionFeedAllocateFilter (d.feed k) (some f)).1
    let r := startFiltering feed io.startFeed
    let d := { d.setFeed k r.1 with
      secfilter := Function.update d.secfilter f.index { inUse := true, feed := some k, priv := some i } }
    let d := d.updFilter i fun f =>
      { f with filterSec := some secfilter.index, reader := { f.reader with todo := 0 } }
    if r.2 < 0 then d
    else d.updFilter i fun f => { f with timer := decide (f.params.timeout ≠ 0), state := .go }

/-- `filter.sec` and `feed.sec` are cleared. -/
def clearSec (d : Device filters feeds) (i : Fin filters) : Device filters feeds :=
  d.updFilter i fun f => { f with filterSec := none, feedSec := none }

def joinSec (d : Device filters feeds) (i : Fin filters) (k : Fin feeds) (io : StartIo feeds) :
    Device filters feeds :=
  let d := d.updFilter i fun f => { f with feedSec := some k }
  (d.dvbDmxdevFeedStop i k io.joinStop).attachSec i k io

def ownSec (d : Device filters feeds) (i : Fin filters) (k : Fin feeds) (feed : DvbDemuxFeed)
    (io : StartIo feeds) : Device filters feeds :=
  let para := (d.filter i).params
  let d := d.updFilter i fun f => { f with feedSec := some k }
  let set := if io.setInterrupted then (feed, errRestartsys)
    else dmxSectionFeedSet feed para.pid para.checkCrc
  let d := d.setFeed k set.1
  if set.2 < 0 then d.dvbDmxdevFeedRestart i k io.restart io.releaseFeed
  else d.attachSec i k io

/-- The section branch of `dvb_dmxdev_filter_start`. -/
def startSec (d : Device filters feeds) (i : Fin filters) (io : StartIo feeds) : Device filters feeds :=
  let d := d.clearSec i
  match (d.findRunning (d.filter i).params.pid).bind fun j => (d.filter j).feedSec with
  | some k => d.joinSec i k io
  | none =>
    -- if no feed found, try to allocate new one
    match io.allocFeed with
    | none => d
    | some k =>
      let alloc := dvbdmxAllocateSectionFeed (d.feed k) fun _ _ => 0
      if alloc.2 < 0 then d else d.ownSec i k alloc.1 io

/-- The state in which `dvb_dmxdev_filter_start` goes on after it has stopped a filter that runs. -/
def stopRunning (d : Device filters feeds) (i : Fin filters) (io : StopIo) : Device filters feeds :=
  if (d.filter i).state.running then d.dvbDmxdevFilterStop i io else d

def takeBuffer (d : Device filters feeds) (i : Fin filters) : Device filters feeds :=
  d.updFilter i fun f => { f with reader := { f.reader with hasData := true } }.flush

def dvbDmxdevFilterStart (d : Device filters feeds) (i : Fin filters) (io : StartIo feeds) :
    Device filters feeds :=
  if !(d.filter i).state.configured then d
  else
    let d := d.stopRunning i io.stop
    if !(d.filter i).reader.hasData ∧ !io.vmalloc then d
    else
      let d := d.takeBuffer i
      match (d.filter i).type with
      | .sec => d.startSec i io
      | .pes => if io.pes < 0 then d else d.updFilter i fun f => { f with state := .go }
      | .none => d

end Device

inductive FilterEvent where
  /-- `dvb_dmxdev_filter_start` was called; `oneshot` says that it is a section filter with `DMX_ONESHOT`. -/
  | started (oneshot : Bool)
  /-- `dvb_dmxdev_filter_stop` was called. -/
  | stopped
  /-- The callback took a section for a filter that was waiting for it. -/
  | received (sec : List UInt8)
  /-- A section was written to the buffer. -/
  | written (sec : List UInt8)
  deriving DecidableEq

inductive DmxdevInput (filters feeds : Nat) where
  | open
  | setFilter (i : Fin filters) (params : DmxSctFilterParams) (io : StopIo)
  /-- `DMX_SET_PES_FILTER` and `DMX_SET_CAPTURE`; `params` is what the union of the parameters then holds.
  With a wrong type the call only stops the filter. -/
  | setPesFilter (i : Fin filters) (params : DmxSctFilterParams) (io : StopIo)
  | setBufferSize (i : Fin filters) (size : Nat) (vmalloc : Bool)
  | start (i : Fin filters) (io : StartIo feeds)
  | stop (i : Fin filters) (io : StopIo)
  | close (i : Fin filters) (io : StopIo)
  /-- A section lies at `secbuf` in the buffer of a feed. -/
  | section (k : Fin feeds) (secbufBase : Mem UInt8) (secbuf : Nat)
  | timeout (i : Fin filters)
  /-- A call of `dvb_dmxdev_read_sec`, if no other one is under way. -/
  | read (i : Fin filters) (count : Nat)
  | resume (i : Fin filters)

namespace Device

variable {filters feeds : Nat}

def dvbDmxdevSectionCallback (d : Device filters feeds) (i : Fin filters) (buffer1 : List UInt8) :
    Device filters feeds × List (Fin filters × FilterEvent) :=
  let f := d.filter i
  if f.reader.buffer.error ≠ 0 then (d, [])
  else if f.state ≠ .go then (d, [])
  else
    let w := f.reader.store buffer1
    let f := { f with
      timer := false
      reader := w.1
      state := if f.params.oneshot then .done else f.state }
    (d.updFilter i fun _ => f, (i, .received buffer1) :: if w.2 = [] then [] else [(i, .written buffer1)])

/-- The calls of `cb.sec` reach the filter in `priv`. -/
def callbacks (d : Device filters feeds) :
    List DemuxEvent → Device filters feeds × List (Fin filters × FilterEvent)
  | [] => (d, [])
  | .cbSec x bytes :: es =>
    let r := match (d.secfilter x).priv with
      | none => (d, [])
      | some i => d.dvbDmxdevSectionCallback i bytes
    let rest := callbacks r.1 es
    (rest.1, r.2 ++ rest.2)
  | _ :: es => callbacks d es

/-- The feed with a section at `secbuf`. -/
def sectionFeed (d : Device filters feeds) (k : Fin feeds) (secbufBase : Mem UInt8) (secbuf : Nat) :
    DvbDemuxFeed :=
  let feed := { d.feed k with sec := { (d.feed k).sec with secbufBase := secbufBase, secbuf := secbuf } }
  feed.openSection (sectionLength (secbufBase.shift secbuf))

def sectionArrives (d : Device filters feeds) (k : Fin feeds) (secbufBase : Mem UInt8) (secbuf : Nat) :
    Device filters feeds × List (Fin filters × FilterEvent) :=
  if (d.feed k).state = .free then (d, [])
  else
    let r := dvbDmxSwfilterSectionFeed (d.sectionFeed k secbufBase secbuf)
    (d.setFeed k r.1).callbacks r.2

def dvbDmxdevSetBufferSize (d : Device filters feeds) (i : Fin filters) (size : Nat) (vmalloc : Bool) :
    Device filters feeds :=
  if (d.filter i).reader.buffer.size = size then d
  else if (d.filter i).state.running then d
  else
    d.updFilter i fun f => { f with reader := { f.reader with
      buffer := { dvbRingbufferFlush f.reader.buffer with size := size }
      hasData := decide (size ≠ 0) && vmalloc } }

/-- `dvb_demux_open` for the filter it finds. -/
def openFilter (f : DmxdevFilter feeds) : DmxdevFilter feeds :=
  { f with
    reader := { f.reader with buffer := dvbRingbufferInit f.reader.buffer.data 8192, hasData := false }
    type := .none
    state := .allocated
    feedSec := none
    timer := false }

/-- `dvb_dmxdev_filter_reset` and the end of `dvb_dmxdev_filter_free`. -/
def freeFilter (f : DmxdevFilter feeds) : DmxdevFilter feeds :=
  { f with
    type := if f.state.configured then .none else f.type
    reader := { f.reader with hasData := false }
    state := .free }

def isOpen (d : Device filters feeds) (i : Fin filters) : Bool := (d.filter i).state ≠ .free

/-- There are calls only for a filter that is open, and they wait while a read of it is under way. -/
def whenReady (d : Device filters feeds) (i : Fin filters)
    (r : Device filters feeds × List (Fin filters × FilterEvent)) :
    Device filters feeds × List (Fin filters × FilterEvent) :=
  if d.isOpen i ∧ (d.filter i).reader.pos = .idle then r else (d, [])

end Device

open Device in
def dmxdevStep {filters feeds : Nat} (d : Device filters feeds) :
    DmxdevInput filters feeds → Device filters feeds × List (Fin filters × FilterEvent)
  | .open =>
    match (List.finRange filters).find? fun i => !d.isOpen i with
    | none => (d, [])
    | some i => (d.updFilter i openFilter, [])
  | .setFilter i params io =>
    d.whenReady i
      ((d.dvbDmxdevFilterStop i io).updFilter i fun f =>
        { f with type := .sec, params := params.invertMode, state := .set }, [(i, .stopped)])
  | .setPesFilter i params io =>
    d.whenReady i
      ((d.dvbDmxdevFilterStop i io).updFilter i fun f =>
        { f with type := .pes, params := params, state := .set }, [(i, .stopped)])
  | .setBufferSize i size vmalloc =>
    d.whenReady i (d.dvbDmxdevSetBufferSize i size vmalloc, [])
  | .start i io =>
    d.whenReady i <| if (d.filter i).state.configured then
      (d.dvbDmxdevFilterStart i io, [(i, .started (decide ((d.filter i).type = .sec) && (d.filter i).params.oneshot))])
      else (d, [])
  | .stop i io =>
    d.whenReady i (d.dvbDmxdevFilterStop i io, [(i, .stopped)])
  | .close i io =>
    d.whenReady i
      ((d.dvbDmxdevFilterStop i io).updFilter i freeFilter, [(i, .stopped)])
  | .section k secbufBase secbuf => d.sectionArrives k secbufBase secbuf
  | .timeout i =>
    if (d.filter i).timer then
      (d.updFilter i fun f => { f with
        reader := { f.reader with buffer := { f.reader.buffer with error := errTimedout } }
        timer := false
        state := .timedout }, [])
    else (d, [])
  | .read i count =>
    (d.updFilter i fun f => { f with
      reader := if f.type = .sec then (readStep f.reader (.call count)).1 else f.reader }, [])
  | .resume i => (d.updFilter i fun f => { f with reader := (readStep f.reader .resume).1 }, [])

/-- `dvb_dmxdev_init`: every filter is free. -/
def dmxdevInit (filters feeds : Nat) : Device filters feeds where
  filter := fun _ =>
    { type := .none
      state := .free
      params := { pid := 0, filter := fun _ => 0, mask := fun _ => 0, mode := fun _ => 0, timeout := 0,
                  checkCrc := false, oneshot := false }
      feedSec := none
      filterSec := none
      timer := false
      reader := { SecReader.init (fun _ => 0) 0 (fun _ => 0) with hasData := false } }
  feed := fun _ => zeroFeed
  secfilter := fun _ => { inUse := false, feed := none, priv := none }

def smoothStop : StopIo where
  stopFeed := { interrupted := false, hook := some 0 }
  releaseFilter := false
  restart := { interrupted := false, hook := some 0 }
  releaseFeed := false

/-- A start under which nothing fails, with feed 0 and section filter `x` of the pools. -/
def smoothStart (x : Nat) : StartIo 1 where
  stop := smoothStop
  vmalloc := true
  allocFeed := some 0
  setInterrupted := false
  joinStop := { interrupted := false, hook := some 0 }
  allocFilter := some ⟨fun _ => 0, fun _ => 0, fun _ => 0, fun _ => 0, fun _ => 0, false, x⟩
  restart := { interrupted := false, hook := some 0 }
  releaseFeed := false
  startFeed := { interrupted := false, hook := some 0 }
  pes := 0

def anySection (checkCrc oneshot : Bool) : DmxSctFilterParams where
  pid := 256
  filter := fun _ => 0
  mask := fun _ => 0
  mode := fun _ => 0
  timeout := 0
  checkCrc := checkCrc
  oneshot := oneshot

end LinuxDvb.Dmxdev
