import LinuxDvb.DvbCore.Demux.TsFeed

/-!
# The feed API with its mutex

All operations on feeds and section filters that `dvb_demux.c` gives to the demux device, with every place at which
`demux->mutex` is taken and given back.
-/

namespace LinuxDvb.FeedApi

open Demux (DmxState DmxType TsType dmxMaxPid pesSlot decoderSlot dmxTsPesOther firstFree)

/-- Membership in a list of numbers, decided by a walk along it. -/
scoped instance decidableMemFin {k : Nat} (i : Fin k) (l : List (Fin k)) : Decidable (i ∈ l) :=
  decidable_of_iff (l.any (· = i) = true) (by simp)

/-- `start_feed` and `stop_feed` of the driver, `none` if it has not set them. -/
structure Hooks (σ : Type) where
  startFeed : Option (σ → Bool → σ × Int)
  stopFeed : Option (σ → Bool → σ × Int)

/-- `struct dvb_demux_feed`; `filter` is the chain that starts at its field of this name. -/
structure DvbDemuxFeed (m : Nat) where
  type : DmxType
  state : DmxState
  pid : Nat
  tsType : TsType
  pesType : Nat
  checkCrc : Bool
  isFiltering : Bool
  filter : List (Fin m)

def DvbDemuxFeed.go {m : Nat} (feed : DvbDemuxFeed m) : DvbDemuxFeed m :=
  { feed with isFiltering := true, state := .go }

def DvbDemuxFeed.stop {m : Nat} (state : DmxState) (feed : DvbDemuxFeed m) : DvbDemuxFeed m :=
  { feed with isFiltering := false, state := state }

structure DvbDemuxFilter (n : Nat) where
  type : DmxType
  state : DmxState
  feed : Option (Fin n)

/-- `struct dvb_demux` with `n` feeds and `m` filters, and the state of the driver. -/
structure DvbDemux (σ : Type) (n m : Nat) where
  driver : σ
  mutex : Bool
  frontend : Bool
  feed : Fin n → DvbDemuxFeed m
  filter : Fin m → DvbDemuxFilter n
  pesfilter : Fin dmxTsPesOther → Option (Fin n)
  pids : Fin dmxTsPesOther → Nat
  feedList : List (Fin n)

/-- How a call ends: it returns, tries to take a mutex that it holds, or follows a null pointer. -/
inductive Outcome (σ : Type) (n m : Nat) where
  | returned (demux : DvbDemux σ n m) (ret : Int)
  | relocks
  | undefined

variable {σ : Type} {n m : Nat}

namespace DvbDemux

/-- `mutex_lock_interruptible` with what follows; a signal may end the wait. -/
def lock (demux : DvbDemux σ n m) (signal : Bool) (rest : DvbDemux σ n m → Outcome σ n m) : Outcome σ n m :=
  if demux.mutex then .relocks
  else if signal then .returned demux errRestartsys
  else rest { demux with mutex := true }

/-- `mutex_unlock` and `return` -/
def unlock (demux : DvbDemux σ n m) (ret : Int) : Outcome σ n m := .returned { demux with mutex := false } ret

def updateFeed (demux : DvbDemux σ n m) (feed : Fin n) (f : DvbDemuxFeed m → DvbDemuxFeed m) : DvbDemux σ n m :=
  { demux with feed := Function.update demux.feed feed (f (demux.feed feed)) }

def updateFilter (demux : DvbDemux σ n m) (filter : Fin m) (f : DvbDemuxFilter n → DvbDemuxFilter n) :
    DvbDemux σ n m :=
  { demux with filter := Function.update demux.filter filter (f (demux.filter filter)) }

/-- `dvb_demux_feed_add` -/
def feedAdd (demux : DvbDemux σ n m) (feed : Fin n) : DvbDemux σ n m :=
  if feed ∈ demux.feedList then demux else { demux with feedList := feed :: demux.feedList }

/-- `dvb_demux_feed_del` -/
def feedDel (demux : DvbDemux σ n m) (feed : Fin n) : DvbDemux σ n m :=
  { demux with feedList := demux.feedList.erase feed }

/-- `dvb_dmx_feed_alloc` -/
def feedAlloc (demux : DvbDemux σ n m) : Option (Fin n × DvbDemux σ n m) :=
  (firstFree fun i => (demux.feed i).state).map fun i =>
    (i, demux.updateFeed i fun f => { f with state := .allocated })

/-- `dvb_dmx_filter_alloc` -/
def filterAlloc (demux : DvbDemux σ n m) : Option (Fin m × DvbDemux σ n m) :=
  (firstFree fun i => (demux.filter i).state).map fun i =>
    (i, demux.updateFilter i fun f => { f with state := .allocated })

/-- The end of both functions that start a feed: ask the driver, and note that the feed filters. -/
def startFeed (hooks : Hooks σ) (demux : DvbDemux σ n m) (feed : Fin n) : Outcome σ n m :=
  match hooks.startFeed with
  | none => demux.unlock errNodev
  | some startFeed =>
    let r := startFeed demux.driver demux.frontend
    let demux := { demux with driver := r.1 }
    if r.2 < 0 then demux.unlock r.2
    else (demux.updateFeed feed DvbDemuxFeed.go).unlock 0

/-- The end of both functions that stop a feed: tell the driver, and leave the feed in the given state. -/
def stopFeed (hooks : Hooks σ) (demux : DvbDemux σ n m) (feed : Fin n) (state : DmxState) : Outcome σ n m :=
  match hooks.stopFeed with
  | none => demux.unlock errNodev
  | some stopFeed =>
    let r := stopFeed demux.driver demux.frontend
    let demux := { demux with driver := r.1 }
    (demux.updateFeed feed (DvbDemuxFeed.stop state)).unlock r.2

/-! ### TS feeds -/

def dmxTsFeedSet (demux : DvbDemux σ n m) (feed : Fin n) (pid : Nat) (tsType : TsType) (pesType : Nat)
    (signal : Bool) : Outcome σ n m :=
  let setFeed := fun demux : DvbDemux σ n m =>
    ((demux.feedAdd feed).updateFeed feed fun f =>
      { f with pid := pid, tsType := tsType, pesType := pesType, state := .ready }).unlock 0
  if pid > dmxMaxPid then .returned demux errInval
  else demux.lock signal fun demux =>
    if tsType.decoder then
      match pesSlot pesType with
      | none => demux.unlock errInval
      | some t =>
        if (demux.pesfilter t).any (· ≠ feed) then demux.unlock errInval
        else
          setFeed { demux with
            pesfilter := Function.update demux.pesfilter t (some feed)
            pids := Function.update demux.pids t pid }
    else setFeed demux

def dmxTsFeedStartFiltering (hooks : Hooks σ) (demux : DvbDemux σ n m) (feed : Fin n) (signal : Bool) :
    Outcome σ n m :=
  demux.lock signal fun demux =>
    if (demux.feed feed).state ≠ .ready ∨ (demux.feed feed).type ≠ .ts then demux.unlock errInval
    else startFeed hooks demux feed

def dmxTsFeedStopFiltering (hooks : Hooks σ) (demux : DvbDemux σ n m) (feed : Fin n) (signal : Bool) :
    Outcome σ n m :=
  demux.lock signal fun demux =>
    if (demux.feed feed).state ≠ .go then demux.unlock errInval
    else stopFeed hooks demux feed .allocated

def dvbdmxAllocateTsFeed (demux : DvbDemux σ n m) (signal : Bool) : Outcome σ n m :=
  demux.lock signal fun demux =>
    match demux.feedAlloc with
    | none => demux.unlock errBusy
    | some (feed, demux) =>
      let demux := demux.updateFeed feed fun f => { f with type := .ts, pid := 0xffff, isFiltering := false }
      match demux.filterAlloc with
      | none => (demux.updateFeed feed fun f => { f with filter := [], state := .free }).unlock errBusy
      | some (filter, demux) =>
        let demux := demux.updateFeed feed fun f => { f with filter := [filter] }
        (demux.updateFilter filter fun _ => ⟨.ts, .ready, some feed⟩).unlock 0

def dvbdmxReleaseTsFeed (demux : DvbDemux σ n m) (feed : Fin n) (signal : Bool) : Outcome σ n m :=
  demux.lock signal fun demux =>
    let f := demux.feed feed
    if f.state = .free then demux.unlock errInval
    else
      match f.filter with
      | [] => .undefined
      | filter :: _ =>
        let demux := demux.updateFilter filter fun g => { g with state := .free }
        let demux := (demux.updateFeed feed fun f => { f with state := .free, pid := 0xffff }).feedDel feed
        match decoderSlot f.tsType f.pesType with
        | none => demux.unlock 0
        | some t => { demux with pesfilter := Function.update demux.pesfilter t none }.unlock 0

/-! ### Section feeds -/

def dmxSectionFeedAllocateFilter (demux : DvbDemux σ n m) (feed : Fin n) (signal : Bool) : Outcome σ n m :=
  demux.lock signal fun demux =>
    match demux.filterAlloc with
    | none => demux.unlock errBusy
    | some (filter, demux) =>
      let demux := demux.updateFilter filter fun _ => ⟨.sec, .ready, some feed⟩
      (demux.updateFeed feed fun f => { f with filter := filter :: f.filter }).unlock 0

def dmxSectionFeedSet (demux : DvbDemux σ n m) (feed : Fin n) (pid : Nat) (checkCrc signal : Bool) :
    Outcome σ n m :=
  if pid > 0x1fff then .returned demux errInval
  else demux.lock signal fun demux =>
    ((demux.feedAdd feed).updateFeed feed fun f =>
      { f with pid := pid, checkCrc := checkCrc, state := .ready }).unlock 0

def dmxSectionFeedStartFiltering (hooks : Hooks σ) (demux : DvbDemux σ n m) (feed : Fin n) (signal : Bool) :
    Outcome σ n m :=
  demux.lock signal fun demux =>
    if (demux.feed feed).isFiltering then demux.unlock errBusy
    else if (demux.feed feed).filter = [] then demux.unlock errInval
    else startFeed hooks demux feed

def dmxSectionFeedStopFiltering (hooks : Hooks σ) (demux : DvbDemux σ n m) (feed : Fin n) (signal : Bool) :
    Outcome σ n m :=
  demux.lock signal fun demux => stopFeed hooks demux feed .ready

/-- The function that the allocation of the feed has put into `stop_filtering`. -/
def stopFiltering (hooks : Hooks σ) (demux : DvbDemux σ n m) (feed : Fin n) (signal : Bool) : Outcome σ n m :=
  match (demux.feed feed).type with
  | .ts => dmxTsFeedStopFiltering hooks demux feed signal
  | .sec | .pes => dmxSectionFeedStopFiltering hooks demux feed signal

/-- The end of `dmx_section_feed_release_filter`; the search for a filter that is not in the chain runs off its
end. -/
def unchainFilter (demux : DvbDemux σ n m) (feed : Fin n) (filter : Fin m) : Outcome σ n m :=
  if filter ∈ (demux.feed feed).filter then
    let demux := demux.updateFeed feed fun f => { f with filter := f.filter.erase filter }
    (demux.updateFilter filter fun g => { g with state := .free }).unlock 0
  else .undefined

def dmxSectionFeedReleaseFilter (hooks : Hooks σ) (demux : DvbDemux σ n m) (feed : Fin n) (filter : Fin m)
    (signal : Bool) : Outcome σ n m :=
  demux.lock signal fun demux =>
    if (demux.filter filter).feed ≠ some feed then demux.unlock errInval
    else if (demux.feed feed).isFiltering then
      match stopFiltering hooks demux feed signal with
      | .returned demux _ => unchainFilter demux feed filter
      | .relocks => .relocks
      | .undefined => .undefined
    else unchainFilter demux feed filter

def dvbdmxAllocateSectionFeed (demux : DvbDemux σ n m) (signal : Bool) : Outcome σ n m :=
  demux.lock signal fun demux =>
    match demux.feedAlloc with
    | none => demux.unlock errBusy
    | some (feed, demux) =>
      (demux.updateFeed feed fun f =>
        { f with type := .sec, pid := 0xffff, filter := [], isFiltering := false }).unlock 0

def dvbdmxReleaseSectionFeed (demux : DvbDemux σ n m) (feed : Fin n) (signal : Bool) : Outcome σ n m :=
  demux.lock signal fun demux =>
    if (demux.feed feed).state = .free then demux.unlock errInval
    else ((demux.updateFeed feed fun f => { f with state := .free, pid := 0xffff }).feedDel feed).unlock 0

/-! ### Frontends -/

/-- `dvbdmx_connect_frontend`; the test for a connected frontend comes before the lock. -/
def dvbdmxConnectFrontend (demux : DvbDemux σ n m) (signal : Bool) : Outcome σ n m :=
  if demux.frontend then .returned demux errInval
  else demux.lock signal fun demux => { demux with frontend := true }.unlock 0

def dvbdmxDisconnectFrontend (demux : DvbDemux σ n m) (signal : Bool) : Outcome σ n m :=
  demux.lock signal fun demux => { demux with frontend := false }.unlock 0

end DvbDemux

/-! ### Calls -/

/-- A call; `signal` says whether a signal arrives while it waits for the mutex. -/
inductive Call (n m : Nat) where
  | allocateTsFeed
  | tsFeedSet (feed : Fin n) (pid : Nat) (tsType : TsType) (pesType : Nat)
  | tsFeedStart (feed : Fin n)
  | tsFeedStop (feed : Fin n)
  | releaseTsFeed (feed : Fin n)
  | allocateSectionFeed
  | sectionFeedSet (feed : Fin n) (pid : Nat) (checkCrc : Bool)
  | sectionFeedStart (feed : Fin n)
  | sectionFeedStop (feed : Fin n)
  | allocateFilter (feed : Fin n)
  | releaseFilter (feed : Fin n) (filter : Fin m)
  | releaseSectionFeed (feed : Fin n)
  | connectFrontend
  | disconnectFrontend
  deriving DecidableEq

def DvbDemux.call (hooks : Hooks σ) (demux : DvbDemux σ n m) (signal : Bool) : Call n m → Outcome σ n m
  | .allocateTsFeed => demux.dvbdmxAllocateTsFeed signal
  | .tsFeedSet feed pid tsType pesType => demux.dmxTsFeedSet feed pid tsType pesType signal
  | .tsFeedStart feed => dmxTsFeedStartFiltering hooks demux feed signal
  | .tsFeedStop feed => dmxTsFeedStopFiltering hooks demux feed signal
  | .releaseTsFeed feed => demux.dvbdmxReleaseTsFeed feed signal
  | .allocateSectionFeed => demux.dvbdmxAllocateSectionFeed signal
  | .sectionFeedSet feed pid checkCrc => demux.dmxSectionFeedSet feed pid checkCrc signal
  | .sectionFeedStart feed => dmxSectionFeedStartFiltering hooks demux feed signal
  | .sectionFeedStop feed => dmxSectionFeedStopFiltering hooks demux feed signal
  | .allocateFilter feed => demux.dmxSectionFeedAllocateFilter feed signal
  | .releaseFilter feed filter => dmxSectionFeedReleaseFilter hooks demux feed filter signal
  | .releaseSectionFeed feed => demux.dvbdmxReleaseSectionFeed feed signal
  | .connectFrontend => demux.dvbdmxConnectFrontend signal
  | .disconnectFrontend => demux.dvbdmxDisconnectFrontend signal

/-- A step of a run: a call, and whether a signal arrives. A call that does not return leaves no new state. -/
def DvbDemux.step (hooks : Hooks σ) (demux : DvbDemux σ n m) (i : Call n m × Bool) : DvbDemux σ n m × List Int :=
  match demux.call hooks i.2 i.1 with
  | .returned demux' ret => (demux', [ret])
  | _ => (demux, [])

end LinuxDvb.FeedApi
