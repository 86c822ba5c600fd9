import LinuxDvb.Framework.Memory

/-!
# The filter scheduler of scan

Section filters wait until one of a few places is free, and `read_filters` polls those that run. The poll arrays are
built anew from the list of running filters whenever it changes, also while `read_filters` walks through them: a
section that it reads may add filters, and a filter that is done is removed.
-/

namespace LinuxDvb.Scan

/-! ## The data -/

def maxRunning : Nat := 27

/-- The part of `struct section_buf` that the scheduler uses. -/
structure SectionBuf where
  runOnce : Bool
  segmented : Bool
  fd : Int
  pid : Nat
  tableId : Nat
  tableIdExt : Int
  sectionfilterDone : Bool
  timeout : Int
  startTime : Int
  runningTime : Int
  deriving DecidableEq

/-- `struct pollfd`; the flags only as far as they are zero or not. -/
structure PollFd where
  fd : Int
  events : Bool
  revents : Bool
  deriving DecidableEq

/-- `struct dmx_sct_filter_params`: the first three bytes of the filter and their masks; the others are zero. -/
structure SctFilterParams where
  pid : Nat
  filter : UInt8 × UInt8 × UInt8
  mask : UInt8 × UInt8 × UInt8
  flags : Nat
  deriving DecidableEq

/-- `struct service`, as far as `parse_pat` uses it. -/
structure Service where
  serviceId : Nat
  pmtPid : Nat
  priv : Option Nat
  deriving DecidableEq

inductive FilterEvent where
  | started (p : Nat) (fd : Int) (params : SctFilterParams)
  | stopped (p : Nat) (fd : Int)
  | read (p : Nat) (fd : Int)
  deriving DecidableEq

/-- The scheduler: the section buffers by number, the lists and the arrays, the services of the current transponder,
and the number of system calls. -/
structure Scheduler where
  bufs : Nat → SectionBuf
  /-- The number of buffers that `setup_filter` has been called for. -/
  next : Nat
  running : List Nat
  waiting : List Nat
  nRunning : Int
  pollFds : Nat → PollFd
  pollSectionBufs : Nat → Option Nat
  services : List Service
  calls : Nat
  events : List FilterEvent

/-- The calls of `fatal`, and a loop that has not ended with its fuel. -/
inductive Exit where
  | tooManyPollFds
  | fdIsMinusOne
  | nRunningIsHosed
  | pollSectionBufIsNull
  | hangs
  deriving DecidableEq

/-- What `parse_section` finds in a section: a program association table, or services of another table. -/
inductive Parsed where
  | pat (buf : Mem UInt8) (sectionLength : Nat)
  | services (ids : List Nat)

/-- What `read_sections` comes to: what is parsed, the new `sectionfilter_done`, and the value it returns. -/
structure ReadOutcome where
  parsed : Parsed
  sectionfilterDone : Bool
  ret : Int

/-- The results of the system calls, by their number. A negative descriptor is a failure. -/
structure FilterWorld where
  openFd : Nat → Int
  setFilter : Nat → Bool
  clock : Nat → Int
  /-- The flags of the descriptors, or -1. -/
  poll : Nat → Option (Nat → Bool)
  read : Nat → ReadOutcome

namespace Scheduler

def setBuf (s : Scheduler) (p : Nat) (f : SectionBuf → SectionBuf) : Scheduler :=
  { s with bufs := fun q => if q = p then f (s.bufs q) else s.bufs q }

def call (s : Scheduler) : Scheduler := { s with calls := s.calls + 1 }

def record (s : Scheduler) (e : FilterEvent) : Scheduler := { s with events := s.events ++ [e] }

end Scheduler

/-! ## Starting and stopping -/

/-- The loop of `update_poll_fds`, from place `i` on. -/
def fillPollFds : Nat → List Nat → Scheduler → Except Exit Scheduler
  | i, [], s => if (i : Int) ≠ s.nRunning then .error .nRunningIsHosed else .ok s
  | i, p :: ps, s =>
    if i ≥ maxRunning then .error .tooManyPollFds
    else if (s.bufs p).fd = -1 then .error .fdIsMinusOne
    else
      fillPollFds (i + 1) ps
        { s with
          pollFds := fun j => if j = i then ⟨(s.bufs p).fd, true, false⟩ else s.pollFds j
          pollSectionBufs := fun j => if j = i then some p else s.pollSectionBufs j }

def updatePollFds (s : Scheduler) : Except Exit Scheduler :=
  fillPollFds 0 s.running
    { s with
      pollSectionBufs := fun _ => none
      pollFds := fun i => { s.pollFds i with fd := -1 } }

/-- The parameters that `start_filter` sets. -/
def sctFilterParams (b : SectionBuf) : SctFilterParams :=
  let table : UInt8 × UInt8 := if b.tableId < 0x100 ∧ b.tableId > 0 then (UInt8.ofNat b.tableId, 0xff) else (0, 0)
  let ext := b.tableIdExt.toNat
  let hasExt := b.tableIdExt < 0x10000 ∧ b.tableIdExt > 0
  { pid := b.pid % 65536
    filter := (table.1, if hasExt then (UInt8.ofNat (ext / 256), UInt8.ofNat ext) else (0, 0))
    mask := (table.2, if hasExt then (0xff, 0xff) else (0, 0))
    flags := 5 }

/-- `start_filter`; the result is whether it returns 0. A buffer whose filter could not be set keeps the closed
descriptor. -/
def startFilter (w : FilterWorld) (p : Nat) (s : Scheduler) : Except Exit (Bool × Scheduler) :=
  if s.nRunning ≥ maxRunning then .ok (false, s)
  else
    let fd := w.openFd s.calls
    let opened := s.call.setBuf p ({ · with fd := fd })
    if fd < 0 then .ok (false, opened)
    else if w.setFilter opened.calls = false then .ok (false, opened.call)
    else
      let timed := opened.call.call.setBuf p
        ({ · with sectionfilterDone := false, startTime := w.clock opened.call.calls })
      let started := timed.record (.started p fd (sctFilterParams (s.bufs p)))
      (updatePollFds { started with
          running := p :: started.running.erase p
          waiting := started.waiting.erase p
          nRunning := started.nRunning + 1 }).map fun s => (true, s)

def stopFilter (w : FilterWorld) (p : Nat) (s : Scheduler) : Except Exit Scheduler :=
  let now := w.clock s.calls
  let stopped := (s.call.record (.stopped p (s.bufs p).fd)).setBuf p fun b =>
    { b with fd := -1, runningTime := b.runningTime + (now - b.startTime) }
  updatePollFds
    { stopped with
      running := stopped.running.erase p
      waiting := stopped.waiting.erase p
      nRunning := stopped.nRunning - 1 }

def addFilter (w : FilterWorld) (p : Nat) (s : Scheduler) : Except Exit Scheduler :=
  (startFilter w p s).map fun r => if r.1 then r.2 else { r.2 with waiting := r.2.waiting ++ [p] }

/-- The loop of `remove_filter`; the number of waiting filters is enough fuel. -/
def startWaiting (w : FilterWorld) : Nat → Scheduler → Except Exit Scheduler
  | 0, s => if s.waiting = [] then .ok s else .error .hangs
  | fuel + 1, s =>
    match s.waiting with
    | [] => .ok s
    | p :: _ => (startFilter w p s).bind fun r => if r.1 then startWaiting w fuel r.2 else .ok r.2

def removeFilter (w : FilterWorld) (p : Nat) (s : Scheduler) : Except Exit Scheduler :=
  (stopFilter w p s).bind fun s => startWaiting w s.waiting.length s

/-- What `setup_filter` is called with. -/
structure FilterSetup where
  pid : Nat
  tableId : Nat
  tableIdExt : Int
  runOnce : Bool
  segmented : Bool
  timeout : Int
  deriving DecidableEq

def setupFilter (longTimeout : Bool) (f : FilterSetup) : SectionBuf where
  runOnce := f.runOnce
  segmented := f.segmented
  fd := -1
  pid := f.pid
  tableId := f.tableId
  tableIdExt := f.tableIdExt
  sectionfilterDone := false
  timeout := if longTimeout then 5 * f.timeout else f.timeout
  startTime := 0
  runningTime := 0

/-- `setup_filter` and `add_filter` for a section buffer that is on no list, as all callers do it. It gets a number of
its own, also when its memory has been used before. -/
def newFilter (longTimeout : Bool) (w : FilterWorld) (f : FilterSetup) (s : Scheduler) : Except Exit Scheduler :=
  addFilter w s.next
    { s with
      bufs := fun q => if q = s.next then setupFilter longTimeout f else s.bufs q
      next := s.next + 1 }

/-! ## Reading -/

/-- `find_service`, and `alloc_service` if there is none. -/
def ensureService (id : Nat) (services : List Service) : List Service :=
  if (services.any fun v => v.serviceId = id) then services else services ++ [⟨id, 0, none⟩]

/-- A change of the service that `find_service` returns. -/
def updateService (id : Nat) (f : Service → Service) : List Service → List Service
  | [] => []
  | v :: vs => if v.serviceId = id then f v :: vs else v :: updateService id f vs

/-- The service that `find_service` returns has no filter yet. -/
def LacksFilter (id : Nat) (services : List Service) : Prop :=
  (services.find? fun v => v.serviceId = id).map (·.priv) = some none

instance (id : Nat) (services : List Service) : Decidable (LacksFilter id services) := inferInstanceAs (Decidable (_ = _))

def patEntry (longTimeout : Bool) (w : FilterWorld) (serviceId pmtPid : Nat) (s : Scheduler) :
    Except Exit Scheduler :=
  let services := updateService serviceId ({ · with pmtPid := pmtPid }) (ensureService serviceId s.services)
  if LacksFilter serviceId services ∧ pmtPid ≠ 0 then
    newFilter longTimeout w ⟨pmtPid, 0x02, serviceId, true, false, 5⟩
      { s with services := updateService serviceId ({ · with priv := some s.next }) services }
  else .ok { s with services := services }

/-- `parse_pat`; the length is enough fuel. -/
def parsePat (longTimeout : Bool) (w : FilterWorld) : Nat → Mem UInt8 → Nat → Scheduler → Except Exit Scheduler
  | 0, _, len, s => if len = 0 then .ok s else .error .hangs
  | fuel + 1, buf, len, s =>
    if len = 0 then .ok s
    else
      let serviceId := (buf 0).toNat * 256 + (buf 1).toNat
      let pmtPid := (buf 2 &&& 0x1f).toNat * 256 + (buf 3).toNat
      let entry := if serviceId = 0 then .ok s else patEntry longTimeout w serviceId pmtPid s
      entry.bind fun s => parsePat longTimeout w fuel (buf.shift 4) (len - 4) s

def parseSection (longTimeout : Bool) (w : FilterWorld) (parsed : Parsed) (s : Scheduler) : Except Exit Scheduler :=
  match parsed with
  | .pat buf len => parsePat longTimeout w len buf len s
  | .services ids => .ok { s with services := ids.foldl (fun services id => ensureService id services) s.services }

def readSections (longTimeout : Bool) (w : FilterWorld) (p : Nat) (s : Scheduler) : Except Exit (Int × Scheduler) :=
  if (s.bufs p).sectionfilterDone = true ∧ (s.bufs p).segmented = false then .ok (1, s)
  else
    let outcome := w.read s.calls
    (parseSection longTimeout w outcome.parsed (s.call.record (.read p (s.bufs p).fd))).map fun s =>
      (outcome.ret, s.setBuf p ({ · with sectionfilterDone := outcome.sectionfilterDone }))

/-- The end of a pass of `read_filters`: a filter that is done or too late is removed. -/
def finishPass (w : FilterWorld) (p : Nat) (done : Bool) (s : Scheduler) : Except Exit Scheduler :=
  let timed := if done then s else s.call
  if done = true ∨ w.clock s.calls > (s.bufs p).startTime + (s.bufs p).timeout then
    if (s.bufs p).runOnce then removeFilter w p timed else .ok timed
  else .ok timed

/-- A pass of the loop of `read_filters`. -/
def readPass (longTimeout : Bool) (w : FilterWorld) (i : Nat) (s : Scheduler) : Except Exit Scheduler :=
  match s.pollSectionBufs i with
  | none => .error .pollSectionBufIsNull
  | some p =>
    if (s.pollFds i).revents then
      (readSections longTimeout w p s).bind fun r => finishPass w p (r.1 = 1) r.2
    else finishPass w p false s

/-- The loop of `read_filters`. -/
def readLoop (longTimeout : Bool) (w : FilterWorld) : Nat → Nat → Scheduler → Except Exit Scheduler
  | 0, i, s => if (i : Int) < s.nRunning then .error .hangs else .ok s
  | fuel + 1, i, s =>
    if (i : Int) < s.nRunning then (readPass longTimeout w i s).bind fun s => readLoop longTimeout w fuel (i + 1) s
    else .ok s

/-- `read_filters`; the number of places is enough fuel. -/
def readFilters (longTimeout : Bool) (w : FilterWorld) (s : Scheduler) : Except Exit Scheduler :=
  readLoop longTimeout w maxRunning 0 <|
    match w.poll s.calls with
    | none => s.call
    | some revents =>
      { s.call with
        pollFds := fun i => if (i : Int) < s.nRunning then { s.pollFds i with revents := revents i } else s.pollFds i }

/-! ## Runs -/

inductive FilterOp where
  /-- A filter is set up and added. -/
  | add (f : FilterSetup)
  /-- The running filter at this place is removed. -/
  | remove (k : Nat)
  | read
  /-- Another transponder with these services becomes the current one. -/
  | retune (services : List Service)

def Scheduler.step (longTimeout : Bool) (w : FilterWorld) (s : Scheduler) : FilterOp → Except Exit Scheduler
  | .add f => newFilter longTimeout w f s
  | .remove k =>
    match s.running[k]? with
    | none => .ok s
    | some p => removeFilter w p s
  | .read => readFilters longTimeout w s
  | .retune services => .ok { s with services := services }

def Scheduler.init (memory : Nat → SectionBuf) : Scheduler where
  bufs := memory
  next := 0
  running := []
  waiting := []
  nRunning := 0
  pollFds := fun _ => ⟨0, false, false⟩
  pollSectionBufs := fun _ => none
  services := []
  calls := 0
  events := []

def Scheduler.run (longTimeout : Bool) (w : FilterWorld) (s : Scheduler) : List FilterOp → Except Exit Scheduler
  | [] => .ok s
  | op :: ops => (s.step longTimeout w op).bind fun s => s.run longTimeout w ops

/-! ## The contract -/

def StaysStopped (events : List FilterEvent) : Prop :=
  events.Pairwise fun e e' => ∀ p fd fd', e = .stopped p fd → e' ≠ .stopped p fd' ∧ e' ≠ .read p fd'

structure Scheduler.Consistent (s : Scheduler) : Prop where
  count : s.nRunning = s.running.length
  bound : s.running.length ≤ maxRunning
  /-- No buffer is on a list twice, or on both. -/
  nodup : (s.running ++ s.waiting).Nodup
  bufs : ∀ i, s.pollSectionBufs i = s.running[i]?
  fds : ∀ i p, s.running[i]? = some p → (s.pollFds i).fd = (s.bufs p).fd ∧ (s.bufs p).fd ≠ -1
  stopped : StaysStopped s.events

end LinuxDvb.Scan
