import LinuxDvb.DvbCore.CaEn50221.Write

/-!
# Monitoring thread

`dvb_ca_en50221_thread` of an interface without `DVB_CA_EN50221_FLAG_IRQ_CAMCHANGE`: the thread polls the slots for
changes of their CAMs, brings a new CAM up, and fetches its data.
-/

namespace LinuxDvb.CaEn50221

open Ringbuffer

inductive CamchangeType where
  | removed | inserted
  deriving DecidableEq, Repr

/-- The bits `DVB_CA_EN50221_POLL_CAM_*` that `poll_slot_status` returns. -/
structure PollStatus where
  present : Bool
  changed : Bool
  ready : Bool

/-- `struct dvb_ca_slot` as the thread sees it. -/
structure CamSlot extends DvbCaSlot where
  camchangeCount : Int
  camchangeType : CamchangeType

def CamSlot.withState (slot : CamSlot) (state : SlotState) : CamSlot :=
  { slot with slotState := state }

/-- What `dvb_ca_en50221_read_data` meets at the CAM. -/
inductive CamRead where
  /-- There is no data, or the announcement of data cannot be read. -/
  | idle (status : Int) (nonpos : status ≤ 0)
  /-- A byte of the data cannot be read. -/
  | broken (status : Int) (neg : status < 0)
  /-- The RE bit is set at the end. -/
  | readError
  | data (buf : List UInt8)

def CamWrite.exchanges : CamWrite → Bool
  | .refused status _ => status ≠ errAgain
  | _ => true

/-- What the thread is answered in one step. `poll` is also the second poll of the slot that is made when
its initialisation fails, and `rxbuf` the memory that `vmalloc` finds. -/
structure ThreadIo where
  poll : PollStatus
  timedOut : Bool
  parseAttributes : Int
  setConfigoption : Int
  commandRs : Int
  statusFr : Bool
  linkInit : LinkInitIo
  rxbuf : Option (Mem UInt8)
  readData : CamRead

/-- `dvb_ca_en50221_check_camstatus` in poll mode. -/
def dvbCaEn50221CheckCamstatus (slot : CamSlot) (status : PollStatus) : CamSlot × Bool :=
  let camChanged := status.changed || status.present != decide (slot.slotState ≠ .none)
  if camChanged then
    ({ slot with
        camchangeType := if status.present then .inserted else .removed
        camchangeCount := 1 }, true)
  else if slot.slotState = .waitready ∧ status.ready then (slot.withState .validate, false)
  else (slot, false)

/-- `dvb_ca_en50221_read_data` without `ebuf`, and whether data was exchanged. -/
def readSlot (slot : DvbCaSlot) (cam : CamRead) : (DvbCaSlot × Int) × Bool :=
  match slot.rxBuffer with
  | none => ((slot, errIo), false)
  | some rbuf =>
    if dvbRingbufferFree rbuf < ((slot.linkBufSize + dvbRingbufferPkthdrsize : Nat) : Int) then
      ((slot, errAgain), false)
    else
      match cam with
      | .idle status _ => ((slot, status), false)
      | .broken status _ => ((slot, status), true)
      | .readError => (({ slot with slotState := .linkinit }, errIo), true)
      | .data buf => (dvbCaEn50221ReadData slot buf, true)

def slotMachine (slot : CamSlot) (io : ThreadIo) : CamSlot :=
  match slot.slotState with
  | .none => slot
  | .invalid => slot
  | .running => slot
  | .uninitialised => slot.withState .waitready
  | .waitready => if io.timedOut then slot.withState .invalid else slot
  | .validate =>
    if io.parseAttributes ≠ 0 then
      -- the extra check for annoying interfaces
      slot.withState (if io.poll.present then .invalid else .none)
    else if io.setConfigoption ≠ 0 then slot.withState .invalid
    else if io.commandRs ≠ 0 then slot.withState .invalid
    else slot.withState .waitfr
  | .waitfr =>
    if io.timedOut then slot.withState .invalid
    else if io.statusFr then slot.withState .linkinit
    else slot
  | .linkinit =>
    let r := dvbCaEn50221LinkInit slot.toDvbCaSlot io.linkInit
    let slot := { slot with toDvbCaSlot := r.1 }
    if r.2 ≠ 0 then slot.withState (if io.poll.present then .invalid else .none)
    else
      match slot.rxBuffer, io.rxbuf with
      | some _, _ => slot.withState .running
      | none, none => slot.withState .invalid
      | none, some data =>
        { slot with slotState := .running, rxBuffer := some (dvbRingbufferInit data rxBufferSize) }

inductive SlotAt where
  /-- At the condition of the loop that deals with changes. -/
  | checking
  /-- In the body of that loop. -/
  | changed
  | machine
  /-- At the condition of the loop that fetches data. -/
  | reading (pktcount : Nat)
  /-- In the body of that loop. -/
  | received (pktcount : Nat)
  deriving DecidableEq

inductive ThreadAt (n : Nat) where
  | sleeping
  | turn (slot : Fin n) (pos : SlotAt)
  deriving DecidableEq

/-- The part of `struct dvb_ca_private` that the thread works on; `opened` is its flag `open`. -/
structure CaThread (n : Nat) where
  slotInfo : Fin n → CamSlot
  opened : Bool
  pos : ThreadAt n

/-- What is seen from outside: a change report consumed by `dvb_ca_en50221_check_camstatus`, a slot that
is shut down or set to UNINITIALISED, and data that is exchanged; with the state of the slot. -/
inductive CamEvent where
  | report (state : SlotState)
  | shutdown
  | initialise
  | exchange (state : SlotState)
  deriving DecidableEq

def maxRxPacketsPerIteration : Nat := 10

inductive ThreadEvent (n : Nat) where
  | thread (io : ThreadIo)
  | ioOpen
  | ioRelease
  /-- The ioctl CA_RESET. -/
  | reset
  /-- An attempt of `dvb_ca_en50221_io_write` to pass a fragment on. -/
  | write (slot : Fin n) (cam : CamWrite) (fragbuf : List UInt8)
  | camreadyIrq (slot : Fin n)

/-- `dvb_ca_en50221_slot_shutdown` where it is necessary. -/
def CamSlot.shutdown (slot : CamSlot) : CamSlot × List CamEvent :=
  if slot.slotState ≠ .none then (slot.withState .none, [.shutdown]) else (slot, [])

def handleCamchange (slot : CamSlot) : CamSlot × List CamEvent :=
  let r := slot.shutdown
  if slot.camchangeType = .inserted then
    ({ r.1.withState .uninitialised with camchangeCount := slot.camchangeCount - 1 }, r.2 ++ [.initialise])
  else ({ r.1 with camchangeCount := slot.camchangeCount - 1 }, r.2)

/-- What a step of the thread does to the slot whose turn it is, and where it goes on in this turn. -/
def slotStep (slot : CamSlot) (opened : Bool) (pos : SlotAt) (io : ThreadIo) :
    CamSlot × Option SlotAt × List CamEvent :=
  match pos with
  | .checking =>
    let r := dvbCaEn50221CheckCamstatus slot io.poll
    if r.2 then (r.1, some .changed, [.report slot.slotState]) else (r.1, some .machine, [])
  | .changed =>
    let r := handleCamchange slot
    (r.1, some .checking, r.2)
  | .machine =>
    if slot.slotState = .running ∧ opened then (slot, some (.reading 0), [])
    else (slotMachine slot io, none, [])
  | .reading pktcount =>
    let r := readSlot slot.toDvbCaSlot io.readData
    ({ slot with toDvbCaSlot := r.1.1 }, if r.1.2 > 0 then some (.received pktcount) else none,
      if r.2 then [.exchange slot.slotState] else [])
  | .received pktcount =>
    if !opened then (slot, none, [])
    else
      let r := dvbCaEn50221CheckCamstatus slot io.poll
      if r.2 then (r.1, none, [.report slot.slotState])
      else if pktcount + 1 ≥ maxRxPacketsPerIteration then (r.1, none, [])
      else (r.1, some (.reading (pktcount + 1)), [])

section Steps

variable {n : Nat}

/-- The loop over the slots goes on at `k`. -/
def ThreadAt.from (k : Nat) : ThreadAt n := if h : k < n then .turn ⟨k, h⟩ .checking else .sleeping

/-- One step of `dvb_ca_en50221_thread`. -/
def threadStep (ca : CaThread n) (io : ThreadIo) : CaThread n × List (Fin n × CamEvent) :=
  match ca.pos with
  | .sleeping => ({ ca with pos := .from 0 }, [])
  | .turn i pos =>
    let r := slotStep (ca.slotInfo i) ca.opened pos io
    ({ ca with
        slotInfo := Function.update ca.slotInfo i r.1
        pos := (r.2.1.map (.turn i)).getD (.from (i + 1)) }, r.2.2.map (i, ·))

/-- `dvb_ca_en50221_io_open` drops the data of the running slots. -/
def CamSlot.flush (slot : CamSlot) : CamSlot :=
  if slot.slotState = .running then
    { slot with rxBuffer := slot.rxBuffer.map dvbRingbufferFlush }
  else slot

def interfaceStep (ca : CaThread n) : ThreadEvent n → CaThread n × List (Fin n × CamEvent)
  | .thread io => threadStep ca io
  | .ioOpen => ({ ca with slotInfo := fun i => (ca.slotInfo i).flush, opened := true }, [])
  | .ioRelease => ({ ca with opened := false }, [])
  | .reset =>
    ({ ca with slotInfo := fun i => (ca.slotInfo i).shutdown.1 },
      (List.finRange n).flatMap fun i => (ca.slotInfo i).shutdown.2.map (i, ·))
  | .write i cam fragbuf =>
    let info := ca.slotInfo i
    if info.slotState ≠ .running then (ca, [])
    else
      let info' := { info with toDvbCaSlot := (dvbCaEn50221WriteData info.toDvbCaSlot cam fragbuf).1 }
      ({ ca with slotInfo := Function.update ca.slotInfo i info' },
        if cam.exchanges ∧ fragbuf.length ≤ info.linkBufSize then [(i, .exchange info.slotState)] else [])
  | .camreadyIrq i =>
    let info := ca.slotInfo i
    if info.slotState = .waitready then
      ({ ca with slotInfo := Function.update ca.slotInfo i (info.withState .validate) }, [])
    else (ca, [])

/-- The interface after `dvb_ca_en50221_init`. -/
def CaThread.init (n : Nat) : CaThread n where
  slotInfo := fun _ =>
    { slotState := .none, rxBuffer := none, linkBufSize := 0, camchangeCount := 0, camchangeType := .removed }
  opened := false
  pos := .sleeping

/-- What follows a report that was met in the given state serves it: the slot is shut down, if it was not
already, and then initialised from the start. -/
def Served (i : Fin n) (state : SlotState) (events : List (Fin n × CamEvent)) : Prop :=
  ∃ before after, events = before ++ (i, .initialise) :: after ∧
    (state = .none ∨ (i, .shutdown) ∈ before)

/-- No change of a CAM is lost, by what a run has done and where it has come to. -/
structure ChangesServed (ca : CaThread n) (events : List (Fin n × CamEvent)) : Prop where
  /-- Data is exchanged with a running slot only if all reports about it have been served. -/
  exchanged : ∀ i state before mid after,
    events = before ++ (i, .report state) :: (mid ++ (i, .exchange .running) :: after) →
      Served i state mid
  /-- A slot comes to its state machine only after it was shut down, and above NONE only if it was also
  initialised again. -/
  handled : ∀ i, ca.pos = .turn i .machine → ∀ state before mid,
    events = before ++ (i, .report state) :: mid →
      (state = .none ∨ (i, .shutdown) ∈ mid) ∧
        ((ca.slotInfo i).slotState ≠ .none → Served i state mid)

/-- A report that was consumed is still counted in `camchange_count` until it is dealt with. In the
meantime no data is written to the slot, and the poll at the head of the slot's next turn reports a
change once more. -/
def ReportsRepeated (ca : CaThread n) : ThreadEvent n → Prop
  | .thread io => ∀ i, ca.pos = .turn i .checking → (ca.slotInfo i).camchangeCount ≠ 0 →
      (ca.slotInfo i).slotState ≠ .none → io.poll.changed ∨ !io.poll.present
  | .write i cam fragbuf => (ca.slotInfo i).slotState = .running → cam.exchanges →
      fragbuf.length ≤ (ca.slotInfo i).linkBufSize → (ca.slotInfo i).camchangeCount = 0
  | _ => True

instance (ca : CaThread n) : DecidablePred (ReportsRepeated ca)
  | .thread io => inferInstanceAs (Decidable (∀ i, ca.pos = .turn i .checking →
      (ca.slotInfo i).camchangeCount ≠ 0 → (ca.slotInfo i).slotState ≠ .none →
        io.poll.changed ∨ !io.poll.present))
  | .write i cam fragbuf => inferInstanceAs (Decidable ((ca.slotInfo i).slotState = .running →
      cam.exchanges → fragbuf.length ≤ (ca.slotInfo i).linkBufSize → (ca.slotInfo i).camchangeCount = 0))
  | .ioOpen => isTrue trivial
  | .ioRelease => isTrue trivial
  | .reset => isTrue trivial
  | .camreadyIrq _ => isTrue trivial

end Steps

end LinuxDvb.CaEn50221
