import LinuxDvb.LibDvbEn50221.Poll
import LinuxDvb.LibDvbEn50221.Session

/-!
# The stdcam of an LLCI interface

`en50221_stdcam_llci.c`: a state machine over what the driver reports of a CAM. It registers a slot of the transport
layer for the CAM, opens a connection there, and answers the session layer, which asks for the resources of the host
and tells which sessions were opened.
-/

namespace LinuxDvb.En50221

def mkrid (resourceClass type version : UInt32) : UInt32 :=
  (resourceClass &&& 0xffff) <<< 16 ||| (type &&& 0x3ff) <<< 6 ||| (version &&& 0x3f)

def rmResourceid : UInt32 := mkrid 1 1 1
def aiResourceid : UInt32 := mkrid 2 1 1
def caResourceid : UInt32 := mkrid 3 1 1
def datetimeResourceid : UInt32 := mkrid 36 1 1
def mmiResourceid : UInt32 := mkrid 64 1 1

/-- `struct en50221_app_public_resource_id` -/
structure PublicResourceId where
  resourceClass : UInt16
  resourceType : UInt16
  resourceVersion : UInt8
  deriving DecidableEq

/-- `en50221_app_decode_public_resource_id`; private resources are rejected. -/
def decodePublicResourceId (resourceId : UInt32) : Option PublicResourceId :=
  if resourceId &&& 0xc0000000 = 0xc0000000 then none
  else some ⟨(resourceId >>> 16 &&& 0xffff).toUInt16, (resourceId >>> 6 &&& 0x3ff).toUInt16,
    (resourceId &&& 0x3f).toUInt8⟩

structure LlciResource where
  resid : PublicResourceId
  binaryResourceId : UInt32
  callback : Nat

/-- An entry as `en50221_stdcam_llci_create` sets it up in cleared memory. -/
def llciResource (callback : Nat) (resourceId : UInt32) : LlciResource :=
  ⟨(decodePublicResourceId resourceId).getD ⟨0, 0, 0⟩, resourceId, callback⟩

/-- The resources in the order in which `en50221_stdcam_llci_create` enters them. -/
def llciResources : List LlciResource :=
  [llciResource 0 rmResourceid, llciResource 1 datetimeResourceid, llciResource 2 aiResourceid,
    llciResource 3 caResourceid, llciResource 4 mmiResourceid]

inductive Limited where
  | datetime | ai | ca | mmi
  deriving DecidableEq, Repr

def Limited.resourceId : Limited → UInt32
  | .datetime => datetimeResourceid
  | .ai => aiResourceid
  | .ca => caResourceid
  | .mmi => mmiResourceid

/-- The case distinction over a resource id that the two callbacks of the session layer make. -/
def limited (resourceId : UInt32) : Option Limited :=
  if resourceId = datetimeResourceid then some .datetime
  else if resourceId = aiResourceid then some .ai
  else if resourceId = caResourceid then some .ca
  else if resourceId = mmiResourceid then some .mmi
  else none

/-- `DVBCA_CAMSTATE_*`, and `failed` for the -1 of `dvbca_get_cam_state`. -/
inductive DvbcaCamstate where
  | missing | initialising | ready | failed
  deriving DecidableEq, Repr

/-- `EN50221_STDCAM_CAM_*` -/
inductive StdcamStatus where
  | none | inreset | ok | bad
  deriving DecidableEq, Repr

/-- `struct en50221_stdcam_llci`. `sessionNumber` has the numbers `datetime_session_number`,
`ai_session_number`, `ca_session_number` and `mmi_session_number`; only 8 bits of `slotnum` are used. -/
structure Llci where
  cafd : Nat
  slotnum : UInt8
  state : StdcamStatus
  tlSlotId : Int
  sessionNumber : Limited → Int
  datetimeResponseInterval : UInt8
  datetimeNextSend : Int
  datetimeDvbtime : Int

/-- What the functions of the stdcam do besides: a CAM is reset, a resource asks the CAM for information in
a session, and the time is sent. -/
inductive LlciEvent where
  | reset
  | enquiry (resourceId : UInt32) (number : UInt16)
  | datetimeSend (number : UInt16) (dvbtime : Int)
  deriving DecidableEq

namespace Llci

/-- `en50221_stdcam_llci_create` -/
def create (cafd : Nat) (slotnum : UInt8) : Llci where
  cafd := cafd
  slotnum := slotnum
  state := .none
  tlSlotId := -1
  sessionNumber := fun _ => -1
  datetimeResponseInterval := 0
  datetimeNextSend := 0
  datetimeDvbtime := 0

/-- `llci_lookup_callback`. Only a request for the very id of a resource is limited. `uninitialised` is what
the variable of the caller for the connected resource id holds. -/
def lookupCallback (llci : Llci) (uninitialised : UInt32) (requested : UInt32) : Lookup :=
  match decodePublicResourceId requested with
  | none => ⟨-1, none, uninitialised⟩
  | some resid =>
    match llciResources.find? fun r =>
      resid.resourceClass == r.resid.resourceClass && resid.resourceType == r.resid.resourceType with
    | none => ⟨-1, none, uninitialised⟩
    | some r =>
      if (limited requested).any fun l => llci.sessionNumber l ≠ -1 then ⟨-3, none, uninitialised⟩
      else ⟨0, some r.callback, r.binaryResourceId⟩

/-- `llci_session_callback`; it returns 0. -/
def sessionCallback (llci : Llci) (reason : SessionReason) (number : UInt16) (resourceId : UInt32) :
    Llci × List LlciEvent :=
  match reason with
  | .camconnected =>
    match limited resourceId with
    | none => (llci, if resourceId = rmResourceid then [.enquiry rmResourceid number] else [])
    | some l =>
      ({ llci with sessionNumber := Function.update llci.sessionNumber l number.toNat },
        if l = .ai ∨ l = .ca then [.enquiry resourceId number] else [])
  | _ => (llci, [])

/-- `llci_datetime_enquiry_callback` -/
def datetimeEnquiryCallback (llci : Llci) (number : UInt16) (responseInterval : UInt8) (time : Int) :
    Llci × List LlciEvent :=
  ({ llci with
      datetimeResponseInterval := responseInterval
      datetimeNextSend := if responseInterval ≠ 0 then time + responseInterval.toNat else 0 },
    [.datetimeSend number llci.datetimeDvbtime])

/-- `en50221_stdcam_llci_dvbtime` -/
def dvbtime (llci : Llci) (dvbtime : Int) : Llci := { llci with datetimeDvbtime := dvbtime }

/-- What `llci_cam_removed` does besides destroying the slot of the CAM. -/
def removed (llci : Llci) : Llci :=
  if llci.tlSlotId ≠ -1 then { llci with tlSlotId := -1, sessionNumber := fun _ => -1, state := .none }
  else { llci with state := .none }

def sendDatetime (llci : Llci) (time : Int) : Llci × List LlciEvent :=
  if llci.sessionNumber .datetime ≠ -1 ∧ llci.datetimeResponseInterval ≠ 0 ∧ llci.datetimeNextSend < time then
    ({ llci with datetimeNextSend := time + llci.datetimeResponseInterval.toNat },
      [.datetimeSend (UInt16.ofInt (llci.sessionNumber .datetime)) llci.datetimeDvbtime])
  else (llci, [])

end Llci

/-- The callbacks of the stdcam that are made while the stack is polled. -/
inductive LlciCallback where
  | session (reason : SessionReason) (number : UInt16) (resourceId : UInt32)
  | datetimeEnquiry (number : UInt16) (responseInterval : UInt8) (time : Int)

def Llci.callback (llci : Llci) : LlciCallback → Llci × List LlciEvent
  | .session reason number resourceId => llci.sessionCallback reason number resourceId
  | .datetimeEnquiry number responseInterval time =>
    llci.datetimeEnquiryCallback number responseInterval time

/-- The stdcam with its transport layer. The history variables count how often `en50221_tl_register_slot` and
`en50221_tl_new_tc` have succeeded since a poll has found the CAM missing. -/
structure Stdcam (slots conns : Nat) where
  llci : Llci
  tl : TransportLayer slots conns
  registered : Nat
  connected : Nat

/-- What a poll meets: the state of the CAM, also when `llci_cam_in_reset` asks again, whether there is
memory for the message of `en50221_tl_new_tc`, what the transport layer meets, the callbacks that are made, and
the time. -/
structure StdcamIo (slots conns : Nat) where
  camState : DvbcaCamstate
  resetState : DvbcaCamstate
  malloc : Bool
  pollFailed : Bool
  slot : Fin slots → SlotIo conns
  callbacks : List LlciCallback
  time : Int

inductive StdcamEvent (slots conns : Nat) where
  | tl (e : TlEvent slots conns)
  | llci (e : LlciEvent)

abbrev StdcamResult (slots conns : Nat) := Stdcam slots conns × List (StdcamEvent slots conns)

namespace TransportLayer

variable {slots conns : Nat}

theorem readSlot_isSome (tl : TransportLayer slots conns) (s : Fin slots) (io : SlotIo conns) :
    (tl.readSlot s io).isSome := by
  unfold readSlot
  split
  · rfl
  · rfl
  · rfl
  split
  · rfl
  split
  · rfl
  · exact processData_isSome _ io tl (Nat.le_refl _)

theorem pollSlots_isSome (io : Fin slots → SlotIo conns) (tl : TransportLayer slots conns)
    (ss : List (Fin slots)) : (pollSlots io tl ss).isSome := by
  induction ss generalizing tl with
  | nil => rfl
  | cons s ss ih =>
    unfold pollSlots
    split
    · exact ih tl
    · obtain ⟨read,hread⟩ := isSome_iff_exists.mp (tl.readSlot_isSome s (io s))
      rw [hread]
      simp only [bind_eq_bind,bind_some]
      split
      · rfl
      · obtain ⟨rest,hrest⟩ := isSome_iff_exists.mp
          (ih (andThen read fun tl => tl.serveConnections s (io s) (List.finRange conns)).1)
        rw [hrest]
        rfl

theorem poll_isSome (tl : TransportLayer slots conns) (failed : Bool) (io : Fin slots → SlotIo conns) :
    (tl.poll failed io).isSome := by
  unfold poll
  split
  · rfl
  · exact pollSlots_isSome io tl _

/-- The result of `en50221_tl_poll`. -/
def polled (tl : TransportLayer slots conns) (failed : Bool) (io : Fin slots → SlotIo conns) :
    TlResult slots conns :=
  (tl.poll failed io).get (tl.poll_isSome failed io)

theorem poll_eq_polled (tl : TransportLayer slots conns) (failed : Bool) (io : Fin slots → SlotIo conns) :
    tl.poll failed io = some (tl.polled failed io) :=
  (Option.some_get _).symm

end TransportLayer

namespace Stdcam

variable {slots conns : Nat}

def seen (evs : List (TlEvent slots conns)) : List (StdcamEvent slots conns) := evs.map .tl

/-- `llci_cam_removed` -/
def camRemoved (s : Stdcam slots conns) : StdcamResult slots conns :=
  if s.llci.tlSlotId ≠ -1 then
    let r := s.tl.destroySlot (UInt8.ofInt s.llci.tlSlotId)
    ({ s with tl := r.1, llci := s.llci.removed }, seen r.2.1)
  else ({ s with llci := s.llci.removed }, [])

/-- `llci_cam_added` -/
def camAdded (s : Stdcam slots conns) : StdcamResult slots conns :=
  let r := if s.llci.tlSlotId ≠ -1 then s.camRemoved else (s, [])
  ({ r.1 with llci := { r.1.llci with state := .inreset } }, r.2 ++ [.llci .reset])

/-- `llci_cam_in_reset`. If there is no connection, the slot that was registered is not known any more when it
is to be destroyed. After the connection was created the state is still "in reset". -/
def camInReset (s : Stdcam slots conns) (io : StdcamIo slots conns) : StdcamResult slots conns :=
  if io.resetState ≠ .ready then (s, [])
  else
    let slot := s.tl.registerSlot s.llci.cafd s.llci.slotnum
    let s := { s with tl := slot.1, llci := { s.llci with tlSlotId := slot.2.2 } }
    if slot.2.2 < 0 then ({ s with llci := { s.llci with state := .bad } }, seen slot.2.1)
    else
      let tc := s.tl.newTc (UInt8.ofInt s.llci.tlSlotId) io.malloc
      let s := { s with tl := tc.1, registered := s.registered + 1 }
      if tc.2.2 < 0 then
        let s := { s with llci := { s.llci with state := .bad, tlSlotId := -1 } }
        let r := s.tl.destroySlot (UInt8.ofInt s.llci.tlSlotId)
        ({ s with tl := r.1 }, seen (slot.2.1 ++ tc.2.1 ++ r.2.1))
      else ({ s with connected := s.connected + 1 }, seen (slot.2.1 ++ tc.2.1))

/-- What `en50221_stdcam_llci_poll` does about the state of the CAM. -/
def checkCam (s : Stdcam slots conns) (io : StdcamIo slots conns) : StdcamResult slots conns :=
  match io.camState with
  | .missing =>
    let s := { s with registered := 0, connected := 0 }
    if s.llci.state ≠ .none then s.camRemoved else (s, [])
  | .ready =>
    if s.llci.state = .none then s.camAdded
    else if s.llci.state = .inreset then s.camInReset io
    else (s, [])
  | .initialising | .failed => (s, [])

/-- `en50221_stdcam_llci_poll`; it returns the state. -/
def poll (s : Stdcam slots conns) (io : StdcamIo slots conns) : StdcamResult slots conns × StdcamStatus :=
  let checked := s.checkCam io
  let r := checked.1.tl.polled io.pollFailed io.slot
  let called := runTrace Llci.callback checked.1.llci io.callbacks
  let sent := called.1.sendDatetime io.time
  (({ checked.1 with tl := r.1, llci := sent.1 },
    checked.2 ++ seen r.2.1 ++ (called.2 ++ sent.2).map .llci), sent.1.state)

end Stdcam

/-- A poll of the stdcam, the time that it is told, or a call of another user of the transport layer. -/
inductive StdcamInput (slots conns : Nat) where
  | poll (io : StdcamIo slots conns)
  | dvbtime (dvbtime : Int)
  | call (call : TlCall)

def stdcamStep {slots conns : Nat} (s : Stdcam slots conns) :
    StdcamInput slots conns → StdcamResult slots conns
  | .poll io => (s.poll io).1
  | .dvbtime dvbtime => ({ s with llci := s.llci.dvbtime dvbtime }, [])
  | .call c => ({ s with tl := (s.tl.call c).1 }, Stdcam.seen (s.tl.call c).2.1)

def stdcamCreate (slots conns : Nat) (cafd : Nat) (slotnum : UInt8) : Stdcam slots conns where
  llci := Llci.create cafd slotnum
  tl := tlCreate slots conns
  registered := 0
  connected := 0

end LinuxDvb.En50221
