import LinuxDvb.DvbCore.CaEn50221.Write
import LinuxDvb.Framework.Accesses

/-!
# Slots of a CA device

Which entries of `slot_info` the calls of a user access. Slot numbers come from an ioctl argument, from the first byte
of a message, and from a position that goes round over the slots.
-/

namespace LinuxDvb.CaEn50221

open Ringbuffer

/-- A program on `slot_info`. A call that is still running has no result. -/
abbrev OnSlots (α : Type) := Accessing Nat DvbCaSlot α

/-- What the calls use of `struct dvb_ca_private` besides the slots. `irqCamchange` is its
`DVB_CA_EN50221_FLAG_IRQ_CAMCHANGE`. -/
structure CaInterface where
  slotCount : Nat
  nextReadSlot : Nat
  irqCamchange : Bool

def caCiLink : Nat := 2
def caCiModulePresent : Nat := 1
def caCiModuleReady : Nat := 2

structure CaCaps where
  slotNum : Nat
  slotType : Nat
  descrNum : Nat
  descrType : Nat

structure CaSlotInfo where
  num : Int32
  type : Nat
  flags : Nat

inductive CaCommand where
  | caReset
  | caGetCap
  | caGetSlotInfo (num : Int32)
  | other

inductive CaReply where
  | status (err : Int)
  | caps (caps : CaCaps)
  | slotInfo (info : CaSlotInfo)

/-- A message that is written: which of the copies of its two header bytes fail, and what happens to its fragments. -/
structure CaWrite where
  buf : List UInt8
  slotFault : Bool
  connectionFault : Bool
  turn : Nat → WriteTurn

/-- A read: how often a waiting reader looks again before a signal comes, which of the copies of fragments fail, and how
many bytes of the header are not copied. -/
structure CaRead where
  count : Nat
  nonblock : Bool
  wakeups : Nat
  copyFails : Nat → Bool
  uncopied : Nat

section Code

variable (ca : CaInterface)

def slotShutdown (slot : Nat) : OnSlots Unit :=
  Accessing.change slot fun info => { info with slotState := .none }

/-- `dvb_ca_en50221_camchange_irq`, which changes fields that no call here reads. -/
def camchangeIrq (slot : Nat) : OnSlots Unit := do
  Accessing.change slot id
  Accessing.change slot id

def resetSlot (irqCamchange : Bool) (slot : Nat) : OnSlots Unit := do
  let info ← Accessing.get slot
  if info.slotState = .none then pure ()
  else
    slotShutdown slot
    if irqCamchange then camchangeIrq slot else pure ()

/-- The loop of `CA_RESET`. -/
def resetSlots (irqCamchange : Bool) : List Nat → OnSlots Unit
  | [] => pure ()
  | slot :: slots => do
    resetSlot irqCamchange slot
    resetSlots irqCamchange slots

def modulePresent (num : Nat) : OnSlots Nat := do
  let info ← Accessing.get num
  if info.slotState = .none then pure 0
  else
    let info ← Accessing.get num
    pure (if info.slotState = .invalid then 0 else caCiModulePresent)

/-- `CA_GET_SLOT_INFO`; the number is compared as an `unsigned int` first. -/
def getSlotInfo (num : Int32) : OnSlots CaReply :=
  if num.toInt % 2 ^ 32 > ca.slotCount ∨ num.toInt < 0 then pure (.status errInval)
  else do
    let present ← modulePresent num.toInt.toNat
    let info ← Accessing.get num.toInt.toNat
    let ready := if info.slotState = .running then caCiModuleReady else 0
    pure (.slotInfo { num := num, type := caCiLink, flags := present ||| ready })

def dvbCaEn50221IoDoIoctl : CaCommand → OnSlots (CaInterface × CaReply)
  | .caReset => do
    resetSlots ca.irqCamchange (List.range ca.slotCount)
    pure ({ ca with nextReadSlot := 0 }, .status 0)
  | .caGetCap => pure (ca, .caps { slotNum := ca.slotCount, slotType := caCiLink, descrNum := 0, descrType := 0 })
  | .caGetSlotInfo num => do
    let reply ← getSlotInfo ca num
    pure (ca, reply)
  | .other => pure (ca, .status errInval)

def attemptsOnSlot (slot : Nat) (fragbuf : List UInt8) : List WriteAttempt → OnSlots (Option Int)
  | [] => pure (some errIo)
  | attempt :: attempts => do
    -- check the CAM hasn't been removed/reset in the meantime
    let info ← Accessing.get slot
    if info.slotState ≠ .running then pure (some errIo)
    else
      let info ← Accessing.get slot
      let written := dvbCaEn50221WriteData info attempt.cam fragbuf
      Accessing.change slot fun info => { info with slotState := written.1.slotState }
      if written.2 = fragbuf.length then pure none
      else if written.2 ≠ errAgain then pure (some written.2)
      else attemptsOnSlot slot fragbuf attempts

def fragmentsOnSlot (slot : Nat) (connectionId : UInt8) (buf : List UInt8) (turn : Nat → WriteTurn) :
    Nat → Nat → Nat → OnSlots (Option Int)
  | 0, _, _ => pure none
  | fuel + 1, fragpos, turns =>
    if fragpos < buf.length then do
      let info ← Accessing.get slot
      let w : IoWrite := { slot := info, connectionId := connectionId, buf := buf, turn := turn }
      let uncopied := min (turn turns).uncopied (w.fraglen fragpos).toNat
      if uncopied ≠ 0 then pure (some uncopied)
      else
        let failed ← attemptsOnSlot slot (w.fragbuf fragpos) (turn turns).attempts
        match failed with
        | some status => pure (some status)
        | none =>
          fragmentsOnSlot slot connectionId buf turn fuel (fragpos + (w.fraglen fragpos).toNat) (turns + 1)
    else pure (some (buf.length + 2))

/-- `dvb_ca_en50221_io_write` -/
def ioWriteOnSlots (fuel : Nat) (write : CaWrite) : OnSlots (Option Int) :=
  match write.buf with
  | slot :: connectionId :: buf =>
    if write.slotFault then pure (some errFault)
    else if write.connectionFault then pure (some errFault)
    else do
      -- check if the slot is actually running
      let info ← Accessing.get slot.toNat
      if info.slotState ≠ .running then pure (some errInval)
      else fragmentsOnSlot slot.toNat connectionId buf write.turn fuel 0 0
  | _ => pure (some errInval)

/-- The loop of `dvb_ca_en50221_io_read_condition` over the slots: the value for `next_read_slot`, if it is written, and
the slot found. -/
def conditionOnSlots (slotCount : Nat) : Nat → Nat → Option UInt8 → OnSlots (Option Nat × Option Nat)
  | 0, slot, _ => pure (some slot, none)
  | k + 1, slot, connectionId => do
    let next := (slot + 1) % slotCount
    let info ← Accessing.get slot
    if info.slotState ≠ .running then conditionOnSlots slotCount k next connectionId
    else
      let info ← Accessing.get slot
      match info.rxBuffer with
      | none => pure (none, none)
      | some rbuf =>
        let r := conditionLoop rbuf (rbuf.size + 1) (dvbRingbufferPktNext rbuf none) connectionId
        if r.2 then pure (some next, some slot) else conditionOnSlots slotCount k next r.1

/-- `dvb_ca_en50221_io_read_condition` -/
def readCondition : OnSlots (CaInterface × Option Nat) := do
  let r ← conditionOnSlots ca.slotCount ca.slotCount ca.nextReadSlot none
  pure ({ ca with nextReadSlot := r.1.getD ca.nextReadSlot }, r.2)

def waitCondition : Nat → CaInterface → OnSlots (CaInterface × Option Nat)
  | 0, ca => pure (ca, none)
  | wakeups + 1, ca => do
    let r ← readCondition ca
    match r.2 with
    | some slot => pure (r.1, some slot)
    | none => waitCondition wakeups r.1

/-- The `do … while` loop of `dvb_ca_en50221_io_read`. -/
def readFragments (read : CaRead) (slot : Nat) : Nat → Option (Nat × Nat) → Option UInt8 → Nat → OnSlots (Option Int)
  | 0, _, _, _ => pure none
  | _ + 1, none, _, _ => pure (some errIo)
  | fuel + 1, some (idx, fraglen), connectionId, pktlen => do
    let info ← Accessing.get slot
    match info.rxBuffer with
    | none => pure (some errIo)
    | some rbuf =>
      let hdr := fragmentHeader rbuf idx
      let connectionId := connectionId.getD hdr.1
      let idx2 := dvbRingbufferPktNext rbuf (some idx)
      if hdr.1 = connectionId then
        if pktlen < read.count ∧ read.copyFails fuel = true then pure (some errFault)
        else
          let copied := if pktlen < read.count then
              if pktlen + fraglen - 2 > read.count then read.count - pktlen else fraglen - 2
            else 0
          Accessing.change slot fun info => { info with rxBuffer := some (dvbRingbufferPktDispose rbuf idx) }
          if hdr.2 &&& 0x80 = 0 then
            pure (some (if read.uncopied ≠ 0 then (read.uncopied : Int) else (pktlen + copied : Nat)))
          else readFragments read slot fuel idx2 (some connectionId) (pktlen + copied)
      else readFragments read slot fuel idx2 (some connectionId) pktlen

/-- What `dvb_ca_en50221_io_read` does with the slot that the condition has found. -/
def readFoundSlot (fuel : Nat) (read : CaRead) (slot : Nat) : OnSlots (Option Int) := do
  let info ← Accessing.get slot
  match info.rxBuffer with
  | none => pure (some errIo)
  | some rbuf => readFragments read slot fuel (dvbRingbufferPktNext rbuf none) none 2

def findSlot (read : CaRead) : OnSlots (CaInterface × Option Nat) := do
  let first ← readCondition ca
  match first.2 with
  | some slot => pure (first.1, some slot)
  | none => if read.nonblock then pure (first.1, none) else waitCondition read.wakeups first.1

/-- `dvb_ca_en50221_io_read` -/
def ioReadOnSlots (fuel : Nat) (read : CaRead) : OnSlots (CaInterface × Option Int) :=
  if read.count < 2 then pure (ca, some errInval)
  else do
    let found ← findSlot ca read
    match found.2 with
    | some slot =>
      let status ← readFoundSlot fuel read slot
      pure (found.1, status)
    | none => pure (found.1, some (if read.nonblock then errAgain else errRestartsys))

end Code

/-- A call, with what its loads find in the slots. `fuel` says how far its loops have come. -/
inductive CaCall where
  | ioctl (cmd : CaCommand) (answer : Nat → DvbCaSlot)
  | write (write : CaWrite) (fuel : Nat) (answer : Nat → DvbCaSlot)
  | read (read : CaRead) (fuel : Nat) (answer : Nat → DvbCaSlot)

/-- What a call shows: the indices it has used, and what it gives back. -/
structure CaOutput where
  accessed : List Nat
  reply : Option CaReply

def callStep (ca : CaInterface) : CaCall → CaInterface × List CaOutput
  | .ioctl cmd answer =>
    let r := (dvbCaEn50221IoDoIoctl ca cmd).run answer 0
    (r.2.1, [⟨r.1, some r.2.2⟩])
  | .write write fuel answer =>
    let r := (ioWriteOnSlots fuel write).run answer 0
    (ca, [⟨r.1, r.2.map .status⟩])
  | .read read fuel answer =>
    let r := (ioReadOnSlots ca fuel read).run answer 0
    (r.2.1, [⟨r.1, r.2.2.map .status⟩])

/-- `dvb_ca_en50221_init` -/
def caInit (slotCount : Nat) (irqCamchange : Bool) : CaInterface := ⟨slotCount, 0, irqCamchange⟩

def OutOfRange (ca : CaInterface) : CaCall → Prop
  | .ioctl (.caGetSlotInfo num) _ => num.toInt < 0 ∨ num.toInt ≥ ca.slotCount
  | .write write _ _ => ∃ slot ∈ write.buf.head?, slot.toNat ≥ ca.slotCount
  | _ => False

/-- All indices are below the number of slots, and a slot number that is not in range is refused before any access. -/
structure SlotsInRange (ca : CaInterface) (call : CaCall) : Prop where
  below : ∀ output ∈ (callStep ca call).2, ∀ i ∈ output.accessed, i < ca.slotCount
  refused : OutOfRange ca call →
    ∃ err, (callStep ca call).2 = [⟨[], some (.status err)⟩] ∧ err < 0 ∧ (callStep ca call).1 = ca

/-- A request for a slot's state is not for the one behind the last, and a message is for a slot that exists, if it has a
header that can be copied. -/
def ArgumentsInRange (ca : CaInterface) : CaCall → Prop
  | .ioctl (.caGetSlotInfo num) _ => num.toInt ≠ ca.slotCount
  | .write write _ _ =>
    2 ≤ write.buf.length → write.slotFault = false → write.connectionFault = false →
      ∀ slot ∈ write.buf.head?, slot.toNat < ca.slotCount
  | _ => True

section Meets

open Accessing

variable {n slot : Nat} {α : Type}

/-- The accesses of a program are below `n`. -/
abbrev Below (n : Nat) (q : α → Prop) (m : OnSlots α) : Prop := Meets (· < n) q m

theorem resetSlots_below {irqCamchange : Bool} {slots : List Nat} (h : ∀ slot ∈ slots, slot < n) :
    Below n (fun _ => True) (resetSlots irqCamchange slots) := by
  induction slots with
  | nil => exact meets_pure trivial
  | cons slot slots ih =>
    obtain ⟨hslot,hslots⟩ := forall_mem_cons.mp h
    have hone : Below n (fun _ => True) (resetSlot irqCamchange slot) := by
      refine meets_get_bind hslot fun info => ?_
      split
      · exact meets_pure trivial
      · refine meets_change_bind hslot ?_
        split
        · exact ⟨hslot,hslot,trivial⟩
        · exact meets_pure trivial
    exact hone.bind fun _ _ => ih hslots

theorem modulePresent_below (hslot : slot < n) : Below n (fun _ => True) (modulePresent slot) := by
  refine meets_get_bind hslot fun info => ?_
  split
  · exact meets_pure trivial
  · exact meets_get_bind hslot fun _ => meets_pure trivial

theorem getSlotInfo_below {ca : CaInterface} {num : Int32} (hnum : num.toInt ≠ ca.slotCount) :
    Below ca.slotCount (fun _ => True) (getSlotInfo ca num) := by
  unfold getSlotInfo
  split
  case isTrue => exact meets_pure trivial
  case isFalse hsmall =>
    have hlt := num.toInt_lt
    have hslot : num.toInt.toNat < ca.slotCount := by omega
    refine (modulePresent_below hslot).bind fun present _ => ?_
    exact meets_get_bind hslot fun _ => meets_pure trivial

theorem attemptsOnSlot_below (hslot : slot < n) (fragbuf : List UInt8) (attempts : List WriteAttempt) :
    Below n (fun _ => True) (attemptsOnSlot slot fragbuf attempts) := by
  induction attempts with
  | nil => exact meets_pure trivial
  | cons attempt attempts ih =>
    refine meets_get_bind hslot fun info => ?_
    split
    · exact meets_pure trivial
    · refine meets_get_bind hslot fun info => meets_change_bind hslot ?_
      split
      · exact meets_pure trivial
      · split
        · exact meets_pure trivial
        · exact ih

theorem fragmentsOnSlot_below (hslot : slot < n) (connectionId : UInt8) (buf : List UInt8) (turn : Nat → WriteTurn)
    (fuel fragpos turns : Nat) : Below n (fun _ => True) (fragmentsOnSlot slot connectionId buf turn fuel fragpos turns) := by
  induction fuel generalizing fragpos turns with
  | zero => exact meets_pure trivial
  | succ fuel ih =>
    unfold fragmentsOnSlot
    split
    · refine meets_get_bind hslot fun info => ?_
      dsimp only
      split
      · exact meets_pure trivial
      · refine (attemptsOnSlot_below hslot _ _).bind fun failed _ => ?_
        cases failed with
        | none => exact ih _ _
        | some status => exact meets_pure trivial
    · exact meets_pure trivial

theorem conditionOnSlots_below {k : Nat} (hslot : slot < n) (connectionId : Option UInt8) :
    Below n (fun r => (∀ next ∈ r.1, next < n) ∧ ∀ found ∈ r.2, found < n)
      (conditionOnSlots n k slot connectionId) := by
  have hnext : (slot + 1) % n < n := Nat.mod_lt _ (Nat.zero_lt_of_lt hslot)
  induction k generalizing slot connectionId with
  | zero => exact meets_pure ⟨fun next h => Option.some.inj h ▸ hslot,fun found h => absurd h (by simp)⟩
  | succ k ih =>
    have hnext' : ((slot + 1) % n + 1) % n < n := Nat.mod_lt _ (Nat.zero_lt_of_lt hslot)
    refine meets_get_bind hslot fun info => ?_
    split
    · exact ih hnext connectionId hnext'
    · refine meets_get_bind hslot fun info => ?_
      split
      · exact meets_pure ⟨fun next h => absurd h (by simp),fun found h => absurd h (by simp)⟩
      · dsimp only
        split
        · exact meets_pure ⟨fun next h => Option.some.inj h ▸ hnext,fun found h => Option.some.inj h ▸ hslot⟩
        · exact ih hnext _ hnext'

def CaInterface.Valid (ca : CaInterface) : Prop := ca.slotCount ≠ 0 → ca.nextReadSlot < ca.slotCount

def Found (ca : CaInterface) (r : CaInterface × Option Nat) : Prop :=
  r.1.slotCount = ca.slotCount ∧ r.1.Valid ∧ ∀ slot ∈ r.2, slot < ca.slotCount

theorem readCondition_below {ca : CaInterface} (h : ca.Valid) : Below ca.slotCount (Found ca) (readCondition ca) := by
  unfold readCondition
  by_cases hcount : ca.slotCount = 0
  · have hnone : conditionOnSlots ca.slotCount ca.slotCount ca.nextReadSlot none =
        pure (some ca.nextReadSlot, none) := by
      rw [hcount]
      rfl
    rw [hnone]
    exact ⟨rfl,fun hne => absurd hcount hne,fun found hfound => absurd hfound (by simp)⟩
  · refine (conditionOnSlots_below (h hcount) none).bind fun r hr => meets_pure ⟨rfl,fun _ => ?_,hr.2⟩
    cases hnext : r.1 with
    | none => exact h hcount
    | some next => exact hr.1 next hnext

theorem waitCondition_below {ca : CaInterface} (h : ca.Valid) (wakeups : Nat) :
    Below ca.slotCount (Found ca) (waitCondition wakeups ca) := by
  induction wakeups generalizing ca with
  | zero => exact meets_pure ⟨rfl,h,fun found hfound => absurd hfound (by simp)⟩
  | succ wakeups ih =>
    refine (readCondition_below h).bind fun r hr => ?_
    obtain ⟨hcount,hvalid,hfound⟩ := hr
    split
    case h_1 slot hslot =>
      exact meets_pure ⟨hcount,hvalid,fun found hf => hfound found (hslot ▸ hf)⟩
    case h_2 =>
      have hrest := ih hvalid
      unfold Found at hrest ⊢
      rwa [hcount] at hrest

theorem readFragments_below (hslot : slot < n) (read : CaRead) (fuel : Nat) (at' : Option (Nat × Nat))
    (connectionId : Option UInt8) (pktlen : Nat) :
    Below n (fun _ => True) (readFragments read slot fuel at' connectionId pktlen) := by
  induction fuel generalizing at' connectionId pktlen with
  | zero => exact meets_pure trivial
  | succ fuel ih =>
    cases at' with
    | none => exact meets_pure trivial
    | some at' =>
      refine meets_get_bind hslot fun info => ?_
      split
      · exact meets_pure trivial
      · dsimp only
        split
        · split
          · exact meets_pure trivial
          · refine meets_change_bind hslot ?_
            split
            · exact meets_pure trivial
            · exact ih _ _ _
        · exact ih _ _ _

theorem readFoundSlot_below (hslot : slot < n) (fuel : Nat) (read : CaRead) :
    Below n (fun _ => True) (readFoundSlot fuel read slot) := by
  refine meets_get_bind hslot fun info => ?_
  split
  · exact meets_pure trivial
  · exact readFragments_below hslot read fuel _ _ _

def Keeps (ca : CaInterface) {β : Type} (r : CaInterface × β) : Prop := r.1.slotCount = ca.slotCount ∧ r.1.Valid

theorem findSlot_below {ca : CaInterface} (h : ca.Valid) (read : CaRead) :
    Below ca.slotCount (Found ca) (findSlot ca read) := by
  refine (readCondition_below h).bind fun first hfirst => ?_
  obtain ⟨hcount,hvalid,hfound⟩ := hfirst
  split
  case h_1 slot hslot => exact meets_pure ⟨hcount,hvalid,fun found hf => hfound found (hslot ▸ hf)⟩
  case h_2 =>
    split
    · exact meets_pure ⟨hcount,hvalid,fun found hf => absurd hf (by simp)⟩
    · have hrest := waitCondition_below hvalid read.wakeups
      unfold Found at hrest ⊢
      rwa [hcount] at hrest

theorem ioReadOnSlots_below {ca : CaInterface} (h : ca.Valid) (fuel : Nat) (read : CaRead) :
    Below ca.slotCount (Keeps ca) (ioReadOnSlots ca fuel read) := by
  unfold ioReadOnSlots
  split
  · exact meets_pure ⟨rfl,h⟩
  · refine (findSlot_below h read).bind fun found hf => ?_
    split
    case h_1 slot hslot =>
      exact (readFoundSlot_below (hf.2.2 slot hslot) fuel read).bind fun _ _ => meets_pure ⟨hf.1,hf.2.1⟩
    case h_2 => exact meets_pure ⟨hf.1,hf.2.1⟩

end Meets

section Steps

open Accessing

variable {ca : CaInterface}

theorem SlotsInRange.of_accesses {call : CaCall} {accessed : List Nat} {reply : Option CaReply}
    (hstep : (callStep ca call).2 = [⟨accessed, reply⟩]) (hbelow : ∀ i ∈ accessed, i < ca.slotCount)
    (hrange : ¬ OutOfRange ca call) : SlotsInRange ca call where
  below := by
    intro output houtput
    rw [hstep] at houtput
    rw [mem_singleton.mp houtput]
    exact hbelow
  refused := fun hout => absurd hout hrange

theorem SlotsInRange.of_refused {call : CaCall} {err : Int} (hstep : callStep ca call = (ca, [⟨[], some (.status err)⟩]))
    (herr : err < 0) : SlotsInRange ca call where
  below := by
    intro output houtput
    rw [hstep] at houtput
    rw [mem_singleton.mp houtput]
    exact fun i hi => absurd hi not_mem_nil
  refused := fun _ => ⟨err,congrArg Prod.snd hstep,herr,congrArg Prod.fst hstep⟩

theorem not_slotsInRange {call : CaCall} {i : Nat} {accessed : List Nat} {reply : Option CaReply}
    (hstep : (callStep ca call).2 = [⟨i :: accessed, reply⟩]) (hrange : OutOfRange ca call) : ¬ SlotsInRange ca call := by
  intro h
  obtain ⟨err,hrefused,-,-⟩ := h.refused hrange
  rw [hstep] at hrefused
  cases hrefused

theorem callStep_valid (h : ca.Valid) (call : CaCall) : (callStep ca call).1.Valid := by
  cases call with
  | ioctl cmd answer =>
    cases cmd with
    | caReset =>
      have hreset : Below ca.slotCount (fun r => r.1.Valid) (dvbCaEn50221IoDoIoctl ca .caReset) :=
        (resetSlots_below fun slot hslot => mem_range.mp hslot).bind fun _ _ =>
          meets_pure fun hcount => Nat.pos_of_ne_zero hcount
      exact (hreset.run answer 0).2
    | caGetCap => exact h
    | caGetSlotInfo num =>
      have hnum : Meets (fun _ => True) (fun r => r.1.Valid) (dvbCaEn50221IoDoIoctl ca (.caGetSlotInfo num)) :=
        (meets_trivial (getSlotInfo ca num)).bind fun _ _ => meets_pure h
      exact (hnum.run answer 0).2
    | other => exact h
  | write write fuel answer => exact h
  | read read fuel answer => exact ((ioReadOnSlots_below h fuel read).run answer 0).2.2

theorem slotsInRange_getSlotInfo_iff (num : Int32) (answer : Nat → DvbCaSlot) :
    SlotsInRange ca (.ioctl (.caGetSlotInfo num) answer) ↔ num.toInt ≠ ca.slotCount := by
  have hlt := num.toInt_lt
  constructor
  · intro h heq
    have hsmall : ¬ (num.toInt % 2 ^ 32 > ca.slotCount ∨ num.toInt < 0) := by omega
    have hstep : ∃ accessed reply, (callStep ca (.ioctl (.caGetSlotInfo num) answer)).2 =
        [⟨num.toInt.toNat :: accessed,reply⟩] := by
      simp only [callStep,dvbCaEn50221IoDoIoctl,getSlotInfo,if_neg hsmall]
      exact ⟨_,_,rfl⟩
    obtain ⟨accessed,reply,hstep⟩ := hstep
    exact not_slotsInRange hstep (.inr (Int.le_of_eq heq.symm)) h
  · intro hnum
    by_cases hrange : num.toInt < 0 ∨ num.toInt ≥ ca.slotCount
    · have hlarge : num.toInt % 2 ^ 32 > ca.slotCount ∨ num.toInt < 0 := by omega
      refine .of_refused ?_ (show errInval < 0 by decide)
      simp only [callStep,dvbCaEn50221IoDoIoctl,getSlotInfo,if_pos hlarge]
      rfl
    · have hbelow : Below ca.slotCount (fun _ => True) (dvbCaEn50221IoDoIoctl ca (.caGetSlotInfo num)) :=
        (getSlotInfo_below hnum).bind fun _ _ => meets_pure trivial
      exact .of_accesses rfl (hbelow.run answer 0).1 hrange

theorem slotsInRange_write_iff (write : CaWrite) (fuel : Nat) (answer : Nat → DvbCaSlot) :
    SlotsInRange ca (.write write fuel answer) ↔ ArgumentsInRange ca (.write write fuel answer) := by
  obtain ⟨buf,slotFault,connectionFault,turn⟩ := write
  unfold ArgumentsInRange
  cases buf with
  | nil => exact iff_of_true (.of_refused rfl (show errInval < 0 by decide)) fun hlength => absurd hlength (by simp)
  | cons slot buf =>
    cases buf with
    | nil => exact iff_of_true (.of_refused rfl (show errInval < 0 by decide)) fun hlength => absurd hlength (by simp)
    | cons connectionId buf =>
      cases slotFault with
      | true => exact iff_of_true (.of_refused rfl (show errFault < 0 by decide)) fun _ hfault => by cases hfault
      | false =>
        cases connectionFault with
        | true => exact iff_of_true (.of_refused rfl (show errFault < 0 by decide)) fun _ _ hfault => by cases hfault
        | false =>
          by_cases hslot : slot.toNat < ca.slotCount
          · refine iff_of_true ?_ fun _ _ _ other hother => Option.some.inj hother ▸ hslot
            have hbelow : Below ca.slotCount (fun _ => True)
                (ioWriteOnSlots fuel ⟨slot :: connectionId :: buf,false,false,turn⟩) := by
              refine meets_get_bind hslot fun info => ?_
              split
              · exact meets_pure trivial
              · exact fragmentsOnSlot_below hslot connectionId buf turn fuel 0 0
            refine .of_accesses rfl (hbelow.run answer 0).1 fun hrange => ?_
            obtain ⟨other,hother,hlarge⟩ := hrange
            cases hother
            omega
          · refine iff_of_false ?_ fun hrange => hslot (hrange (by simp) rfl rfl slot rfl)
            have hstep : ∃ accessed reply, (callStep ca (.write ⟨slot :: connectionId :: buf,false,false,turn⟩ fuel
                answer)).2 = [⟨slot.toNat :: accessed,reply⟩] := ⟨_,_,rfl⟩
            obtain ⟨accessed,reply,hstep⟩ := hstep
            exact not_slotsInRange hstep ⟨slot,rfl,Nat.not_lt.mp hslot⟩

theorem slotsInRange_iff (h : ca.Valid) (call : CaCall) : SlotsInRange ca call ↔ ArgumentsInRange ca call := by
  cases call with
  | ioctl cmd answer =>
    cases cmd with
    | caReset =>
      have hbelow : Below ca.slotCount (fun _ => True) (dvbCaEn50221IoDoIoctl ca .caReset) :=
        (resetSlots_below fun slot hslot => mem_range.mp hslot).bind fun _ _ => meets_pure trivial
      exact iff_of_true (.of_accesses rfl (hbelow.run answer 0).1 id) trivial
    | caGetCap => exact iff_of_true (.of_accesses rfl (fun i hi => absurd hi not_mem_nil) id) trivial
    | caGetSlotInfo num => exact slotsInRange_getSlotInfo_iff num answer
    | other => exact iff_of_true (.of_accesses rfl (fun i hi => absurd hi not_mem_nil) id) trivial
  | write write fuel answer => exact slotsInRange_write_iff write fuel answer
  | read read fuel answer =>
    exact iff_of_true (.of_accesses rfl ((ioReadOnSlots_below h fuel read).run answer 0).1 id) trivial

end Steps

/-- In every run of calls on a device, with anything happening to its slots meanwhile, the accesses stay inside the array
and arguments out of range are refused before any access, exactly if all arguments meet `ArgumentsInRange`. -/
theorem slots_inRange_iff (slotCount : Nat) (irqCamchange : Bool) (calls : List CaCall) :
    StepsMeet callStep SlotsInRange (caInit slotCount irqCamchange) calls ↔
      StepsMeet callStep ArgumentsInRange (caInit slotCount irqCamchange) calls := by
  have hinit : (caInit slotCount irqCamchange).Valid := fun hcount => Nat.pos_of_ne_zero hcount
  exact stepsMeet_iff_of_invariant CaInterface.Valid (fun ca call h => slotsInRange_iff h call)
    (fun ca call h _ => callStep_valid h call) hinit calls

/-- A message for slot 200 of a device with one slot, and a request for the state of its slot 1. -/
theorem slots_not_inRange :
    ((callStep (caInit 1 false) (.write ⟨[200, 0, 7], false, false, fun _ => ⟨0, []⟩⟩ 1 fun _ => ⟨.none, none, 0⟩)).2.map
        CaOutput.accessed = [[200]]) ∧
      ((callStep (caInit 1 false) (.ioctl (.caGetSlotInfo 1) fun _ => ⟨.none, none, 0⟩)).2.map CaOutput.accessed = [[1, 1]]) ∧
      ¬ StepsMeet callStep SlotsInRange (caInit 1 false)
        [.write ⟨[200, 0, 7], false, false, fun _ => ⟨0, []⟩⟩ 1 fun _ => ⟨.none, none, 0⟩] := by
  refine ⟨rfl, rfl, fun h => ?_⟩
  exact absurd (h.1.below _ List.mem_cons_self 200 List.mem_cons_self) (by decide)

end LinuxDvb.CaEn50221
