import LinuxDvb.Framework.Trace
import LinuxDvb.LibDvbEn50221.Asn1

/-!
# Transport layer

`en50221_transport.c`: connections to the modules of the slots, each with a queue of messages. A poll reads from a
slot, handles the TPDUs it has got, and then serves the connections of the slot one by one.
-/

namespace LinuxDvb.En50221

def tSb : UInt8 := 0x80
def tRcv : UInt8 := 0x81
def tCreateTC : UInt8 := 0x82
def tCTCReply : UInt8 := 0x83
def tDeleteTC : UInt8 := 0x84
def tDTCReply : UInt8 := 0x85
def tRequestTC : UInt8 := 0x86
def tNewTC : UInt8 := 0x87
def tTCError : UInt8 := 0x77
def tDataLast : UInt8 := 0xa0
def tDataMore : UInt8 := 0xa1

def errCaread : Int := -1
def errCawrite : Int := -2
def errTimeout : Int := -3
def errBadslotid : Int := -4
def errBadconnectionid : Int := -5
def errBadstate : Int := -6
def errBadcamdata : Int := -7
def errOutofmemory : Int := -8
def errAsnencode : Int := -9
def errOutofconnections : Int := -10
def errOutofslots : Int := -11

inductive ConnState where
  | idle | active | activeDeletequeued | inCreation | inDeletion
  deriving DecidableEq, Repr

/-- `struct en50221_message`. `use` is a history variable: the use of the connection in which the message
was queued. -/
structure Message where
  data : List UInt8
  length : Nat
  use : Nat
  deriving DecidableEq

/-- `struct en50221_connection`. `txTime` is `none` if `tx_time` is 0. The history variable `use` counts the
allocations of the entry, and `txTime` remembers the use in which the request was sent. -/
structure Connection where
  state : ConnState
  txTime : Option Nat
  chainBuffer : Option (List UInt8)
  sendQueue : List Message
  use : Nat
  deriving DecidableEq

structure Slot (conns : Nat) where
  caHndl : Option Nat
  slot : UInt8
  connection : Fin conns → Connection

structure TransportLayer (slots conns : Nat) where
  slot : Fin slots → Slot conns
  error : Int
  errorSlot : Int

inductive CallbackReason where
  | connectionopen | camconnectionopen | data | connectionclose | slotclose
  deriving DecidableEq, Repr

inductive TlEvent (slots conns : Nat) where
  /-- `en50221_tl_alloc_new_tc` has found the entry. -/
  | allocated (s : Fin slots) (c : Fin conns)
  /-- A TPDU was written to the device that was made in this use of the connection. -/
  | written (s : Fin slots) (c : Fin conns) (data : List UInt8) (use : Nat)
  | callback (s : Fin slots) (c : Nat) (reason : CallbackReason) (data : List UInt8)
  /-- `EN50221ERR_TIMEOUT` for a request that was sent in this use of the connection. -/
  | timedOut (s : Fin slots) (c : Fin conns) (use : Nat)
  /-- A poll has failed. -/
  | pollFailed (error : Int)
  deriving DecidableEq

abbrev TlResult (slots conns : Nat) := TransportLayer slots conns × List (TlEvent slots conns) × Int

/-- An id as an index of an array of `n` entries. -/
def toFin? (n i : Nat) : Option (Fin n) := if h : i < n then some ⟨i, h⟩ else none

namespace TransportLayer

variable {slots conns : Nat}

def conn (tl : TransportLayer slots conns) (s : Fin slots) (c : Fin conns) : Connection :=
  (tl.slot s).connection c

def updConn (tl : TransportLayer slots conns) (s : Fin slots) (c : Fin conns)
    (g : Connection → Connection) : TransportLayer slots conns :=
  { tl with slot := Function.update tl.slot s { tl.slot s with
      connection := Function.update (tl.slot s).connection c (g ((tl.slot s).connection c)) } }

theorem conn_updConn (tl : TransportLayer slots conns) (s s' : Fin slots) (c c' : Fin conns)
    (g : Connection → Connection) :
    (tl.updConn s c g).conn s' c' = if s' = s ∧ c' = c then g (tl.conn s c) else tl.conn s' c' := by
  unfold updConn conn
  by_cases hs : s' = s
  · subst hs
    by_cases hc : c' = c
    · subst hc
      simp
    · simp [hc]
  · simp [hs]

@[simp] theorem conn_updConn_self (tl : TransportLayer slots conns) (s : Fin slots) (c : Fin conns)
    (g : Connection → Connection) : (tl.updConn s c g).conn s c = g (tl.conn s c) := by
  rw [conn_updConn,if_pos ⟨rfl,rfl⟩]

theorem updConn_updConn (tl : TransportLayer slots conns) (s : Fin slots) (c : Fin conns)
    (g h : Connection → Connection) :
    (tl.updConn s c g).updConn s c h = tl.updConn s c fun con => h (g con) := by
  unfold updConn
  simp

def fail (tl : TransportLayer slots conns) (s : Fin slots) (error : Int) : TransportLayer slots conns :=
  { tl with error := error, errorSlot := s }

def failAny (tl : TransportLayer slots conns) (error : Int) : TransportLayer slots conns :=
  { tl with error := error }

@[simp] theorem conn_fail (tl : TransportLayer slots conns) (s s' : Fin slots) (c : Fin conns) (error : Int) :
    (tl.fail s error).conn s' c = tl.conn s' c := rfl

@[simp] theorem conn_failAny (tl : TransportLayer slots conns) (s : Fin slots) (c : Fin conns) (error : Int) :
    (tl.failAny error).conn s c = tl.conn s c := rfl

def queueMessage (tl : TransportLayer slots conns) (s : Fin slots) (c : Fin conns) (data : List UInt8)
    (length : Nat) : TransportLayer slots conns :=
  tl.updConn s c fun con => { con with sendQueue := con.sendQueue ++ [⟨data, length, con.use⟩] }

/-- The entry that `en50221_tl_alloc_new_tc` finds. -/
def findIdle (tl : TransportLayer slots conns) (s : Fin slots) : Option (Fin conns) :=
  (List.finRange conns).find? fun c => decide (1 ≤ c.val) && decide ((tl.conn s c).state = .idle)

theorem findIdle_state {tl : TransportLayer slots conns} {s : Fin slots} {c : Fin conns}
    (h : tl.findIdle s = some c) : (tl.conn s c).state = .idle := by
  have hfound := find?_some h
  simp only [Bool.and_eq_true,decide_eq_true_eq] at hfound
  exact hfound.2

/-- `en50221_tl_alloc_new_tc` for the entry it has found. -/
def allocNewTc (tl : TransportLayer slots conns) (s : Fin slots) (c : Fin conns) :
    TransportLayer slots conns :=
  tl.updConn s c fun con => { con with state := .inCreation, chainBuffer := none, use := con.use + 1 }

def checkSlot (tl : TransportLayer slots conns) (slotId : UInt8) : Option (Fin slots) :=
  (toFin? slots slotId.toNat).filter fun s => (tl.slot s).caHndl.isSome

/-- `en50221_tl_new_tc`; `malloc` says whether there is memory for the message. -/
def newTc (tl : TransportLayer slots conns) (slotId : UInt8) (malloc : Bool) : TlResult slots conns :=
  match tl.checkSlot slotId with
  | none => (tl.failAny errBadslotid, [], -1)
  | some s =>
    match tl.findIdle s with
    | none => (tl.fail s errOutofconnections, [], -1)
    | some conid =>
      let tl := tl.allocNewTc s conid
      if !malloc then (tl.fail s errOutofmemory, [.allocated s conid], -1)
      else
        (tl.queueMessage s conid [tCreateTC, 1, UInt8.ofNat conid] 3, [.allocated s conid], conid.val)

/-- `en50221_tl_del_tc` -/
def delTc (tl : TransportLayer slots conns) (slotId connectionId : UInt8) (malloc : Bool) :
    TlResult slots conns :=
  match tl.checkSlot slotId with
  | none => (tl.failAny errBadslotid, [], -1)
  | some s =>
    match toFin? conns connectionId.toNat with
    | none => (tl.fail s errBadconnectionid, [], -1)
    | some c =>
      if (tl.conn s c).state ≠ .active ∧ (tl.conn s c).state ≠ .inDeletion then
        (tl.fail s errBadstate, [], -1)
      else if !malloc then (tl.fail s errOutofmemory, [], -1)
      else
        let tl := tl.queueMessage s c [tDeleteTC, 1, connectionId] 3
        (tl.updConn s c fun con => { con with state := .activeDeletequeued }, [], 0)

/-- What `en50221_tl_send_data` and `en50221_tl_send_datav` have in common: `dataSize` is their `data_size`
and `bytes` what they copy behind the header. -/
def sendBytes (tl : TransportLayer slots conns) (slotId connectionId : UInt8) (dataSize : Nat)
    (bytes : List UInt8) (malloc : Bool) : TlResult slots conns :=
  match tl.checkSlot slotId with
  | none => (tl.failAny errBadslotid, [], -1)
  | some s =>
    match toFin? conns connectionId.toNat with
    | none => (tl.fail s errBadconnectionid, [], -1)
    | some c =>
      if (tl.conn s c).state ≠ .active then (tl.failAny errBadconnectionid, [], -1)
      else if !malloc then (tl.fail s errOutofmemory, [], -1)
      else
        -- the parameter of `asn_1_encode` has 16 bits
        match asn1Encode (UInt16.ofNat (dataSize + 1)) 3 with
        | none => (tl.fail s errAsnencode, [], -1)
        | some lengthField =>
          let length := (1 + lengthField.length + 1 + dataSize) % 2 ^ 32
          (tl.queueMessage s c (tDataLast :: lengthField ++ connectionId :: bytes) length, [], 0)

theorem delTc_events (tl : TransportLayer slots conns) (slotId connectionId : UInt8) (malloc : Bool) :
    (tl.delTc slotId connectionId malloc).2.1 = [] := by
  unfold delTc
  split
  · rfl
  split
  · rfl
  split
  · rfl
  split <;> rfl

theorem sendBytes_events (tl : TransportLayer slots conns) (slotId connectionId : UInt8) (dataSize : Nat)
    (bytes : List UInt8) (malloc : Bool) :
    (tl.sendBytes slotId connectionId dataSize bytes malloc).2.1 = [] := by
  unfold sendBytes
  split
  · rfl
  split
  · rfl
  split
  · rfl
  split
  · rfl
  split <;> rfl

/-- `en50221_tl_send_data` -/
def sendData (tl : TransportLayer slots conns) (slotId connectionId : UInt8) (data : List UInt8)
    (malloc : Bool) : TlResult slots conns :=
  tl.sendBytes slotId connectionId data.length data malloc

/-- `en50221_tl_send_datav`; the sum of the lengths has 32 bits. -/
def sendDatav (tl : TransportLayer slots conns) (slotId connectionId : UInt8) (vector : List (List UInt8))
    (malloc : Bool) : TlResult slots conns :=
  tl.sendBytes slotId connectionId ((vector.map List.length).sum % 2 ^ 32) vector.flatten malloc

/-- `en50221_tl_register_slot` -/
def registerSlot (tl : TransportLayer slots conns) (caHndl : Nat) (slot : UInt8) : TlResult slots conns :=
  match (List.finRange slots).find? fun s => (tl.slot s).caHndl.isNone with
  | none => (tl.failAny errOutofslots, [], -1)
  | some s =>
    ({ tl with slot := Function.update tl.slot s { tl.slot s with caHndl := some caHndl, slot := slot } }, [], s.val)

theorem registerSlot_events (tl : TransportLayer slots conns) (caHndl : Nat) (slot : UInt8) :
    (tl.registerSlot caHndl slot).2.1 = [] := by
  unfold registerSlot
  split <;> rfl

theorem registerSlot_conn (tl : TransportLayer slots conns) (caHndl : Nat) (slot : UInt8) (s : Fin slots)
    (c : Fin conns) : (tl.registerSlot caHndl slot).1.conn s c = tl.conn s c := by
  unfold registerSlot
  split
  · rfl
  · rename_i s' _
    unfold conn
    dsimp only
    by_cases hs : s = s'
    · subst hs
      simp
    · simp [hs]

def clearConnection (con : Connection) : Connection :=
  { con with state := .idle, txTime := none, chainBuffer := none, sendQueue := [] }

/-- `en50221_tl_destroy_slot` -/
def destroySlot (tl : TransportLayer slots conns) (slotId : UInt8) : TlResult slots conns :=
  match toFin? slots slotId.toNat with
  | none => (tl, [], 0)
  | some s =>
    ({ tl with slot := Function.update tl.slot s { tl.slot s with
        caHndl := none
        connection := fun c => clearConnection ((tl.slot s).connection c) } },
      [.callback s 0 .slotclose []], 0)

/-- The `data_length` of `dvbca_link_write` has 16 bits. -/
def linkData (msg : Message) : List UInt8 := msg.data.take (msg.length % 2 ^ 16)

end TransportLayer

/-- What serving a connection meets: the result of the write, and whether the poll delay and the response
timeout have elapsed. -/
structure ServiceIo where
  write : Bool
  pollElapsed : Bool
  responseElapsed : Bool

namespace TransportLayer

variable {slots conns : Nat}

def sendQueued (tl : TransportLayer slots conns) (s : Fin slots) (c : Fin conns) (io : ServiceIo) :
    TlResult slots conns :=
  let con := tl.conn s c
  if con.state = .inCreation ∨ con.state = .active ∨ con.state = .activeDeletequeued then
    match con.sendQueue, con.txTime with
    | msg :: rest, none =>
      let tl := tl.updConn s c fun con => { con with sendQueue := rest }
      if !io.write then (tl.fail s errCawrite, [], -1)
      else
        let tl := tl.updConn s c fun con => { con with txTime := some con.use }
        let tl := if msg.data.head? = some tDeleteTC then
            tl.updConn s c fun con => { con with state := .inDeletion, chainBuffer := none }
          else tl
        (tl, [.written s c (linkData msg) msg.use], 0)
    | _, _ => (tl, [], 0)
  else (tl, [], 0)

/-- Poll the connection if we're not expecting a response and the poll time has elapsed
(`en50221_tl_poll_tc`). -/
def pollTc (tl : TransportLayer slots conns) (s : Fin slots) (c : Fin conns) (io : ServiceIo) :
    TlResult slots conns :=
  let con := tl.conn s c
  if con.state = .active ∧ con.txTime = none ∧ io.pollElapsed then
    let tl := tl.updConn s c fun con => { con with txTime := some con.use }
    if !io.write then (tl.fail s errCawrite, [], -1)
    else (tl, [.written s c [tDataLast, 1, UInt8.ofNat c] con.use], 0)
  else (tl, [], 0)

def checkTimeout (tl : TransportLayer slots conns) (s : Fin slots) (c : Fin conns) (io : ServiceIo) :
    TlResult slots conns :=
  let con := tl.conn s c
  match con.txTime with
  | none => (tl, [], 0)
  | some use =>
    if !io.responseElapsed then (tl, [], 0)
    else
      match con.state with
      | .inCreation | .inDeletion => (tl.updConn s c fun con => { con with state := .idle }, [], 0)
      | .active | .activeDeletequeued => (tl.fail s errTimeout, [.timedOut s c use], -1)
      | .idle => (tl, [], 0)

def andThen (r : TlResult slots conns) (next : TransportLayer slots conns → TlResult slots conns) :
    TlResult slots conns :=
  if r.2.2 < 0 then r
  else
    let r' := next r.1
    (r'.1, r.2.1 ++ r'.2.1, r'.2.2)

/-- The body of the loop over the connections in `en50221_tl_poll`. -/
def serveConnection (tl : TransportLayer slots conns) (s : Fin slots) (c : Fin conns) (io : ServiceIo) :
    TlResult slots conns :=
  if (tl.conn s c).state = .idle then (tl, [], 0)
  else
    andThen (andThen (tl.sendQueued s c io) fun tl => tl.pollTc s c io) fun tl => tl.checkTimeout s c io

end TransportLayer

structure Tpdu where
  tag : UInt8
  connectionId : UInt8
  data : List UInt8
  rest : List UInt8
  deriving DecidableEq

/-- Reading `n` bytes. -/
def readBytes (data : List UInt8) (n : Nat) : Option (List UInt8) :=
  if n ≤ data.length then some (data.take n) else none

/-- The header rules of `en50221_tl_process_data`: the next TPDU of `dataLength` bytes of data. A read
outside of the data is `none`, and `some none` an invalid length. -/
def parseTpdu (data : List UInt8) (dataLength : Nat) : Option (Option Tpdu) := do
  let tag ← data[0]?
  match ← asn1Decode (data.drop 1) (dataLength - 1) with
  | none => some none
  | some (lengthFieldLen, asnDataLength) =>
    if asnDataLength < 1 ∨ asnDataLength > dataLength - (1 + lengthFieldLen) then some none
    else do
      let connectionId ← data[1 + lengthFieldLen]?
      let behind := data.drop (1 + lengthFieldLen + 1)
      let payload ← readBytes behind (asnDataLength - 1)
      some (some ⟨tag, connectionId, payload, behind.drop (asnDataLength - 1)⟩)

/-- What handling a TPDU meets: the results of two writes and of `realloc`. -/
structure ReceiveIo where
  write : Bool
  writeCreate : Bool
  realloc : Bool

namespace TransportLayer

variable {slots conns : Nat}

def handleCreateTcReply (tl : TransportLayer slots conns) (s : Fin slots) (c : Fin conns) :
    TlResult slots conns :=
  if (tl.conn s c).state = .inCreation then
    (tl.updConn s c fun con => { con with state := .active, txTime := none }, [.callback s c .connectionopen []], 0)
  else (tl.fail s errBadcamdata, [], -1)

def handleDeleteTc (tl : TransportLayer slots conns) (s : Fin slots) (c : Fin conns) (io : ReceiveIo) :
    TlResult slots conns :=
  let con := tl.conn s c
  if con.state = .active ∨ con.state = .inDeletion then
    let tl := tl.updConn s c fun con => { con with state := .idle, chainBuffer := none }
    if !io.write then (tl.fail s errCawrite, [], -1)
    else
      (tl, [.written s c [tDTCReply, 1, UInt8.ofNat c] con.use, .callback s c .connectionclose []], 0)
  else (tl.fail s errBadcamdata, [], -1)

def handleDeleteTcReply (tl : TransportLayer slots conns) (s : Fin slots) (c : Fin conns) :
    TlResult slots conns :=
  if (tl.conn s c).state = .inDeletion then
    (tl.updConn s c fun con => { con with state := .idle }, [], 0)
  else (tl.fail s errBadcamdata, [], -1)

def handleRequestTc (tl : TransportLayer slots conns) (s : Fin slots) (c : Fin conns) (io : ReceiveIo) :
    TlResult slots conns :=
  match tl.findIdle s with
  | none =>
    if !io.write then (tl.fail s errCawrite, [], -1)
    else
      (tl.updConn s c fun con => { con with txTime := none },
        [.written s c [tTCError, 2, UInt8.ofNat c, 1] (tl.conn s c).use], 0)
  | some conid =>
    let tl := tl.allocNewTc s conid
    if !io.write then
      ((tl.updConn s conid fun con => { con with state := .idle }).fail s errCawrite, [.allocated s conid], -1)
    else
      let newTc := TlEvent.written s c [tNewTC, 2, UInt8.ofNat c, UInt8.ofNat conid] (tl.conn s c).use
      let tl := tl.updConn s c fun con => { con with txTime := none }
      if !io.writeCreate then
        ((tl.updConn s conid fun con => { con with state := .idle }).fail s errCawrite, [.allocated s conid, newTc], -1)
      else
        (tl.updConn s conid fun con => { con with txTime := some con.use }, [.allocated s conid, newTc,
            .written s conid [tCreateTC, 1, UInt8.ofNat conid] (tl.conn s conid).use,
            .callback s conid .camconnectionopen []], 0)

def handleDataMore (tl : TransportLayer slots conns) (s : Fin slots) (c : Fin conns) (data : List UInt8)
    (io : ReceiveIo) : TlResult slots conns :=
  if (tl.conn s c).state ≠ .active then (tl.fail s errBadcamdata, [], -1)
  else
    let tl := tl.updConn s c fun con => { con with txTime := none }
    if !io.realloc then (tl.fail s errOutofmemory, [], -1)
    else
      (tl.updConn s c fun con =>
        { con with chainBuffer := some (con.chainBuffer.getD [] ++ data) }, [], 0)

def handleDataLast (tl : TransportLayer slots conns) (s : Fin slots) (c : Fin conns) (data : List UInt8)
    (io : ReceiveIo) : TlResult slots conns :=
  if (tl.conn s c).state ≠ .active then (tl.fail s errBadcamdata, [], -1)
  else
    let tl := tl.updConn s c fun con => { con with txTime := none }
    match (tl.conn s c).chainBuffer with
    | none => (tl, if data = [] then [] else [.callback s c .data data], 0)
    | some chain =>
      if !io.realloc then (tl.fail s errOutofmemory, [], -1)
      else
        (tl.updConn s c fun con => { con with chainBuffer := none },
          if data = [] then [] else [.callback s c .data (chain ++ data)], 0)

def handleSb (tl : TransportLayer slots conns) (s : Fin slots) (c : Fin conns) (data : List UInt8)
    (io : ReceiveIo) : TlResult slots conns :=
  let con := tl.conn s c
  if con.state ≠ .active then (tl.fail s errBadcamdata, [], -1)
  else
    match data with
    | [sb] =>
      -- tell it to send the data if it says there is some
      if sb &&& 0x80 ≠ 0 then
        if !io.write then (tl.fail s errCawrite, [], -1)
        else
          (tl.updConn s c fun con => { con with txTime := some con.use },
            [.written s c [tRcv, 1, UInt8.ofNat c] con.use], 0)
      else (tl.updConn s c fun con => { con with txTime := none }, [], 0)
    | _ => (tl.fail s errBadcamdata, [], -1)

/-- The `switch` over the tag of a TPDU for connection `c`. -/
def handleTpdu (tl : TransportLayer slots conns) (s : Fin slots) (c : Fin conns) (tpdu : Tpdu)
    (io : ReceiveIo) : TlResult slots conns :=
  if tpdu.tag = tCTCReply then tl.handleCreateTcReply s c
  else if tpdu.tag = tDeleteTC then tl.handleDeleteTc s c io
  else if tpdu.tag = tDTCReply then tl.handleDeleteTcReply s c
  else if tpdu.tag = tRequestTC then tl.handleRequestTc s c io
  else if tpdu.tag = tDataMore then tl.handleDataMore s c tpdu.data io
  else if tpdu.tag = tDataLast then tl.handleDataLast s c tpdu.data io
  else if tpdu.tag = tSb then tl.handleSb s c tpdu.data io
  else (tl.fail s errBadcamdata, [], -1)

def processTpdu (tl : TransportLayer slots conns) (s : Fin slots) (parsed : Option Tpdu) (io : ReceiveIo) :
    TlResult slots conns :=
  match parsed with
  | none => (tl.fail s errBadcamdata, [], -1)
  | some tpdu =>
    match toFin? conns tpdu.connectionId.toNat with
    | none => (tl.fail s errBadconnectionid, [], -1)
    | some c => tl.handleTpdu s c tpdu io

end TransportLayer

inductive TlCall where
  | newTc (slotId : UInt8) (malloc : Bool)
  | delTc (slotId connectionId : UInt8) (malloc : Bool)
  | sendData (slotId connectionId : UInt8) (data : List UInt8) (malloc : Bool)
  | sendDatav (slotId connectionId : UInt8) (vector : List (List UInt8)) (malloc : Bool)
  | registerSlot (caHndl : Nat) (slot : UInt8)
  | destroySlot (slotId : UInt8)

/-- A call of the user, or a step of a poll: the next TPDU of received data is handled, a connection is
served, or the device reports an error. -/
inductive TlInput (slots conns : Nat) where
  | call (call : TlCall)
  | receive (s : Fin slots) (data : List UInt8) (io : ReceiveIo)
  | serve (s : Fin slots) (c : Fin conns) (io : ServiceIo)
  | readError (s : Option (Fin slots))
  | foreignSlot

namespace TransportLayer

variable {slots conns : Nat}

def call (tl : TransportLayer slots conns) : TlCall → TlResult slots conns
  | .newTc slotId malloc => tl.newTc slotId malloc
  | .delTc slotId connectionId malloc => tl.delTc slotId connectionId malloc
  | .sendData slotId connectionId data malloc => tl.sendData slotId connectionId data malloc
  | .sendDatav slotId connectionId vector malloc => tl.sendDatav slotId connectionId vector malloc
  | .registerSlot caHndl slot => tl.registerSlot caHndl slot
  | .destroySlot slotId => tl.destroySlot slotId

def inPoll (r : TlResult slots conns) : TransportLayer slots conns × List (TlEvent slots conns) :=
  (r.1, r.2.1 ++ if r.2.2 < 0 then [.pollFailed r.1.error] else [])

end TransportLayer

open TransportLayer in
def tlStep {slots conns : Nat} (tl : TransportLayer slots conns) :
    TlInput slots conns → TransportLayer slots conns × List (TlEvent slots conns)
  | .call c => ((tl.call c).1, (tl.call c).2.1)
  | .receive s data io =>
    match parseTpdu data data.length with
    | none => (tl, [])
    | some parsed => inPoll (tl.processTpdu s parsed io)
  | .serve s c io => inPoll (tl.serveConnection s c io)
  | .readError (some s) => inPoll (tl.fail s errCaread, [], -1)
  | .readError none => inPoll ({ tl with error := errCaread, errorSlot := -1 }, [], -1)
  | .foreignSlot => inPoll (tl.failAny errBadslotid, [], -1)

/-- `en50221_tl_create` -/
def tlCreate (slots conns : Nat) : TransportLayer slots conns where
  slot := fun _ =>
    { caHndl := none
      slot := 0
      connection := fun _ =>
        { state := .idle, txTime := none, chainBuffer := none, sendQueue := [], use := 0 } }
  error := 0
  errorSlot := 0

end LinuxDvb.En50221
