import LinuxDvb.Framework.Crc32
import LinuxDvb.Framework.Kernel
import LinuxDvb.Framework.Loop
import LinuxDvb.Framework.SkBuff

/-!
# ULE decapsulation

The ULE receiver of `dvb_net.c`: `dvb_net_ule` takes cells (188-byte TS packets) of one PID and passes the payload of
SNDUs on to the network stack.
-/

namespace LinuxDvb.Net

def tsSz : Nat := 188
def ethAlen : Nat := 6
def ethHlen : Nat := 14

inductive RxMode where
  | uni | multi | allMulti | promisc
  deriving DecidableEq, Repr

inductive PktType where
  | host | broadcast | multicast
  deriving DecidableEq, Repr

structure NetDevice where
  devAddr : List UInt8
  broadcast : List UInt8

structure NetDeviceStats where
  rxPackets : Nat
  rxBytes : Nat
  rxErrors : Nat
  rxDropped : Nat
  rxLengthErrors : Nat
  rxCrcErrors : Nat
  rxFrameErrors : Nat
  deriving DecidableEq, Repr

/-- `struct dvb_net_priv`. `multiMacs` holds the first `multi_num` entries of `multi_macs`,
`uleNextHdr` is an offset into the memory of the skb, and `uleDbit` is only tested against 0. The `int`
`uleSnduRemain` is never negative: it starts as a length, and at most its own value is taken off. -/
structure DvbNetPriv where
  stats : NetDeviceStats
  multiMacs : List (List UInt8)
  rxMode : RxMode
  needPusi : Bool
  tscc : Nat
  uleSkb : Option SkBuff
  uleNextHdr : Nat
  uleSnduLen : Nat
  uleSnduType : Nat
  uleSnduType1 : Bool
  uleDbit : Bool
  uleBridged : Bool
  uleSnduRemain : Nat

/-- A packet given to `netif_rx`: the bytes at `mac.raw`, those from `data` on, and what
`dvb_net_eth_type_trans` found out about it. -/
structure NetPacket where
  mac : List UInt8
  data : List UInt8
  protocol : Nat
  pktType : PktType
  deriving DecidableEq, Repr

def isGroup (dest : List UInt8) : Bool := dest.getD 0 0 &&& 0x01 ≠ 0

def dvbNetEthTypeTrans (skb : SkBuff) (dev : NetDevice) : NetPacket :=
  let mac := skb.mem.slice skb.data ethHlen
  let pulled := skb.pull ethHlen
  let hProto := ntohs skb.mem (skb.data + 12)
  { mac := mac
    data := pulled.contents
    protocol :=
      if hProto ≥ 1536 then hProto
      else if ntohs pulled.mem pulled.data = 0xffff then 0x0001
      else 0x0004
    pktType :=
      if isGroup mac then
        if mac.take ethAlen = dev.broadcast then .broadcast else .multicast
      else .host }

def uleTestSndu (p : DvbNetPriv) (_ : SkBuff) : DvbNetPriv × Int := (p, -1)

def uleBridgedSndu (p : DvbNetPriv) (skb : SkBuff) : DvbNetPriv × Int :=
  let hProto := ntohs skb.mem (p.uleNextHdr + 12)
  let framelen : Int := p.uleSnduLen - ((p.uleNextHdr + ethHlen : Nat) - skb.data : Int)
  if hProto < 1536 ∧ framelen ≠ hProto then (p, -1)
  else ({ p with uleBridged := true }, 0)

/-- Entry of the table of mandatory extension header handlers. Type 255 lies one past the end of the
table and is read as an empty entry. -/
def uleMandatoryExtHandlers : Nat → Option (DvbNetPriv → SkBuff → DvbNetPriv × Int)
  | 0 => some uleTestSndu
  | 1 => some uleBridgedSndu
  | _ => none

def handleOneUleExtension (p : DvbNetPriv) (skb : SkBuff) : DvbNetPriv × Int :=
  let hlen := p.uleSnduType / 256 % 8
  let htype := p.uleSnduType % 256
  if hlen = 0 then
    match uleMandatoryExtHandlers htype with
    | none => (p, -1)
    | some handler =>
      let r := handler p skb
      if r.2 ≥ 0 then
        let next := r.1.uleNextHdr + r.2.toNat
        if !r.1.uleBridged then
          ({ r.1 with uleSnduType := ntohs skb.mem next, uleNextHdr := next + 2 }, r.2)
        else
          let off := (if p.uleDbit then 2 else 3) * ethAlen
          ({ r.1 with uleSnduType := ntohs skb.mem (next + off), uleNextHdr := next }, r.2)
      else r
  else
    let extLen := hlen * 2
    let next := p.uleNextHdr + extLen
    ({ p with uleSnduType := ntohs skb.mem (next - 2), uleNextHdr := next }, extLen)

/-- The `do … while` of `handle_ule_extensions`; there is no result when the fuel does not suffice. -/
def uleExtensionLoop (skb : SkBuff) : Nat → DvbNetPriv → Int → Option (DvbNetPriv × Int)
  | 0, _, _ => none
  | fuel + 1, p, totalExtLen =>
    let r := handleOneUleExtension p skb
    if r.2 < 0 then some r
    else if r.1.uleSnduType < 1536 then uleExtensionLoop skb fuel r.1 (totalExtLen + r.2)
    else some (r.1, totalExtLen + r.2)

def handleUleExtensions (fuel : Nat) (p : DvbNetPriv) (skb : SkBuff) : Option (DvbNetPriv × Int) :=
  uleExtensionLoop skb fuel { p with uleNextHdr := skb.data } 0

def resetUle (p : DvbNetPriv) : DvbNetPriv :=
  { p with
    uleSkb := none
    uleNextHdr := 0
    uleSnduLen := 0
    uleSnduType := 0
    uleSnduType1 := false
    uleSnduRemain := 0
    uleDbit := true
    uleBridged := false }

def dropSndu (p : DvbNetPriv) : DvbNetPriv :=
  let stats :=
    if p.uleSkb.isSome then
      { p.stats with rxErrors := p.stats.rxErrors + 1, rxFrameErrors := p.stats.rxFrameErrors + 1 }
    else p.stats
  { resetUle { p with stats := stats } with needPusi := true }

def lengthError (stats : NetDeviceStats) : NetDeviceStats :=
  { stats with rxErrors := stats.rxErrors + 1, rxLengthErrors := stats.rxLengthErrors + 1 }

scoped instance lawfulBEqAddress : LawfulBEq (List UInt8) := inferInstance

def dropsDest (p : DvbNetPriv) (dev : NetDevice) (dest : List UInt8) : Bool :=
  if p.rxMode ≠ .promisc then
    if isGroup dest then
      if dest ≠ List.replicate ethAlen 0xff then
        -- the loop over multi_macs stops at an entry that equals the address
        if p.rxMode = .multi then dest ∉ p.multiMacs else p.rxMode ≠ .allMulti
      else false
    else dest ≠ dev.devAddr
  else false

def uleCrcOk (p : DvbNetPriv) (skb : SkBuff) : Bool :=
  let ulen := p.uleSnduLen + if p.uleDbit then 0x8000 else 0
  let uleCrc := crc32Be (crc32Be (crc32Be 0xffffffff (htons ulen)) (htons p.uleSnduType))
    (skb.mem.slice skb.data (skb.len - 4))
  uleCrc.toNat = ntohl skb.mem (skb.tail - 4)

/-- Construct the Ethernet header, unless the frame is bridged, and hand the packet to `netif_rx`. -/
def uleDeliver (dev : NetDevice) (p : DvbNetPriv) (skb : SkBuff) (destAddr : List UInt8) :
    DvbNetPriv × List NetPacket :=
  let skb :=
    if !p.uleBridged then
      let hDest := if !p.uleDbit then destAddr else List.replicate ethAlen 0
      skb.push (hDest ++ List.replicate ethAlen 0 ++ htons p.uleSnduType)
    else skb
  let pkt := dvbNetEthTypeTrans skb dev
  let stats :=
    { p.stats with
      rxPackets := p.stats.rxPackets + 1
      rxBytes := p.stats.rxBytes + pkt.data.length }
  ({ p with uleBridged := false, stats := stats }, [pkt])

def uleExtensions (fuel : Nat) (dev : NetDevice) (p : DvbNetPriv) (skb : SkBuff)
    (destAddr : List UInt8) : Option (DvbNetPriv × List NetPacket) :=
  if p.uleSnduType < 1536 then
    match handleUleExtensions fuel p skb with
    | none => none
    | some r =>
      some (if r.2 < 0 then (r.1, []) else uleDeliver dev r.1 (skb.pull r.2.toNat) destAddr)
  else some (uleDeliver dev p skb destAddr)

/-- Check the CRC of a complete SNDU and the address it is for; without result, it is dropped. -/
def passedSkb (dev : NetDevice) (p : DvbNetPriv) (skb : SkBuff) : Option SkBuff :=
  let skb' := skb.cut 4
  if !uleCrcOk p skb then none
  else if p.uleDbit then some skb'
  else if dropsDest p dev (skb'.mem.slice skb'.data ethAlen) then none
  else some (skb'.pull ethAlen)

/-- Decode a complete SNDU. The first bytes of the packet are its destination address only without the
D bit, and are used only then. -/
def uleComplete (fuel : Nat) (dev : NetDevice) (p : DvbNetPriv) (skb : SkBuff) :
    Option (DvbNetPriv × List NetPacket) :=
  match passedSkb dev p skb with
  | none =>
    let stats := { p.stats with
      rxErrors := p.stats.rxErrors + 1, rxCrcErrors := p.stats.rxCrcErrors + 1 }
    some ({ p with stats := if uleCrcOk p skb then p.stats else stats }, [])
  | some skb' => uleExtensions fuel dev p skb' (skb.mem.slice skb.data ethAlen)

/-- What a pass does to the buffer and to its counters, in the cell at `ts`. -/
inductive UleOp where
  /-- The bytes from `off` on are read or copied. -/
  | read (ts off len : Nat)
  /-- The pass works on the cell with these values of `from_where` and `ts_remain`. -/
  | work (ts fromWhere tsRemain : Nat)
  /-- `n` is subtracted from `ts_remain`. -/
  | tsRemainSub (tsRemain n : Nat)
  /-- `n` is subtracted from `ule_sndu_remain`. -/
  | snduRemainSub (snduRemain n : Nat)
  deriving DecidableEq, Repr

/-- Local variables of `dvb_net_ule`, with pointers as offsets into the buffer. `allocs` counts the
calls of `dev_alloc_skb`, `rx` holds the packets given to `netif_rx`, and `ops` records what was
done; no pass depends on these two. -/
structure UleLoop where
  priv : DvbNetPriv
  ts : Nat
  fromWhere : Nat
  tsRemain : Nat
  newTs : Bool
  allocs : Nat
  rx : List NetPacket
  ops : List UleOp

namespace UleLoop

def reads (s : UleLoop) (off len : Nat) : UleLoop :=
  { s with ops := s.ops ++ [.read s.ts off len] }

def readsIf (s : UleLoop) (b : Bool) (off len : Nat) : UleLoop :=
  { s with ops := s.ops ++ if b then [.read s.ts off len] else [] }

/-- `from_where += n; ts_remain -= n;` -/
def consume (s : UleLoop) (n : Nat) : UleLoop :=
  { s with
    fromWhere := s.fromWhere + n
    tsRemain := subU8 s.tsRemain n
    ops := s.ops ++ [.tsRemainSub s.tsRemain n] }

/-- `ts += TS_SZ;` -/
def nextCell (s : UleLoop) : UleLoop := { s with ts := s.ts + tsSz }

end UleLoop

/-- A call of `dvb_net_ule`: the memory at `buf`, `buf_len`, and the memory that each successive
`dev_alloc_skb` provides, if it succeeds. -/
structure UleCall where
  buf : Mem UInt8
  bufLen : Nat
  alloc : Nat → Option (Mem UInt8)

namespace UleCall

/-- Sync byte, transport error indicator and scrambling control of the cell at `ts` are in order. -/
def validCell (c : UleCall) (ts : Nat) : Bool :=
  c.buf ts = 0x47 ∧ c.buf (ts + 1) &&& 0x80 = 0 ∧ c.buf (ts + 3) &&& 0xc0 = 0

def pusi (c : UleCall) (ts : Nat) : Bool := c.buf (ts + 1) &&& 0x40 ≠ 0

/-- The continuity counter of the cell at `ts`. -/
def cc (c : UleCall) (ts : Nat) : Nat := (c.buf (ts + 3) &&& 0x0f).toNat

def pointerField (c : UleCall) (ts : Nat) : Nat := (c.buf (ts + 4)).toNat

end UleCall

def uleNewCell (c : UleCall) (s : UleLoop) : Pass UleLoop :=
  if s.newTs then
    if c.validCell s.ts then .ok { s.reads s.ts 4 with tsRemain := 184, fromWhere := s.ts + 4 }
    else .error (.again { s.reads s.ts 4 with priv := dropSndu s.priv }.nextCell)
  else .ok s

def uleSynchronise (c : UleCall) (s : UleLoop) : Pass UleLoop :=
  if s.priv.needPusi then
    if c.pusi s.ts then
      let s' := { s.reads (s.ts + 1) 4 with priv := { s.priv with tscc := c.cc s.ts } }
      if c.pointerField s.ts > s.tsRemain then .error (.again s'.nextCell)
      else
        -- skip to destination of pointer field
        .ok { s'.consume (1 + c.pointerField s.ts) with
          fromWhere := s.ts + 5 + c.pointerField s.ts }
    else .error (.again (s.reads (s.ts + 1) 1).nextCell)
  else .ok s

def ulePointer (c : UleCall) (s : UleLoop) : Pass UleLoop :=
  if s.priv.needPusi then .ok { s with priv := { s.priv with needPusi := false } }
  else
    let pointer := (c.buf s.fromWhere).toNat
    if (pointer : Int) < s.tsRemain - 1 ∧ pointer = s.priv.uleSnduRemain then
      .ok ((s.reads s.fromWhere 1).consume 1)
    else .error (.again { s.reads s.fromWhere 1 with priv := dropSndu s.priv })

def uleFlush (c : UleCall) (s : UleLoop) : UleLoop :=
  if s.priv.uleSnduRemain > 183 then
    let priv := resetUle { s.priv with stats := lengthError s.priv.stats }
    { s.reads (s.ts + 4) 1 with priv := priv }.consume (c.pointerField s.ts)
  else s

def uleContinuity (c : UleCall) (s : UleLoop) : Pass UleLoop :=
  if s.newTs then
    if c.cc s.ts = s.priv.tscc then
      let s' := { s.reads (s.ts + 1) 3 with
        priv := { s.priv with tscc := (s.priv.tscc + 1) % 16 } }
      if c.pusi s.ts then (ulePointer c s').andThen fun s => .ok (uleFlush c s)
      else .ok s'
    else .error (.again { s.reads (s.ts + 1) 3 with priv := dropSndu s.priv })
  else .ok s

def uleLength (c : UleCall) (s : UleLoop) : Pass UleLoop :=
  if s.tsRemain < 2 then
    .error (.again { s with priv := { s.priv with uleSnduLen := 0, needPusi := true } })
  else if s.priv.uleSnduLen = 0 then
    let field := ntohs c.buf s.fromWhere
    -- the top bit is the D bit: no destination address is present
    let dbit := decide (field ≥ 0x8000)
    let len := field % 0x8000
    if len < 5 then
      let priv := { s.priv with
        stats := lengthError s.priv.stats, uleSnduLen := 0, uleDbit := dbit, needPusi := true }
      .error (.again { s.reads s.fromWhere 2 with priv := priv, newTs := true }.nextCell)
    else
      let priv := { s.priv with uleSnduLen := len, uleDbit := dbit }
      .ok ({ s.reads s.fromWhere 2 with priv := priv }.consume 2)
  else .ok s

def uleType (c : UleCall) (s : UleLoop) : Pass UleLoop :=
  if s.tsRemain = 0 then .error (.again { s with newTs := true }.nextCell)
  else if s.tsRemain = 1 then
    let type := (c.buf s.fromWhere).toNat * 256
    let priv := { s.priv with uleSnduType := type, uleSnduType1 := true }
    .error (.again { (s.reads s.fromWhere 1).consume 1 with priv := priv, newTs := true }.nextCell)
  else if s.priv.uleSnduType1 then
    let type := s.priv.uleSnduType ||| (c.buf s.fromWhere).toNat
    let priv := { s.priv with uleSnduType := type }
    .ok ({ s.reads s.fromWhere 1 with priv := priv }.consume 1)
  else
    let priv := { s.priv with uleSnduType := ntohs c.buf s.fromWhere }
    .ok ({ s.reads s.fromWhere 2 with priv := priv }.consume 2)

def uleAlloc (c : UleCall) (s : UleLoop) : Pass UleLoop :=
  match c.alloc s.allocs with
  | none =>
    let stats := { s.priv.stats with rxDropped := s.priv.stats.rxDropped + 1 }
    .error (.leave { s with priv := { s.priv with stats := stats }, allocs := s.allocs + 1 })
  | some mem =>
    let skb : SkBuff := { mem := mem, data := 0, len := 0 }
    .ok { s with
      priv := { s.priv with
        uleSkb := some (skb.reserve (ethHlen + ethAlen)), uleSnduRemain := s.priv.uleSnduLen }
      allocs := s.allocs + 1 }

def uleHeader (c : UleCall) (s : UleLoop) : Pass UleLoop :=
  if s.priv.uleSkb.isNone then (uleLength c s).andThen (uleType c) |>.andThen (uleAlloc c)
  else .ok s

def uleCopy (c : UleCall) (s : UleLoop) : UleLoop :=
  let howMuch := min s.priv.uleSnduRemain s.tsRemain
  let priv := { s.priv with
    uleSkb := s.priv.uleSkb.map fun skb => skb.put (c.buf.slice s.fromWhere howMuch)
    uleSnduRemain := s.priv.uleSnduRemain - howMuch }
  let ops := s.ops ++
    [.read s.ts s.fromWhere howMuch, .snduRemainSub s.priv.uleSnduRemain howMuch]
  { s with priv := priv, ops := ops }.consume howMuch

def uleFinish (fuel : Nat) (dev : NetDevice) (s : UleLoop) : Pass UleLoop :=
  match s.priv.uleSkb with
  | none => .ok s
  | some skb =>
    if s.priv.uleSnduRemain = 0 then
      let s' := s.readsIf (!uleCrcOk s.priv skb && s.tsRemain > 2) s.fromWhere 2
      match uleComplete fuel dev s.priv skb with
      | none => .error (.hang s')
      | some r => .ok { s' with priv := resetUle r.1, rx := s.rx ++ r.2 }
    else .ok s

def uleNext (c : UleCall) (s : UleLoop) : UleLoop :=
  let s' := s.readsIf (s.tsRemain ≥ 2) s.fromWhere 2
  if s.tsRemain ≥ 2 ∧ ntohs c.buf s.fromWhere ≠ 0xffff then
    -- next ULE SNDU starts right there
    { s' with
      newTs := false
      priv := { s.priv with uleSkb := none, uleSnduType1 := false, uleSnduLen := 0 } }
  else
    let priv :=
      if s.priv.uleSkb.isNone then
        { s.priv with needPusi := true, uleSnduType1 := false, uleSnduLen := 0 }
      else s.priv
    { s' with newTs := true, priv := priv }.nextCell

def ulePayload (c : UleCall) (s : UleLoop) : Pass UleLoop :=
  (uleHeader c { s with ops := s.ops ++ [.work s.ts s.fromWhere s.tsRemain] }).andThen fun s =>
    .ok (uleCopy c s)

def uleReceive (c : UleCall) (s : UleLoop) : Pass UleLoop :=
  (uleNewCell c s).andThen (uleSynchronise c) |>.andThen (uleContinuity c)
    |>.andThen (ulePayload c)

def ulePass (dev : NetDevice) (c : UleCall) (fuel : Nat) (s : UleLoop) : Flow UleLoop :=
  Pass.flow ((uleReceive c s).andThen (uleFinish fuel dev) |>.andThen fun s => .ok (uleNext c s))

/-- The loop condition `ts < ts_end`. -/
def UleCall.inBuffer (c : UleCall) (s : UleLoop) : Prop := s.ts < c.bufLen

instance (c : UleCall) : DecidablePred c.inBuffer := fun s => Nat.decLt s.ts c.bufLen

def UleLoop.start (p : DvbNetPriv) : UleLoop :=
  { priv := p, ts := 0, fromWhere := 0, tsRemain := 0, newTs := true, allocs := 0, rx := [], ops := [] }

/-- The private data of an interface that `dvb_net_add_if` has just set up. -/
def dvbNetAddIf : DvbNetPriv :=
  { stats :=
      { rxPackets := 0
        rxBytes := 0
        rxErrors := 0
        rxDropped := 0
        rxLengthErrors := 0
        rxCrcErrors := 0
        rxFrameErrors := 0 }
    multiMacs := []
    rxMode := .uni
    needPusi := true
    tscc := 0
    uleSkb := none
    uleNextHdr := 0
    uleSnduLen := 0
    uleSnduType := 0
    uleSnduType1 := false
    uleDbit := true
    uleBridged := false
    uleSnduRemain := 0 }

/-- `dvb_net_ule`: the updated private data and the packets given to `netif_rx`. -/
def dvbNetUle (fuel : Nat) (dev : NetDevice) (p : DvbNetPriv) (c : UleCall) :
    Option (DvbNetPriv × List NetPacket) :=
  (runLoop c.inBuffer (ulePass dev c) fuel (.start p)).map fun s => (s.priv, s.rx)

end LinuxDvb.Net
