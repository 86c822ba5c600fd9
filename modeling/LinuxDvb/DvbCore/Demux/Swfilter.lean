import LinuxDvb.Framework.Memory
import LinuxDvb.Framework.Crc32

/-!
# Software packet filter of the kernel demux

The data model of `dvb_demux.h` as far as the software filter reads it, and the filter functions of `dvb_demux.c` from
`payload` up to `dvb_dmx_swfilter_packet`.
-/

namespace LinuxDvb.Demux

def dmxMaxSectionSize : Nat := 4096
def dmxMaxSecfeedSize : Nat := dmxMaxSectionSize + 188
def dvbDemuxMaskMax : Nat := 18

structure TsPacket where
  bytes : List UInt8
  length_bytes : bytes.length = 188

/-- The packet as the buffer a `const u8 *` points to. -/
def TsPacket.mem (tsp : TsPacket) : Mem UInt8 := fun i => tsp.bytes.getD i 0

inductive DmxType where
  | ts | sec | pes
  deriving DecidableEq, Repr

inductive DmxState where
  | free | allocated | set | ready | go
  deriving DecidableEq, Repr

/-- `ts_type` of a feed: the bits `TS_PACKET`, `TS_PAYLOAD_ONLY` and `TS_DECODER`. -/
structure TsType where
  packet : Bool
  payloadOnly : Bool
  decoder : Bool
  deriving DecidableEq, Repr

structure DvbDemuxFilter where
  filterValue : Mem UInt8
  filterMask : Mem UInt8
  filterMode : Mem UInt8
  maskandmode : Mem UInt8
  maskandnotmode : Mem UInt8
  doneq : Bool
  index : Nat

/-- `struct dmx_section_feed`; the pointer `secbuf` is its offset from `secbuf_base`. -/
structure DmxSectionFeed where
  isFiltering : Bool
  checkCrc : Bool
  crcVal : UInt32
  secbuf : Nat
  secbufBase : Mem UInt8
  secbufp : Nat
  seclen : Nat
  tsfeedp : Nat

structure DmxTsFeed where
  isFiltering : Bool

/-- `struct dvb_demux_feed`. `cbSec` is the return value of the client's section callback for a
filter index and the section bytes it is given. -/
structure DvbDemuxFeed where
  ts : DmxTsFeed
  sec : DmxSectionFeed
  cbSec : Nat → List UInt8 → Int
  type : DmxType
  state : DmxState
  pid : Nat
  filter : List DvbDemuxFilter
  tsType : TsType
  cc : Int
  pusiSeen : Bool
  peslen : Nat
  index : Nat

inductive DemuxEvent where
  /-- `dvb_dmx_swfilter_section_feed` was called with these `seclen` bytes at `secbuf`. -/
  | sectionFeed (bytes : List UInt8)
  /-- The section callback was called for a filter. -/
  | cbSec (filter : Nat) (bytes : List UInt8)
  /-- The TS callback of a feed was called. -/
  | cbTs (feed : Nat) (bytes : List UInt8)
  /-- A packet was written to the built-in decoder. -/
  | writeToDecoder (feed : Nat) (bytes : List UInt8)
  deriving DecidableEq

def sectionLength (buf : Mem UInt8) : Nat :=
  3 + ((buf 1 &&& 0x0f).toNat <<< 8) + (buf 2).toNat

def tsPid (buf : Mem UInt8) : Nat := ((buf 1 &&& 0x1f).toNat <<< 8) + (buf 2).toNat

def payload (tsp : Mem UInt8) : Nat :=
  if tsp 3 &&& 0x10 = 0 then 0
  else if tsp 3 &&& 0x20 ≠ 0 then
    if (tsp 4).toNat > 183 then 0 else 184 - 1 - (tsp 4).toNat
  else 184

def dvbDmxCrc32 (f : DvbDemuxFeed) (src : List UInt8) : UInt32 × DvbDemuxFeed :=
  let crc := crc32Be f.sec.crcVal src
  (crc, { f with sec := { f.sec with crcVal := crc } })

def dvbDmxSwfilterPayload (feed : DvbDemuxFeed) (buf : Mem UInt8) :
    DvbDemuxFeed × List DemuxEvent :=
  let count := payload buf
  if count = 0 then (feed, [])
  else
    let peslen := if buf 1 &&& 0x40 ≠ 0 then 0xfffa else feed.peslen
    ({ feed with peslen := (peslen + count) % 2 ^ 16 }, [.cbTs feed.index (buf.slice (188 - count) count)])

/-- Whether a section filter matches the bytes at `secbuf`. -/
def DvbDemuxFilter.accepts (f : DvbDemuxFilter) (secbuf : Mem UInt8) : Bool :=
  let xor := fun i => f.filterValue i ^^^ secbuf i
  let clash := (List.range dvbDemuxMaskMax).any fun i => f.maskandmode i &&& xor i ≠ 0
  let neq := (List.range dvbDemuxMaskMax).any fun i => f.maskandnotmode i &&& xor i ≠ 0
  !clash && !(f.doneq && !neq)

def dvbDmxSwfilterSectionfilter (feed : DvbDemuxFeed) (f : DvbDemuxFilter) :
    Int × List DemuxEvent :=
  if f.accepts (feed.sec.secbufBase.shift feed.sec.secbuf) then
    let bytes := feed.sec.secbufBase.slice feed.sec.secbuf feed.sec.seclen
    (feed.cbSec f.index bytes, [.cbSec f.index bytes])
  else (0, [])

/-- The `do … while` over the filters of a feed; `false` is the early `return -1`. -/
def sectionfilterLoop (feed : DvbDemuxFeed) : List DvbDemuxFilter → Bool × List DemuxEvent
  | [] => (true, [])
  | f :: fs =>
    let r := dvbDmxSwfilterSectionfilter feed f
    if r.1 < 0 then (false, r.2)
    else
      let rest := sectionfilterLoop feed fs
      (rest.1, r.2 ++ rest.2)

/-- The `check_crc` test of `dvb_dmx_swfilter_section_feed`: whether the section has to be dropped,
and the feed with the CRC register the test leaves behind. -/
def sectionCheckCrc (feed : DvbDemuxFeed) (bytes : List UInt8) : Bool × DvbDemuxFeed :=
  let sectionSyntaxIndicator := feed.sec.secbufBase (feed.sec.secbuf + 1) &&& 0x80 ≠ 0
  if feed.sec.checkCrc ∧ sectionSyntaxIndicator then
    let r := dvbDmxCrc32 feed bytes
    (r.1 ≠ 0, r.2)
  else (false, feed)

def dvbDmxSwfilterSectionFeed (feed : DvbDemuxFeed) : DvbDemuxFeed × List DemuxEvent :=
  let bytes := feed.sec.secbufBase.slice feed.sec.secbuf feed.sec.seclen
  let call := DemuxEvent.sectionFeed bytes
  if !feed.sec.isFiltering then (feed, [call])
  else if feed.filter.isEmpty then (feed, [call])
  else
    let crc := sectionCheckCrc feed bytes
    if crc.1 then (crc.2, [call])
    else
      let r := sectionfilterLoop crc.2 crc.2.filter
      (if r.1 then { crc.2 with sec := { crc.2.sec with seclen := 0 } } else crc.2, call :: r.2)

def dvbDmxSwfilterSectionNew (feed : DvbDemuxFeed) : DvbDemuxFeed :=
  { feed with sec := { feed.sec with tsfeedp := 0, secbufp := 0, seclen := 0, secbuf := 0 } }

/-- `seclen` and `crc_val` are set for the section at `secbuf`. -/
def DvbDemuxFeed.openSection (feed : DvbDemuxFeed) (seclen : Nat) : DvbDemuxFeed :=
  { feed with sec := { feed.sec with seclen := seclen, crcVal := 0xffffffff } }

/-- `secbufp` and `secbuf` move together behind the section. -/
def DvbDemuxFeed.skipSection (feed : DvbDemuxFeed) (seclen : Nat) : DvbDemuxFeed :=
  { feed with sec := { feed.sec with
      secbufp := feed.sec.secbufp + seclen, secbuf := feed.sec.secbuf + seclen } }

/-- Body of the dump loop for a section of `seclen` bytes at `secbuf`. -/
def dumpSection (feed : DvbDemuxFeed) (seclen : Nat) : DvbDemuxFeed × List DemuxEvent :=
  let feed := feed.openSection seclen
  let r := if feed.pusiSeen then dvbDmxSwfilterSectionFeed feed else (feed, [])
  (r.1.skipSection seclen, r.2)

/-- The dump loop of `dvb_dmx_swfilter_section_copy_dump`. Every round advances `secbufp` by at
least three, so `limit` rounds are enough. -/
def dumpSections (limit : Nat) : Nat → DvbDemuxFeed → DvbDemuxFeed × List DemuxEvent
  | 0, feed => (feed, [])
  | fuel + 1, feed =>
    if feed.sec.secbufp + 2 < limit then
      let seclen := sectionLength (feed.sec.secbufBase.shift feed.sec.secbuf)
      if seclen ≤ 0 ∨ seclen > dmxMaxSectionSize ∨ seclen + feed.sec.secbufp > limit then (feed, [])
      else
        let r := dumpSection feed seclen
        let rest := dumpSections limit fuel r.1
        (rest.1, r.2 ++ rest.2)
    else (feed, [])

/-- `memcopy` of bytes to the end of the data in `secbuf_base`. -/
def DvbDemuxFeed.store (feed : DvbDemuxFeed) (bytes : List UInt8) : DvbDemuxFeed :=
  { feed with sec := { feed.sec with
      secbufBase := feed.sec.secbufBase.write feed.sec.tsfeedp bytes
      tsfeedp := feed.sec.tsfeedp + bytes.length } }

/-- The feed with its dump cursor `secbufp`, `secbuf` at offset `p` of the buffer. -/
def DvbDemuxFeed.cursorAt (feed : DvbDemuxFeed) (p : Nat) : DvbDemuxFeed :=
  { feed with sec := { feed.sec with secbufp := p, secbuf := p } }

def dvbDmxSwfilterSectionCopyDump (feed : DvbDemuxFeed) (buf : Mem UInt8) (len : Nat) :
    DvbDemuxFeed × List DemuxEvent :=
  if feed.sec.tsfeedp ≥ dmxMaxSecfeedSize then (feed, [])
  else
    let len := if feed.sec.tsfeedp + len > dmxMaxSecfeedSize
      then dmxMaxSecfeedSize - feed.sec.tsfeedp else len
    if len ≤ 0 then (feed, [])
    else
      let feed := feed.store (buf.slice 0 len)
      let limit := feed.sec.tsfeedp
      if limit > dmxMaxSecfeedSize then (feed, [])
      else
        -- to be sure always set secbuf
        dumpSections limit limit (feed.cursorAt feed.sec.secbufp)

/-- `ccok` of `dvb_dmx_swfilter_section_packet`. -/
def ccok (feed : DvbDemuxFeed) (buf : Mem UInt8) : Bool :=
  (feed.cc + 1) % 16 = ((buf 3 &&& 0x0f).toNat : Int)

/-- `dc_i`: an adaptation field is present and its discontinuity_indicator is set. -/
def discontinuityIndicator (buf : Mem UInt8) : Bool :=
  buf 3 &&& 0x20 ≠ 0 ∧ (buf 4).toNat > 0 ∧ buf 5 &&& 0x80 ≠ 0

def payloadUnitStart (buf : Mem UInt8) : Bool := buf 1 &&& 0x40 ≠ 0

def sectionPacketSync (feed : DvbDemuxFeed) (buf : Mem UInt8) : DvbDemuxFeed :=
  let feed' := { feed with cc := ((buf 3 &&& 0x0f).toNat : Int) }
  if !ccok feed buf ∨ discontinuityIndicator buf then
    dvbDmxSwfilterSectionNew { feed' with pusiSeen := false }
  else feed'

/-- Before start of new section, `pusi_seen` is set and the buffer emptied. -/
def DvbDemuxFeed.startSection (feed : DvbDemuxFeed) : DvbDemuxFeed :=
  dvbDmxSwfilterSectionNew { feed with pusiSeen := true }

def sectionBoundary (feed : DvbDemuxFeed) (before : Mem UInt8) (beforeLen : Nat)
    (after : Mem UInt8) (afterLen : Nat) : DvbDemuxFeed × List DemuxEvent :=
  let r := dvbDmxSwfilterSectionCopyDump feed before beforeLen
  let r' := dvbDmxSwfilterSectionCopyDump r.1.startSection after afterLen
  (r'.1, r.2 ++ r'.2)

def dvbDmxSwfilterSectionPacket (feed : DvbDemuxFeed) (buf : Mem UInt8) :
    DvbDemuxFeed × List DemuxEvent × Int :=
  let count := payload buf
  if count = 0 then (feed, [], -1)
  else
    let p := 188 - count
    let feed := sectionPacketSync feed buf
    if payloadUnitStart buf then
      if count > 1 ∧ (buf p).toNat < count then
        let before := buf.shift (p + 1)
        let beforeLen := (buf p).toNat
        let after := before.shift beforeLen
        let afterLen := count - 1 - beforeLen
        let r := sectionBoundary feed before beforeLen after afterLen
        (r.1, r.2, 0)
      else (feed, [], 0)
    else
      let r := dvbDmxSwfilterSectionCopyDump feed (buf.shift p) count
      (r.1, r.2, 0)

def dvbDmxSwfilterPacketType (writeToDecoder : Bool) (feed : DvbDemuxFeed) (tsp : TsPacket) :
    DvbDemuxFeed × List DemuxEvent :=
  match feed.type with
  | .ts =>
    if !feed.ts.isFiltering then (feed, [])
    else
      let r := if feed.tsType.packet then
          if feed.tsType.payloadOnly then dvbDmxSwfilterPayload feed tsp.mem
          else (feed, [.cbTs feed.index tsp.bytes])
        else (feed, [])
      let decoder := if feed.tsType.decoder && writeToDecoder
        then [DemuxEvent.writeToDecoder feed.index tsp.bytes] else []
      (r.1, r.2 ++ decoder)
  | .sec =>
    if !feed.sec.isFiltering then (feed, [])
    else
      let r := dvbDmxSwfilterSectionPacket feed tsp.mem
      if r.2.2 < 0 then
        ({ r.1 with sec := { r.1.sec with seclen := 0, secbufp := 0 } }, r.2.1)
      else (r.1, r.2.1)
  | .pes => (feed, [])

def dvrFeed (f : DvbDemuxFeed) : Bool :=
  f.type = .ts ∧ f.ts.isFiltering ∧ f.tsType.packet ∧ !f.tsType.payloadOnly

/-- `dvb_dmx_swfilter_packet` over the remaining feed list, with its counter `dvr_done`. -/
def dvbDmxSwfilterPacket (writeToDecoder : Bool) (tsp : TsPacket) :
    Bool → List DvbDemuxFeed → List DvbDemuxFeed × List DemuxEvent
  | _, [] => ([], [])
  | dvrDone, feed :: feeds =>
    let pid := tsPid tsp.mem
    let skip := (feed.pid ≠ pid ∧ feed.pid ≠ 0x2000) ∨ (dvrFeed feed ∧ dvrDone)
    let dvrDone' := dvrDone || ((feed.pid = pid ∨ feed.pid = 0x2000) && dvrFeed feed)
    let r := if skip then (feed, [])
      else if feed.pid = pid then dvbDmxSwfilterPacketType writeToDecoder feed tsp
      else (feed, [.cbTs feed.index tsp.bytes])
    let rest := dvbDmxSwfilterPacket writeToDecoder tsp dvrDone' feeds
    (r.1 :: rest.1, r.2 ++ rest.2)

end LinuxDvb.Demux
