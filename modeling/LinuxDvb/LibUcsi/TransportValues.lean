import LinuxDvb.LibUcsi.TransportPacket

/-!
# The values of the adaptation field

`transport_packet_values_extract` walks through the optional fields of an adaptation field. A pointer into the packet
is a position in its bytes.
-/

namespace LinuxDvb.Ucsi

inductive TransportValue
  | pcr
  | opcr
  | spliceCountdown
  | privateData
  | ltw
  | piecewiseRate
  | seamlessSplice
  deriving DecidableEq

def TransportValue.mask : TransportValue → Nat
  | pcr => 0x0001
  | opcr => 0x0002
  | spliceCountdown => 0x0004
  | privateData => 0x0008
  | ltw => 0x0100
  | piecewiseRate => 0x0200
  | seamlessSplice => 0x0400

def hasValue (mask : Nat) (v : TransportValue) : Bool := mask &&& v.mask ≠ 0

-- `enum transport_adaptation_flags`
def transportAdaptationFlagPcr : UInt8 := 0x10
def transportAdaptationFlagOpcr : UInt8 := 0x08
def transportAdaptationFlagSplicingPoint : UInt8 := 0x04
def transportAdaptationFlagPrivateData : UInt8 := 0x02
def transportAdaptationFlagExtension : UInt8 := 0x01

-- `enum transport_adaptation_extension_flags`
def transportAdaptationExtensionFlagLtw : UInt8 := 0x80
def transportAdaptationExtensionFlagPiecewiseRate : UInt8 := 0x40
def transportAdaptationExtensionFlagSeamlessSplice : UInt8 := 0x20

structure TransportValues where
  flags : UInt8
  payload : Option Nat
  payloadLength : Nat
  pcr : Nat
  opcr : Nat
  spliceCountdown : UInt8
  privateDataLength : UInt8
  privateData : Option Nat
  ltwOffset : Nat
  piecewiseRate : Nat
  spliceType : UInt8
  dtsNextAu : Nat
  deriving DecidableEq

/-- Why no values are returned: an access outside the packet, or `-1`. -/
inductive Halt
  | outside
  | malformed
  deriving DecidableEq

/-- The state of the walk: `pos`, `*out` and `extracted`. -/
structure Walk where
  pos : Nat
  out : TransportValues
  extracted : Nat

section Walk

variable (pkt : TransportPacket)

def TransportPacket.read (pos : Nat) : Except Halt UInt8 :=
  match pkt.bytes[pos]? with
  | some b => .ok b
  | none => .error .outside

/-- The 33 bits of a clock and the 9 bits of its extension; `uint64_t` has room for them. -/
def clockAt (pos : Nat) : Except Halt Nat := do
  let b0 ← pkt.read pos
  let b1 ← pkt.read (pos + 1)
  let b2 ← pkt.read (pos + 2)
  let b3 ← pkt.read (pos + 3)
  let b4 ← pkt.read (pos + 4)
  let b5 ← pkt.read (pos + 5)
  let base := (b0.toNat <<< 25) ||| (b1.toNat <<< 17) ||| (b2.toNat <<< 9) ||| (b3.toNat <<< 1) ||| (b4.toNat >>> 7)
  let ext := ((b4 &&& 1).toNat <<< 8) ||| b5.toNat
  return base * 300 + ext

/-- The DTS as it is assembled in an `int`, and widened to `uint64_t`. -/
def dtsValue (b0 b1 b2 b3 b4 : UInt8) : Nat :=
  let dts : BitVec 32 :=
    ((b0 &&& 0x0e).toBitVec.setWidth 32 <<< 29) ||| (b1.toBitVec.setWidth 32 <<< 22) |||
      ((b2 &&& 0xfe).toBitVec.setWidth 32 <<< 14) ||| (b3.toBitVec.setWidth 32 <<< 7) |||
      ((b4 &&& 0xfe).toBitVec.setWidth 32 >>> 1)
  (dts.signExtend 64).toNat

/-- An optional field of known size: it has to fit if it is announced, and is stored if it is wanted. -/
def optionalField (announced wanted : Bool) (size mask adapend : Nat)
    (store : TransportValues → Except Halt TransportValues) (walk : Walk) : Except Halt Walk :=
  if !announced then pure walk
  else if adapend < walk.pos + size then throw .malformed
  else if wanted then do
    let out ← store walk.out
    return ⟨walk.pos + size, out, walk.extracted ||| mask⟩
  else return { walk with pos := walk.pos + size }

variable (extract : Nat) (adapflags adapextflags : UInt8) (adapend : Nat) (walk : Walk)

def pcrField : Except Halt Walk :=
  optionalField (adapflags &&& transportAdaptationFlagPcr ≠ 0) (hasValue extract .pcr) 6 TransportValue.pcr.mask adapend
    (fun out => do return { out with pcr := ← clockAt pkt walk.pos }) walk

def opcrField : Except Halt Walk :=
  optionalField (adapflags &&& transportAdaptationFlagOpcr ≠ 0) (hasValue extract .opcr) 6 TransportValue.opcr.mask
    adapend (fun out => do return { out with opcr := ← clockAt pkt walk.pos }) walk

def spliceCountdownField : Except Halt Walk :=
  optionalField (adapflags &&& transportAdaptationFlagSplicingPoint ≠ 0) (hasValue extract .spliceCountdown) 1
    TransportValue.spliceCountdown.mask adapend
    (fun out => do return { out with spliceCountdown := ← pkt.read walk.pos }) walk

def privateDataField : Except Halt Walk :=
  if adapflags &&& transportAdaptationFlagPrivateData = 0 then pure walk
  else if adapend < walk.pos + 1 then throw .malformed
  else do
    let length ← pkt.read walk.pos
    if adapend < walk.pos + 1 + length.toNat then throw .malformed
    else if hasValue extract .privateData then
      return ⟨walk.pos + (1 + length.toNat),
        { walk.out with privateDataLength := length, privateData := some (walk.pos + 1) },
        walk.extracted ||| TransportValue.privateData.mask⟩
    else return { walk with pos := walk.pos + (1 + length.toNat) }

def ltwField : Except Halt Walk :=
  if adapextflags &&& transportAdaptationExtensionFlagLtw = 0 then pure walk
  else if adapend < walk.pos + 2 then throw .malformed
  else if hasValue extract .ltw then do
    let b0 ← pkt.read walk.pos
    if b0 &&& 0x80 ≠ 0 then
      let b1 ← pkt.read (walk.pos + 1)
      return ⟨walk.pos + 2, { walk.out with ltwOffset := ((b0 &&& 0x7f).toNat <<< 8) ||| b1.toNat },
        walk.extracted ||| TransportValue.ltw.mask⟩
    else return { walk with pos := walk.pos + 2 }
  else return { walk with pos := walk.pos + 2 }

def piecewiseRateField : Except Halt Walk :=
  optionalField (adapextflags &&& transportAdaptationExtensionFlagPiecewiseRate ≠ 0) (hasValue extract .piecewiseRate) 3
    TransportValue.piecewiseRate.mask adapend
    (fun out => do
      let b0 ← pkt.read walk.pos
      let b1 ← pkt.read (walk.pos + 1)
      let b2 ← pkt.read (walk.pos + 2)
      return { out with piecewiseRate := ((b0 &&& 0x3f).toNat <<< 16) ||| (b1.toNat <<< 8) ||| b2.toNat }) walk

def seamlessSpliceField : Except Halt Walk :=
  optionalField (adapextflags &&& transportAdaptationExtensionFlagSeamlessSplice ≠ 0) (hasValue extract .piecewiseRate) 5
    TransportValue.seamlessSplice.mask adapend
    (fun out => do
      let b0 ← pkt.read walk.pos
      let b1 ← pkt.read (walk.pos + 1)
      let b2 ← pkt.read (walk.pos + 2)
      let b3 ← pkt.read (walk.pos + 3)
      let b4 ← pkt.read (walk.pos + 4)
      return { out with spliceType := b0 >>> 4, dtsNextAu := dtsValue b0 b1 b2 b3 b4 }) walk

/-- The label `extract_payload`: the payload and the flags, and what was extracted. -/
def extractPayload (adaplength : Nat) (out : TransportValues) (extracted : Nat) : Nat × TransportValues :=
  let off := 4 + (if pkt.hasAdaptation then 1 else 0) + adaplength
  (extracted,
    if pkt.hasPayload then
      { out with flags := adapflags, payload := some off, payloadLength := transportPacketLength - off }
    else { out with flags := adapflags, payload := none, payloadLength := 0 })

def extensionFields (adapextlength : Nat) : Except Halt Walk := do
  if extract &&& 0xff00 = 0 ∨ adapextlength = 0 then return walk
  let adapextflags ← pkt.read walk.pos
  let walk ← ltwField pkt extract adapextflags adapend { walk with pos := walk.pos + 1 }
  let walk ← piecewiseRateField pkt extract adapextflags adapend walk
  seamlessSpliceField pkt extract adapextflags adapend walk

def adaptationFields : Except Halt Walk := do
  let walk ← pcrField pkt extract adapflags adapend walk
  let walk ← opcrField pkt extract adapflags adapend walk
  let walk ← spliceCountdownField pkt extract adapflags adapend walk
  let walk ← privateDataField pkt extract adapflags adapend walk
  if adapflags &&& transportAdaptationFlagExtension = 0 then return walk
  if adapend ≤ walk.pos then throw .malformed
  let adapextlength ← pkt.read walk.pos
  if adapend < walk.pos + 1 + adapextlength.toNat then throw .malformed
  extensionFields pkt extract adapend { walk with pos := walk.pos + 1 } adapextlength.toNat

end Walk

/-- `transport_packet_values_extract(pkt, out, extract)`: what was extracted, and `*out`. -/
def transportPacketValuesExtract (pkt : TransportPacket) (out : TransportValues) (extract : Nat) :
    Except Halt (Nat × TransportValues) := do
  if !pkt.hasAdaptation then return extractPayload pkt 0 0 out 0
  let adaplength ← pkt.read 4
  if adaplength = 0 then return extractPayload pkt 0 0 out 0
  let adapend := 5 + adaplength.toNat
  if transportPacketLength < adapend then throw .malformed
  let adapflags ← pkt.read 5
  if extract &&& 0xffff = 0 then return extractPayload pkt adapflags adaplength.toNat out 0
  let walk ← adaptationFields pkt extract adapflags adapend ⟨6, out, 0⟩
  return extractPayload pkt adapflags adaplength.toNat walk.out walk.extracted

/-! ## The layout of an adaptation field

The fields of an adaptation field stand one behind another, those that are announced; the extension has a length of
its own and fields of its own. What is extracted is compared with this layout. -/

namespace TransportPacket

variable (pkt : TransportPacket)

def byte (pos : Nat) : UInt8 := pkt.bytes.getD pos 0

def word (pos : Nat) : Nat → Nat
  | 0 => 0
  | n + 1 => word pos n * 256 + (pkt.byte (pos + n)).toNat

def adapLength : Nat := (pkt.byte 4).toNat

def adapEnd : Nat := 5 + pkt.adapLength

def Adapted : Prop := pkt.hasAdaptation = true ∧ pkt.adapLength ≠ 0 ∧ pkt.adapEnd ≤ transportPacketLength

def announces (flag : UInt8) : Bool := pkt.byte 5 &&& flag ≠ 0

def opcrAt : Nat := 6 + if pkt.announces transportAdaptationFlagPcr then 6 else 0

def spliceCountdownAt : Nat := pkt.opcrAt + if pkt.announces transportAdaptationFlagOpcr then 6 else 0

def privateDataAt : Nat := pkt.spliceCountdownAt + if pkt.announces transportAdaptationFlagSplicingPoint then 1 else 0

def privateDataEnd : Nat := pkt.privateDataAt + (1 + (pkt.byte pkt.privateDataAt).toNat)

def extensionAt : Nat :=
  if pkt.announces transportAdaptationFlagPrivateData then pkt.privateDataEnd else pkt.privateDataAt

def extensionLength : Nat := (pkt.byte pkt.extensionAt).toNat

def extensionEnd : Nat := pkt.extensionAt + 1 + pkt.extensionLength

def extensionAnnounces (flag : UInt8) : Bool := pkt.byte (pkt.extensionAt + 1) &&& flag ≠ 0

def ltwAt : Nat := pkt.extensionAt + 2

def piecewiseRateAt : Nat := pkt.ltwAt + if pkt.extensionAnnounces transportAdaptationExtensionFlagLtw then 2 else 0

def seamlessSpliceAt : Nat :=
  pkt.piecewiseRateAt + if pkt.extensionAnnounces transportAdaptationExtensionFlagPiecewiseRate then 3 else 0

def extensionFieldsEnd : Nat :=
  pkt.seamlessSpliceAt + if pkt.extensionAnnounces transportAdaptationExtensionFlagSeamlessSplice then 5 else 0

def Extended : Prop :=
  pkt.Adapted ∧ pkt.announces transportAdaptationFlagExtension = true ∧ pkt.extensionLength ≠ 0 ∧
    pkt.extensionEnd ≤ pkt.adapEnd

/-- The value is announced, and its field fits. The legal time window has to be valid too. -/
def Present : TransportValue → Prop
  | .pcr => pkt.Adapted ∧ pkt.announces transportAdaptationFlagPcr = true ∧ 6 + 6 ≤ pkt.adapEnd
  | .opcr => pkt.Adapted ∧ pkt.announces transportAdaptationFlagOpcr = true ∧ pkt.opcrAt + 6 ≤ pkt.adapEnd
  | .spliceCountdown => pkt.Adapted ∧ pkt.announces transportAdaptationFlagSplicingPoint = true ∧
      pkt.spliceCountdownAt + 1 ≤ pkt.adapEnd
  | .privateData => pkt.Adapted ∧ pkt.announces transportAdaptationFlagPrivateData = true ∧
      pkt.privateDataEnd ≤ pkt.adapEnd
  | .ltw => pkt.Extended ∧ pkt.extensionAnnounces transportAdaptationExtensionFlagLtw = true ∧
      128 ≤ (pkt.byte pkt.ltwAt).toNat ∧ pkt.ltwAt + 2 ≤ pkt.extensionEnd
  | .piecewiseRate => pkt.Extended ∧ pkt.extensionAnnounces transportAdaptationExtensionFlagPiecewiseRate = true ∧
      pkt.piecewiseRateAt + 3 ≤ pkt.extensionEnd
  | .seamlessSplice => pkt.Extended ∧ pkt.extensionAnnounces transportAdaptationExtensionFlagSeamlessSplice = true ∧
      pkt.seamlessSpliceAt + 5 ≤ pkt.extensionEnd

def clock (pos : Nat) : Nat := pkt.word pos 6 / 2 ^ 15 * 300 + pkt.word pos 6 % 2 ^ 9

/-- A time stamp of 33 bits in three parts, each with a marker bit behind it, behind 4 other bits. -/
def timeStamp (pos : Nat) : Nat :=
  pkt.word pos 1 / 2 % 2 ^ 3 * 2 ^ 30 + pkt.word (pos + 1) 2 / 2 * 2 ^ 15 + pkt.word (pos + 3) 2 / 2

def Stores (out : TransportValues) : TransportValue → Prop
  | .pcr => out.pcr = pkt.clock 6
  | .opcr => out.opcr = pkt.clock pkt.opcrAt
  | .spliceCountdown => out.spliceCountdown = pkt.byte pkt.spliceCountdownAt
  | .privateData => out.privateDataLength = pkt.byte pkt.privateDataAt ∧ out.privateData = some (pkt.privateDataAt + 1)
  | .ltw => out.ltwOffset = pkt.word pkt.ltwAt 2 % 2 ^ 15
  | .piecewiseRate => out.piecewiseRate = pkt.word pkt.piecewiseRateAt 3 % 2 ^ 22
  | .seamlessSplice => out.spliceType.toNat = (pkt.byte pkt.seamlessSpliceAt).toNat / 16 ∧
      out.dtsNextAu = pkt.timeStamp pkt.seamlessSpliceAt

def PayloadStored (out : TransportValues) : Prop :=
  if pkt.hasPayload then
    ∃ off, out.payload = some off ∧ off + out.payloadLength = transportPacketLength ∧
      off = if pkt.hasAdaptation then pkt.adapEnd else 4
  else out.payload = none ∧ out.payloadLength = 0

def WellFormed : Prop :=
  pkt.hasAdaptation = true → pkt.adapEnd ≤ transportPacketLength ∧ (pkt.adapLength ≠ 0 →
    pkt.extensionAt ≤ pkt.adapEnd ∧ (pkt.announces transportAdaptationFlagExtension = true →
      pkt.extensionEnd ≤ pkt.adapEnd ∧ (pkt.extensionLength ≠ 0 → pkt.extensionFieldsEnd ≤ pkt.extensionEnd)))

end TransportPacket

/-- What is asked of an extraction: all accesses are inside the packet, an error means that an announced field does not
fit, and otherwise exactly the requested values are extracted that are present, as the packet has them. -/
def Extracts (pkt : TransportPacket) (extract : Nat) : Except Halt (Nat × TransportValues) → Prop
  | .error .outside => False
  | .error .malformed => ¬ pkt.WellFormed
  | .ok (extracted, out) => extracted &&& extract = extracted ∧
      (∀ v, hasValue extracted v = true ↔ hasValue extract v = true ∧ pkt.Present v) ∧
      (∀ v, hasValue extracted v = true → pkt.Stores out v) ∧ pkt.PayloadStored out

end LinuxDvb.Ucsi
