import LinuxDvb.Framework.Lists

/-!
# Transport packets

The header of a transport packet, its fields as a little-endian host lays out the bit fields, and the check of its
continuity counter.
-/

namespace LinuxDvb.Ucsi

def transportPacketLength : Nat := 188

def transportNullPid : Nat := 0x1fff

def continuityValid : UInt8 := 0x80

def continuityDupeseen : UInt8 := 0x40

/-- The packet behind a `struct transport_packet *`. -/
structure TransportPacket where
  bytes : List UInt8
  length_eq : bytes.length = transportPacketLength

namespace TransportPacket

variable (pkt : TransportPacket)

def pidHi : UInt8 := pkt.bytes.getD 1 0 &&& 0x1f

def pidLo : UInt8 := pkt.bytes.getD 2 0

def adaptationFieldControl : UInt8 := (pkt.bytes.getD 3 0 >>> 4) &&& 3

def continuityCounter : UInt8 := pkt.bytes.getD 3 0 &&& 0x0f

def hasAdaptation : Bool := pkt.adaptationFieldControl &&& 2 ≠ 0

def hasPayload : Bool := pkt.adaptationFieldControl &&& 1 ≠ 0

end TransportPacket

/-- `transport_packet_pid(pkt)` -/
def transportPacketPid (pkt : TransportPacket) : Nat := (pkt.pidHi.toNat <<< 8) ||| pkt.pidLo.toNat

/-- `transport_packet_continuity_check(pkt, discontinuity_indicator, cstate)`: what it returns and `*cstate`. -/
def transportPacketContinuityCheck (pkt : TransportPacket) (discontinuityIndicator : Int) (cstate : UInt8) :
    Int × UInt8 :=
  let pktcontinuity := pkt.continuityCounter
  let prevcontinuity := cstate &&& 0x0f
  if transportPacketPid pkt = transportNullPid then (0, cstate)
  else if cstate &&& continuityValid = 0 then (0, pktcontinuity ||| continuityValid)
  else if discontinuityIndicator ≠ 0 then (0, pktcontinuity ||| continuityValid)
  else
    let nextcontinuity := if pkt.hasPayload then (prevcontinuity + 1) &&& 0xf else prevcontinuity
    if nextcontinuity = pktcontinuity then (0, pktcontinuity ||| continuityValid)
    -- one dupe is allowed
    else if prevcontinuity = pktcontinuity ∧ cstate &&& continuityDupeseen = 0 then
      (0, pktcontinuity ||| (continuityValid ||| continuityDupeseen))
    else (-1, cstate)

end LinuxDvb.Ucsi
